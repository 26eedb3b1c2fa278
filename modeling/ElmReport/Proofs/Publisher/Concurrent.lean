import ElmReport.Proofs.Publisher.Log

/-!
# Saves that run side by side

Several requests run on one workspace at the same time. A request waits for its first turn, for
every line of its stream, for the end or the failure of the stream, and until the stream is closed.
While it waits the others may go on, in any order. It does not wait between the files that it hands
over to the publisher, and so nobody else goes on until all of them are handed over.

What a request has read stands in its own call. So what it comes to is what it comes to by itself,
and the log of a publisher that never fails is made of whole requests, in the order in which their
checks are completed.

## Main definitions

* `Phase`: where a call stands.
* `Phase.resume`: what a call does until it waits again or has handed over a file.
* `Running`, `Running.step`, `Running.after`: a workspace on which calls run, and the turns of the
  calls in any order.
* `Phase.finds`: what the check of a call still comes to.
* `Phase.remaining`: how many turns a call still needs, at most.
* `Running.Coherent`: what every turn keeps.
* `Outlet.NeverFails`: the publishers that accept every file.

## Main results

* `Phase.finds_resume`, `Phase.accepted_append_left_resume`, `Phase.remaining_resume_lt`: one turn
  of a call.
* `Running.Coherent.turn`, `Running.coherent_after`: what a turn keeps, and a run.
* `Running.Coherent.exists_step_lt`: until all have ended somebody can go on.
* `Running.separate_after`: what the calls come to, and what stands on the log.
-/

namespace ElmReport

variable {σ : Type}

/-- A publisher that accepts every file in every state. -/
def Outlet.NeverFails (o : Outlet σ) : Prop := ∀ s f, (o.offer s f).1 = .ok ()

theorem Outlet.NeverFails.exists_offer {o : Outlet σ} (h : o.NeverFails) (s : σ)
    (f : FileDiagnostics) : ∃ s', o.offer s f = (.ok (), s') :=
  ⟨(o.offer s f).2, by rw [← h s f]⟩

/-! ### Calls -/

/-- Where a call stands. It waits for its first turn; or for a line, with the feed of the lines so
far and what remains of its stream; or until its stream is closed, with what it has found. Or it
hands over all files of its diagnostics, of which some are left, and does not wait. Or it has
ended. -/
inductive Phase where
  | called
  | reading (feed : IssueFeed) (rest : LineStream.Rest)
  | closing (found : Except Failure (List Issue))
  | publishing (all left : List FileDiagnostics)
  | ended (result : Except Failure (List FileDiagnostics))

/-- What a turn of a call comes to: the publisher after it, the files that were accepted, and where
the call stands then. -/
structure Resumed (σ : Type) where
  state : σ
  accepted : List FileDiagnostics := []
  phase : Phase

/-- The diagnostics of what was found. -/
def diagnosticsOf (root : Text) (found : Except Failure (List Issue)) :
    Except Failure (List FileDiagnostics) :=
  found.bind fun issues => (FileDiagnostics.ofIssues root issues).mapError .loneSurrogates

namespace Phase

/-- Whether a call waits, so that others may go on. -/
def isSuspended : Phase → Bool
  | publishing _ _ => false
  | _ => true

/-- Whether the check of a call is completed. -/
def isChecked : Phase → Bool
  | publishing _ _ | ended _ => true
  | _ => false

/-- Whether a call has ended. -/
def isEnded : Phase → Bool
  | ended _ => true
  | _ => false

/-- The files that are still to be handed over. -/
def left : Phase → List FileDiagnostics
  | publishing _ left => left
  | _ => []

/-- The first turn of a call: it asks for the lines of its document. -/
def start (root : Text) (r : Request) : Phase :=
  match FilePath.ofUri r.uri with
  | .error e => ended (.error (.uri e))
  | .ok file => reading { fallback := some file } (r.invoker file root).rest

/-- A turn of a call that waits for a line. -/
def read (feed : IssueFeed) (rest : LineStream.Rest) : Phase :=
  match LineStream.Rest.source.pull rest with
  | (.line t, rest') =>
    match Consumer.checker.take feed t with
    | .error found => closing found
    | .ok feed' => reading feed' rest'
  | (.ended, _) => closing (Consumer.checker.finish feed)
  | (.failed e, _) => closing (Consumer.checker.fail feed e)

/-- The turn in which the check of a call is completed. -/
def complete (root : Text) (r : Request) (found : Except Failure (List Issue)) : Phase :=
  match diagnosticsOf root found with
  | .error e => ended (.error e)
  | .ok files => if r.isSave then publishing files files else ended (.ok files)

/-- A turn of a call. -/
def resume (o : Outlet σ) (root : Text) (r : Request) (s : σ) : Phase → Resumed σ
  | called => { state := s, phase := start root r }
  | reading feed rest => { state := s, phase := read feed rest }
  | closing found => { state := s, phase := complete root r found }
  | publishing all [] => { state := s, phase := ended (.ok all) }
  | publishing all (f :: left) =>
    match o.offer s f with
    | (.error e, s') => { state := s', phase := ended (.error e) }
    | (.ok (), s') => { state := s', accepted := [f], phase := publishing all left }
  | ended result => { state := s, phase := ended result }

/-- Whether the check of a call is completed between two phases. -/
def completes (p q : Phase) : Bool := !p.isChecked && q.isChecked

end Phase

/-! ### Workspaces on which calls run -/

/-- A request that is served, and where its call stands. -/
structure Call where
  request : Request
  phase : Phase := .called

/-- A workspace on which calls run: its publisher, the log of that, the calls, and the requests
whose checks are completed, in this order. -/
structure Running (σ : Type) where
  state : σ
  log : List FileDiagnostics
  calls : List Call
  completed : List Request := []

/-- A workspace on which some requests are about to run. -/
def Workspace.start (w : Workspace σ) (requests : List Request) : Running σ where
  state := w.state
  log := w.log
  calls := requests.map fun r => { request := r }

namespace Running

/-- A turn of the call between some other calls. -/
def turn (o : Outlet σ) (root : Text) (s : Running σ) (before : List Call) (c : Call)
    (after : List Call) : Running σ :=
  let resumed := c.phase.resume o root c.request s.state
  { state := resumed.state
    log := s.log ++ resumed.accepted
    calls := before ++ { c with phase := resumed.phase } :: after
    completed :=
      if c.phase.completes resumed.phase then s.completed ++ [c.request] else s.completed }

/-- What happens when a call is to go on: it has a turn if all other calls wait. -/
def step (o : Outlet σ) (root : Text) (s : Running σ) (i : Nat) : Running σ :=
  let before := s.calls.take i
  match s.calls.drop i with
  | [] => s
  | c :: after =>
    if (before ++ after).all fun d => d.phase.isSuspended then s.turn o root before c after else s

/-- A run in which the calls are to go on in some order. -/
def after (o : Outlet σ) (root : Text) (s : Running σ) (order : List Nat) : Running σ :=
  order.foldl (step o root) s

end Running

/-! ### A turn of a call -/

namespace Request

/-- The files that a request hands over when none is refused: what the check of a save finds. -/
def adds (r : Request) (root : Text) : List FileDiagnostics :=
  if r.isSave then (match r.finds root with | .ok files => files | .error _ => []) else []

/-- The number of lines for a request. -/
def lineCount (r : Request) (root : Text) : Nat :=
  match r.rest? root with
  | .ok rest => LineStream.Rest.source.size rest
  | .error _ => 0

variable {r : Request} {root : Text}

theorem adds_of_ok {files : List FileDiagnostics} (h : r.finds root = .ok files) :
    r.adds root = if r.isSave then files else [] := by
  rw [adds, h]

theorem adds_of_error {e : Failure} (h : r.finds root = .error e) : r.adds root = [] := by
  rw [adds, h, ite_self]

end Request

namespace Phase

/-- What the check of a call still comes to. -/
def finds (root : Text) (r : Request) : Phase → Except Failure (List FileDiagnostics)
  | called => r.finds root
  | reading feed rest =>
    diagnosticsOf root (LineStream.Rest.source.run Consumer.checker feed rest).result
  | closing found => diagnosticsOf root found
  | publishing all _ => .ok all
  | ended result => result

/-- How many turns a call still needs, at most. -/
def remaining (root : Text) (r : Request) : Phase → Nat
  | called => r.lineCount root + (r.adds root).length + 4
  | reading _ rest => LineStream.Rest.source.size rest + (r.adds root).length + 3
  | closing _ => (r.adds root).length + 2
  | publishing _ left => left.length + 1
  | ended _ => 0

variable {root : Text} {r : Request}

/-- A call comes to what the check of its request comes to. -/
theorem finds_start : (start root r).finds root r = r.finds root := by
  rw [start]
  rcases hfile : FilePath.ofUri r.uri with e | file
  · exact (r.diagnose_of_ofUri_error hfile).1.symm
  · obtain ⟨_, -, hloop⟩ := (r.invoker file root).check_eq_run file
    simp only [finds, hloop]
    exact (Invoker.result_diagnose hfile r.invoker root).symm

theorem left_start : (start root r).left = [] := by
  rw [start]
  split <;> rfl

/-- A first turn completes a check only if there is nothing to check. -/
theorem adds_of_isChecked_start (h : (start root r).isChecked = true) : r.adds root = [] := by
  rw [start] at h
  split at h
  · next e hfile => exact Request.adds_of_error (r.diagnose_of_ofUri_error hfile).1
  · exact nomatch h

theorem left_read (feed : IssueFeed) (rest : LineStream.Rest) : (read feed rest).left = [] := by
  rw [read]
  split
  · split <;> rfl
  · rfl
  · rfl

theorem isChecked_read (feed : IssueFeed) (rest : LineStream.Rest) :
    (read feed rest).isChecked = false := by
  rw [read]
  split
  · split <;> rfl
  · rfl
  · rfl

/-- What a call comes to does not change when it takes a line, or when its stream ends or fails. -/
theorem finds_read (feed : IssueFeed) (rest : LineStream.Rest) :
    (read feed rest).finds root r = (reading feed rest).finds root r := by
  rw [read]
  rcases hpull : LineStream.Rest.source.pull rest with ⟨t | _ | e, rest'⟩
  · rcases htake : Consumer.checker.take feed t with found | feed'
    · simp only [htake, finds, Source.run_of_leave hpull htake]
    · simp only [htake, finds, Source.run_of_take hpull htake]
  · simp only [finds, Source.run_of_ended hpull]
  · simp only [finds, Source.run_of_failed hpull]

theorem finds_complete (found : Except Failure (List Issue)) :
    (complete root r found).finds root r = diagnosticsOf root found := by
  rw [complete]
  rcases diagnosticsOf root found with e | files
  · rfl
  · cases hsave : r.isSave <;> simp [finds]

section

variable {o : Outlet σ}

/-- What a call comes to does not change in its turns, as long as the publisher does not fail. -/
theorem finds_resume (hnever : o.NeverFails) {p : Phase} (h : p.finds root r = r.finds root)
    (s : σ) : (p.resume o root r s).phase.finds root r = r.finds root := by
  cases p with
  | called => exact finds_start
  | reading feed rest => exact (finds_read feed rest).trans h
  | closing found => exact (finds_complete found).trans h
  | publishing all left =>
    cases left with
    | nil => exact h
    | cons f others =>
      obtain ⟨s', hoffer⟩ := hnever.exists_offer s f
      simp only [resume, hoffer]
      exact h
  | ended result => exact h

/-- In its turns a call hands over what was left, and when its check is completed, what the request
adds comes to that. -/
theorem accepted_append_left_resume (hnever : o.NeverFails) {p : Phase}
    (h : p.finds root r = r.finds root) (s : σ) :
    (p.resume o root r s).accepted ++ (p.resume o root r s).phase.left =
      p.left ++ if p.completes (p.resume o root r s).phase then r.adds root else [] := by
  cases p with
  | called =>
    change [] ++ (start root r).left = [] ++ if (start root r).isChecked then r.adds root else []
    rw [left_start]
    split
    · next hchecked => rw [adds_of_isChecked_start hchecked]
    · rfl
  | reading feed rest =>
    change [] ++ (read feed rest).left =
      [] ++ if (read feed rest).isChecked then r.adds root else []
    rw [left_read, isChecked_read]
    rfl
  | closing found =>
    have hfinds : diagnosticsOf root found = r.finds root := h
    simp only [resume, complete, hfinds]
    rcases hresult : r.finds root with e | files
    · simp [left, completes, isChecked, Request.adds_of_error hresult]
    · cases hsave : r.isSave <;>
        simp [left, completes, isChecked, Request.adds_of_ok hresult, hsave]
  | publishing all files =>
    cases files with
    | nil => rfl
    | cons f others =>
      obtain ⟨s', hoffer⟩ := hnever.exists_offer s f
      simp [resume, hoffer, left, completes, isChecked]
  | ended result => rfl

/-- A check that is completed stays so. -/
theorem isChecked_resume {p : Phase} (h : p.isChecked = true) (s : σ) :
    (p.resume o root r s).phase.isChecked = true := by
  cases p with
  | publishing all left =>
    cases left with
    | nil => rfl
    | cons f others =>
      simp only [resume]
      split <;> rfl
  | ended result => rfl
  | _ => exact nomatch h

/-- With every turn a call that has not ended needs fewer turns. -/
theorem remaining_resume_lt {p : Phase} (h : p.finds root r = r.finds root)
    (hp : p.isEnded = false) (s : σ) :
    (p.resume o root r s).phase.remaining root r < p.remaining root r := by
  cases p with
  | called =>
    simp only [resume, start]
    rcases hfile : FilePath.ofUri r.uri with e | file
    · simp only [remaining]
      omega
    · simp only [remaining, Request.lineCount, Request.rest?, hfile, Except.map]
      omega
  | reading feed rest =>
    simp only [resume, read]
    rcases hpull : LineStream.Rest.source.pull rest with ⟨t | _ | e, rest'⟩
    · have hsize := LineStream.Rest.source.size_lt_of_pull hpull
      rcases htake : Consumer.checker.take feed t with found | feed'
      · simp only [htake, remaining]
        omega
      · simp only [htake, remaining]
        omega
    · simp only [remaining]
      omega
    · simp only [remaining]
      omega
  | closing found =>
    have hfinds : diagnosticsOf root found = r.finds root := h
    simp only [resume, complete, hfinds]
    rcases hresult : r.finds root with e | files
    · simp only [remaining]
      omega
    · cases hsave : r.isSave
      · simp [remaining]
      · simp [remaining, Request.adds_of_ok hresult, hsave]
  | publishing all left =>
    cases left with
    | nil => simp [resume, remaining]
    | cons f others =>
      rcases hoffer : o.offer s f with ⟨e | ⟨⟩, s'⟩
      · simp [resume, hoffer, remaining]
      · simp [resume, hoffer, remaining]
  | ended result => cases hp

end

/-- A call that has ended lets others go on. -/
theorem isSuspended_of_isEnded (p : Phase) (h : p.isEnded = true) : p.isSuspended = true := by
  cases p with
  | ended => rfl
  | _ => exact nomatch h

/-- A call that waits has nothing left to hand over. -/
theorem left_of_isSuspended (p : Phase) (h : p.isSuspended = true) : p.left = [] := by
  cases p with
  | publishing => exact nomatch h
  | _ => rfl

theorem isChecked_of_isEnded (p : Phase) (h : p.isEnded = true) : p.isChecked = true := by
  cases p with
  | ended => rfl
  | _ => exact nomatch h

end Phase

/-! ### Requests one after the other -/

namespace Workspace

variable {w : Workspace σ} {o : Outlet σ}

/-- A publisher that never fails accepts all files. -/
theorem exists_takes (hnever : o.NeverFails) (s : σ) (fs : List FileDiagnostics) :
    ∃ s', o.Takes s fs s' := by
  rcases o.takes_or_refuses s fs with htakes | ⟨_, f, _, s', s'', e, -, -, hoffer⟩
  · exact htakes
  · obtain ⟨t, hok⟩ := hnever.exists_offer s' f
    exact nomatch hok.symm.trans hoffer

/-- With a publisher that never fails a request comes to what its check finds, and the log gets what
the request adds. -/
theorem serve_of_never (houtlet : w.outlet = some o) (hnever : o.NeverFails) (r : Request) :
    (w.serve r).check.result = r.finds w.root ∧
      (w.serve r).workspace.log = w.log ++ r.adds w.root := by
  rcases hsave : r.isSave with _ | _
  · simp [serve_of_not_save hsave, Request.adds, Request.finds, hsave]
  rcases hfinds : r.finds w.root with e | files
  · rw [serve_of_error hsave houtlet hfinds, Request.adds_of_error hfinds, List.append_nil]
    exact ⟨hfinds, rfl⟩
  · obtain ⟨hresult, hlog⟩ := serve_of_ok hsave houtlet hfinds
    obtain ⟨s', htakes⟩ := exists_takes hnever w.state files
    rw [htakes.publishAll_eq] at hresult hlog
    rw [Request.adds_of_ok hfinds, if_pos hsave]
    exact ⟨hresult, hlog⟩

/-- Requests that are served one after the other add what they add by themselves. -/
theorem log_after_of_never (houtlet : w.outlet = some o) (hnever : o.NeverFails)
    (requests : List Request) :
    (w.after requests).log = w.log ++ requests.flatMap fun r => r.adds w.root := by
  induction requests using List.reverseRecOn with
  | nil => exact (List.append_nil _).symm
  | append_singleton requests r ih =>
    obtain ⟨hroot, hsame⟩ := w.root_after requests
    have hlog := (serve_of_never (hsame.trans houtlet) hnever r).2
    rw [after_append_singleton, hlog, hroot, ih]
    simp

end Workspace

/-! ### A turn on a workspace -/

namespace Running

/-- The requests whose checks are not completed yet. -/
def unchecked (calls : List Call) : List Request :=
  (calls.filter fun c => !c.phase.isChecked).map Call.request

theorem unchecked_append (calls others : List Call) :
    unchecked (calls ++ others) = unchecked calls ++ unchecked others := by
  simp [unchecked]

theorem unchecked_cons (c : Call) (calls : List Call) :
    unchecked (c :: calls) =
      if c.phase.isChecked then unchecked calls else c.request :: unchecked calls := by
  cases hchecked : c.phase.isChecked <;> simp [unchecked, hchecked]

/-- A request whose check is completed goes from those that are not completed to the end of those
that are. -/
theorem perm_completed {a b : Bool} (hab : a = true → b = true) (done before after : List Request)
    (r : Request) :
    ((if !a && b then done ++ [r] else done) ++
      (before ++ if b then after else r :: after)).Perm
        (done ++ (before ++ if a then after else r :: after)) := by
  cases a with
  | true => simp [hab rfl]
  | false =>
    cases b with
    | false => exact .rfl
    | true =>
      simp only [Bool.not_false, Bool.and_self, if_true, Bool.false_eq_true, if_false,
        List.append_assoc, List.singleton_append]
      exact List.perm_middle.symm.append_left done

/-- How many turns some calls still need, at most. -/
def turnsLeft (root : Text) : List Call → Nat
  | [] => 0
  | c :: calls => c.phase.remaining root c.request + turnsLeft root calls

theorem turnsLeft_append (root : Text) (calls others : List Call) :
    turnsLeft root (calls ++ others) = turnsLeft root calls + turnsLeft root others := by
  induction calls with
  | nil => exact (Nat.zero_add _).symm
  | cons c calls ih => rw [List.cons_append, turnsLeft, turnsLeft, ih, Nat.add_assoc]

/-- How many turns the calls still need, at most. -/
def remaining (root : Text) (s : Running σ) : Nat := turnsLeft root s.calls

section

variable {o : Outlet σ} {root : Text} {s : Running σ} {before after : List Call} {c : Call}

/-- A call has its turn when the other calls wait. -/
theorem step_of_isSuspended (hcalls : s.calls = before ++ c :: after)
    (hwait : ∀ d ∈ before ++ after, d.phase.isSuspended = true) :
    s.step o root before.length = s.turn o root before c after := by
  have hall : ((before ++ after).all fun d => d.phase.isSuspended) = true :=
    List.all_eq_true.2 hwait
  simp only [step, hcalls, List.take_left, List.drop_left, hall, if_true]

/-- Either nothing happens, or a call has its turn while the other calls wait. -/
theorem step_cases (o : Outlet σ) (root : Text) (s : Running σ) (i : Nat) :
    s.step o root i = s ∨ ∃ before c after, s.calls = before ++ c :: after ∧
      (∀ d ∈ before ++ after, d.phase.isSuspended = true) ∧
      s.step o root i = s.turn o root before c after := by
  rcases hdrop : s.calls.drop i with _ | ⟨c, after⟩
  · exact .inl (by simp only [step, hdrop])
  by_cases hall : ((s.calls.take i ++ after).all fun d => d.phase.isSuspended) = true
  · refine .inr ⟨s.calls.take i, c, after, ?_, List.all_eq_true.1 hall, ?_⟩
    · rw [← hdrop, List.take_append_drop]
    · simp only [step, hdrop, if_pos hall]
  · exact .inl (by simp only [step, hdrop, if_neg hall])

/-- Calls that wait have nothing left to hand over. -/
theorem flatMap_left_of_isSuspended {calls : List Call}
    (h : ∀ d ∈ calls, d.phase.isSuspended = true) : calls.flatMap (fun d => d.phase.left) = [] :=
  List.flatMap_eq_nil_iff.2 fun d hd => d.phase.left_of_isSuspended (h d hd)

theorem flatMap_left_of_split (hwait : ∀ d ∈ before ++ after, d.phase.isSuspended = true) :
    (before ++ c :: after).flatMap (fun d => d.phase.left) = c.phase.left := by
  obtain ⟨hbefore, hafter⟩ := List.forall_mem_append.1 hwait
  rw [List.flatMap_append, List.flatMap_cons, flatMap_left_of_isSuspended hbefore,
    flatMap_left_of_isSuspended hafter, List.nil_append, List.append_nil]

end

/-! ### What every turn keeps -/

/-- What every turn of a call keeps. The calls are those of the requests, and each comes to what the
check of its request comes to. At most one of them does not wait. What stands on the log and what is
left of the call that does not wait come to what the requests add whose checks are completed, one
after the other. Every request is completed once or not yet. -/
structure Coherent (w : Workspace σ) (requests : List Request) (s : Running σ) : Prop where
  calls : s.calls.map Call.request = requests
  finds : ∀ c ∈ s.calls, c.phase.finds w.root c.request = c.request.finds w.root
  exclusive : s.calls.Pairwise fun c d => c.phase.isSuspended = true ∨ d.phase.isSuspended = true
  log : s.log ++ s.calls.flatMap (fun c => c.phase.left) =
    w.log ++ s.completed.flatMap fun r => r.adds w.root
  completed : (s.completed ++ unchecked s.calls).Perm requests

/-- Before any turn nothing is read or published. -/
theorem coherent_start (w : Workspace σ) (requests : List Request) :
    Coherent w requests (w.start requests) where
  calls := by simp [Workspace.start, Function.comp_def]
  finds := List.forall_mem_map.2 fun _ _ => rfl
  exclusive := List.pairwise_map.2 (List.pairwise_of_forall fun _ _ => .inl rfl)
  log := by
    have hwait : ∀ c ∈ (w.start requests).calls, c.phase.isSuspended = true :=
      List.forall_mem_map.2 fun _ _ => rfl
    rw [flatMap_left_of_isSuspended hwait]
    rfl
  completed := by
    have hall : (w.start requests).calls.filter (fun c => !c.phase.isChecked) =
        (w.start requests).calls :=
      List.filter_eq_self.2 (List.forall_mem_map.2 fun _ _ => rfl)
    rw [unchecked, hall]
    simp [Workspace.start, Function.comp_def]

section

variable {w : Workspace σ} {o : Outlet σ} {requests : List Request} {s : Running σ}

/-- **One turn.** A turn of a call while the other calls wait keeps the calls apart. -/
theorem Coherent.turn (hnever : o.NeverFails) (h : Coherent w requests s)
    {before after : List Call} {c : Call} (hcalls : s.calls = before ++ c :: after)
    (hwait : ∀ d ∈ before ++ after, d.phase.isSuspended = true) :
    Coherent w requests (s.turn o w.root before c after) := by
  obtain ⟨hbefore, hafter⟩ := List.forall_mem_append.1 hwait
  have hsame := h.finds
  rw [hcalls, List.forall_mem_append, List.forall_mem_cons] at hsame
  obtain ⟨hsameBefore, hc, hsameAfter⟩ := hsame
  have hexclusive := h.exclusive
  rw [hcalls, List.pairwise_append, List.pairwise_cons] at hexclusive
  obtain ⟨hpairsBefore, ⟨-, hpairsAfter⟩, -⟩ := hexclusive
  refine ⟨?_, ?_, ?_, ?_, ?_⟩
  · rw [← h.calls, hcalls]
    simp [Running.turn]
  · exact List.forall_mem_append.2 ⟨hsameBefore, List.forall_mem_cons.2
      ⟨Phase.finds_resume hnever hc s.state, hsameAfter⟩⟩
  · exact List.pairwise_append.2 ⟨hpairsBefore, List.pairwise_cons.2
      ⟨fun d hd => .inr (hafter d hd), hpairsAfter⟩, fun d hd _ _ => .inl (hbefore d hd)⟩
  · have hlog := h.log
    rw [hcalls, flatMap_left_of_split hwait] at hlog
    have hturn := Phase.accepted_append_left_resume hnever hc s.state
    simp only [Running.turn]
    rw [flatMap_left_of_split hwait, List.append_assoc, hturn, ← List.append_assoc, hlog]
    split <;> simp
  · have hperm := h.completed
    rw [hcalls, unchecked_append, unchecked_cons] at hperm
    simp only [Running.turn, unchecked_append, unchecked_cons]
    exact (perm_completed (fun hc => Phase.isChecked_resume hc s.state) ..).trans hperm

/-- Whichever call is to go on, the calls are kept apart. -/
theorem Coherent.step (hnever : o.NeverFails) (h : Coherent w requests s) (i : Nat) :
    Coherent w requests (s.step o w.root i) := by
  rcases step_cases o w.root s i with hsame | ⟨before, c, after, hcalls, hwait, hturn⟩
  · rwa [hsame]
  · rw [hturn]
    exact h.turn hnever hcalls hwait

/-- **A run.** In whichever order the calls are to go on, they are kept apart. -/
theorem coherent_after (hnever : o.NeverFails) (w : Workspace σ) (requests : List Request)
    (order : List Nat) :
    Coherent w requests ((w.start requests).after o w.root order) := by
  induction order using List.reverseRecOn with
  | nil => exact coherent_start w requests
  | append_singleton order i ih =>
    rw [Running.after, List.foldl_append]
    exact ih.step hnever i

/-! ### The end of a run -/

/-- With every turn of a call that has not ended fewer turns are needed. -/
theorem Coherent.remaining_turn_lt (h : Coherent w requests s) {before after : List Call} {c : Call}
    (hcalls : s.calls = before ++ c :: after) (hc : c.phase.isEnded = false) :
    (s.turn o w.root before c after).remaining w.root < s.remaining w.root := by
  have hsame : c.phase.finds w.root c.request = c.request.finds w.root :=
    h.finds c (by simp [hcalls])
  have hlt := Phase.remaining_resume_lt (o := o) hsame hc s.state
  simp only [remaining, Running.turn, hcalls, turnsLeft_append, turnsLeft]
  omega

/-- A call that has ended does nothing in its turns. -/
theorem turn_of_isEnded {before after : List Call} {c : Call}
    (hcalls : s.calls = before ++ c :: after) (hc : c.phase.isEnded = true) (root : Text) :
    s.turn o root before c after = s := by
  obtain ⟨request, phase⟩ := c
  cases phase with
  | ended result =>
    simp only [turn, Phase.resume, ← hcalls, List.append_nil]
    rfl
  | _ => exact nomatch hc

/-- Either nothing happens or fewer turns are needed. -/
theorem Coherent.step_eq_or_lt (h : Coherent w requests s) (i : Nat) :
    s.step o w.root i = s ∨ (s.step o w.root i).remaining w.root < s.remaining w.root := by
  rcases step_cases o w.root s i with hsame | ⟨before, c, after, hcalls, hwait, hturn⟩
  · exact .inl hsame
  rw [hturn]
  rcases hc : c.phase.isEnded with _ | _
  · exact .inr (h.remaining_turn_lt hcalls hc)
  · exact .inl (turn_of_isEnded hcalls hc w.root)

/-- Until all calls have ended somebody can go on: the call that does not wait, or any that has not
ended when all wait. -/
theorem Coherent.exists_step_lt (h : Coherent w requests s)
    (hopen : ∃ c ∈ s.calls, c.phase.isEnded = false) :
    ∃ i, (s.step o w.root i).remaining w.root < s.remaining w.root := by
  obtain ⟨c, hc, hended, hothers⟩ : ∃ c ∈ s.calls, c.phase.isEnded = false ∧
      ((∀ d ∈ s.calls, d.phase.isSuspended = true) ∨ c.phase.isSuspended = false) := by
    by_cases hwait : ∀ d ∈ s.calls, d.phase.isSuspended = true
    · obtain ⟨c, hc, hended⟩ := hopen
      exact ⟨c, hc, hended, .inl hwait⟩
    · simp only [not_forall, Bool.not_eq_true] at hwait
      obtain ⟨c, hc, hbusy⟩ := hwait
      refine ⟨c, hc, ?_, .inr hbusy⟩
      by_contra hended
      rw [c.phase.isSuspended_of_isEnded (by simpa using hended)] at hbusy
      exact nomatch hbusy
  obtain ⟨before, after, hcalls⟩ := List.append_of_mem hc
  refine ⟨before.length, ?_⟩
  rw [step_of_isSuspended hcalls ?_]
  · exact h.remaining_turn_lt hcalls hended
  rcases hothers with hwait | hbusy
  · rw [hcalls, List.forall_mem_append, List.forall_mem_cons] at hwait
    exact List.forall_mem_append.2 ⟨hwait.1, hwait.2.2⟩
  · have hexclusive := h.exclusive
    rw [hcalls, List.pairwise_append, List.pairwise_cons] at hexclusive
    obtain ⟨-, ⟨hafter, -⟩, hbefore⟩ := hexclusive
    refine List.forall_mem_append.2 ⟨fun d hd => ?_, fun d hd => ?_⟩
    · exact (hbefore d hd c (by simp)).resolve_right (by simp [hbusy])
    · exact (hafter d hd).resolve_left (by simp [hbusy])

end

/-- **Saves that run side by side do not mix.** Several requests run on a workspace with a publisher
that never fails, and they are to go on in any order. Each call that has ended came to what it comes
to by itself. The files on the log are those of whole requests, in the order in which their checks
are completed, up to some that are left of the request that is being published; and what a request
adds is what it comes to, or nothing when it fails. Once all calls have ended every request is
completed, and the log is the same as if the requests had been served one after the other, in the
order in which they are completed. Every turn brings the end nearer, and until all have ended there
is a call that can go on. -/
theorem separate_after {w : Workspace σ} {o : Outlet σ} (houtlet : w.outlet = some o)
    (hnever : o.NeverFails) (requests : List Request) (order : List Nat) :
    let s := (w.start requests).after o w.root order
    s.calls.map Call.request = requests ∧
    (∀ c ∈ s.calls, ∀ result, c.phase = .ended result →
      result = (w.serve c.request).check.result) ∧
    (∃ left, s.log ++ left = w.log ++ s.completed.flatMap (fun r => r.adds w.root) ∧
      ((∀ c ∈ s.calls, c.phase.isSuspended = true) → left = [])) ∧
    (∀ r : Request, r.isSave = true →
      (∀ files, (w.serve r).check.result = .ok files → r.adds w.root = files) ∧
      ∀ e, (w.serve r).check.result = .error e → r.adds w.root = []) ∧
    ((∀ c ∈ s.calls, c.phase.isEnded = true) → s.completed.Perm requests ∧
      s.log = w.log ++ s.completed.flatMap (fun r => r.adds w.root) ∧
      s.log = (w.after s.completed).log) ∧
    (∀ i, s.step o w.root i = s ∨
      (s.step o w.root i).remaining w.root < s.remaining w.root) ∧
    ((∃ c ∈ s.calls, c.phase.isEnded = false) →
      ∃ i, (s.step o w.root i).remaining w.root < s.remaining w.root) := by
  intro s
  have h : Coherent w requests s := coherent_after hnever w requests order
  refine ⟨h.calls, fun c hc result hphase => ?_, ⟨_, h.log, flatMap_left_of_isSuspended⟩,
    fun r hsave => ?_, fun hended => ?_, h.step_eq_or_lt, h.exists_step_lt⟩
  · have hfinds := h.finds c hc
    rw [hphase] at hfinds
    exact hfinds.trans (Workspace.serve_of_never houtlet hnever c.request).1.symm
  · rw [(Workspace.serve_of_never houtlet hnever r).1]
    refine ⟨fun files hfiles => ?_, fun e he => Request.adds_of_error he⟩
    rw [Request.adds_of_ok hfiles, if_pos hsave]
  · have hwait : ∀ c ∈ s.calls, c.phase.isSuspended = true := fun c hc =>
      c.phase.isSuspended_of_isEnded (hended c hc)
    have hchecked : unchecked s.calls = [] := by
      refine List.map_eq_nil_iff.2 (List.filter_eq_nil_iff.2 fun c hc => ?_)
      simp [c.phase.isChecked_of_isEnded (hended c hc)]
    have hlog := h.log
    have hperm := h.completed
    rw [flatMap_left_of_isSuspended hwait, List.append_nil] at hlog
    rw [hchecked, List.append_nil] at hperm
    exact ⟨hperm, hlog, hlog.trans (Workspace.log_after_of_never houtlet hnever _).symm⟩

/-- Three saves: one of two files, one of a line that is none, and one of a file, which is completed
first while the first waits for its stream. Nobody goes on while the first hands over its files. -/
theorem separate_after_three :
    let o : Outlet Unit := ⟨fun _ _ => (.ok (), ())⟩
    let w : Workspace Unit := { root := "/w", outlet := some o, state := () }
    let line : Text := "\x7b\"type\":\"error\",\"title\":\"\",\"message\":[]\x7d"
    let other : Text :=
      "\x7b\"type\":\"error\",\"title\":\"\",\"message\":[],\"path\":\"./B\"\x7d"
    let first : Request := ⟨true, "file:///w/A", fun _ _ => { lines := [line, other] }⟩
    let failing : Request := ⟨true, "file:///w/B", fun _ _ => { lines := ["?"] }⟩
    let last : Request := ⟨true, "file:///w/C", fun _ _ => { lines := [line] }⟩
    let order := [0, 1, 2, 0, 2, 1, 2, 0, 0, 2, 0, 2, 2, 0, 1, 0, 2, 1, 0, 0, 1]
    let s := (w.start [first, failing, last]).after o w.root order
    w.outlet = some o ∧ o.NeverFails ∧
      s.completed.map Request.uri = ["file:///w/C", "file:///w/A", "file:///w/B"] ∧
      s.log = s.completed.flatMap (fun r => r.adds w.root) ∧
      s.log.map FileDiagnostics.uri = ["file:///w/C", "file:///w/A", "file:///w/B"] := by
  intro o w line other first failing last order s
  have hnever : o.NeverFails := fun _ _ => rfl
  obtain ⟨hended, hcompleted, huris⟩ : s.calls.all (fun c => c.phase.isEnded) = true ∧
      s.completed.map Request.uri = ["file:///w/C", "file:///w/A", "file:///w/B"] ∧
      s.log.map FileDiagnostics.uri = ["file:///w/C", "file:///w/A", "file:///w/B"] := by
    decide +kernel
  obtain ⟨-, -, -, -, hend, -⟩ :=
    separate_after (w := w) rfl hnever [first, failing, last] order
  obtain ⟨-, hlog, -⟩ := hend (List.all_eq_true.1 hended)
  exact ⟨rfl, hnever, hcompleted, hlog.trans (List.nil_append _), huris⟩

end Running

end ElmReport
