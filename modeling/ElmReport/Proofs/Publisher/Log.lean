import ElmReport.Proofs.Stream.Check
import ElmReport.Publisher
import Mathlib.Data.List.Induction

/-!
# What stands on the log of a publisher

A workspace is asked for one document after the other, with or without publishing what is found.
What its publisher has accepted stands on a log. Only a save whose check succeeds adds to the log:
all of its files, or those before the first that the publisher refuses. What a check finds does not
hang on the requests before it.

## Main definitions

* `Outlet.Takes`: the files that a publisher accepts, one after the other.
* `Request`, `Workspace`: what is asked for, and where.
* `Workspace.serve`, `Workspace.after`: one request, and several of them.
* `Request.finds`: what the check of a request comes to by itself.

## Main results

* `Outlet.Takes.publishAll_eq`, `Outlet.Takes.publishAll_refused`: publishing with and without a
  refusal.
* `Request.finds_congr`: what the check of a request hangs on.
* `Workspace.save_eq_serve`, `Workspace.published_after`: a publisher with room for only so many
  files.
* `Workspace.log_after_append_singleton`: what a request adds to the log.
-/

namespace ElmReport

/-! ### Accepting files -/

namespace Outlet

variable {σ : Type} {o : Outlet σ}

/-- A publisher in some state accepts all of some files, one after the other, and is in another
state then. -/
inductive Takes (o : Outlet σ) : σ → List FileDiagnostics → σ → Prop
  | nil {s : σ} : Takes o s [] s
  | cons {s s' s'' : σ} {f : FileDiagnostics} {fs : List FileDiagnostics}
      (hf : o.offer s f = (.ok (), s')) (hfs : Takes o s' fs s'') : Takes o s (f :: fs) s''

/-- Files that are all accepted are published. -/
theorem Takes.publishAll_eq {s s' : σ} {fs : List FileDiagnostics} (h : o.Takes s fs s') :
    o.publishAll s fs = ⟨fs, .ok (), s'⟩ := by
  induction h with
  | nil => rfl
  | cons hf _ ih => rw [publishAll_of_ok hf, ih]

/-- Nothing is published after a file that is refused. -/
theorem Takes.publishAll_refused {s s' s'' : σ} {accepted : List FileDiagnostics}
    {f : FileDiagnostics} {e : Failure} (h : o.Takes s accepted s')
    (hf : o.offer s' f = (.error e, s'')) (rest : List FileDiagnostics) :
    o.publishAll s (accepted ++ f :: rest) = ⟨accepted, .error e, s''⟩ := by
  induction h with
  | nil => exact publishAll_of_error hf rest
  | cons hg _ ih => rw [List.cons_append, publishAll_of_ok hg, ih hf]

/-- Either all files are accepted, or there is a first that is refused. -/
theorem takes_or_refuses (o : Outlet σ) (s : σ) (fs : List FileDiagnostics) :
    (∃ s', o.Takes s fs s') ∨ ∃ accepted f rest s' s'' e, fs = accepted ++ f :: rest ∧
      o.Takes s accepted s' ∧ o.offer s' f = (.error e, s'') := by
  induction fs generalizing s with
  | nil => exact .inl ⟨s, .nil⟩
  | cons f fs ih =>
    rcases hf : o.offer s f with ⟨e | ⟨⟩, s'⟩
    · exact .inr ⟨[], f, fs, s, s', e, rfl, .nil, hf⟩
    · rcases ih s' with ⟨s'', hfs⟩ | ⟨accepted, g, rest, t, t', e, rfl, hfs, hg⟩
      · exact .inl ⟨s'', .cons hf hfs⟩
      · exact .inr ⟨f :: accepted, g, rest, t, t', e, rfl, .cons hf hfs, hg⟩

end Outlet

/-! ### Requests -/

/-- What is asked of a workspace: the diagnostics of a document, which are published if it is a
save, and who hands out the lines for the document. -/
structure Request where
  isSave : Bool
  uri : Text
  invoker : Invoker

namespace Request

/-- What the check of a request comes to by itself, below a root. -/
def finds (r : Request) (root : Text) : Except Failure (List FileDiagnostics) :=
  (r.invoker.diagnose root r.uri).result

/-- The lines for a request and the failure after them, if it is about a file. -/
def rest? (r : Request) (root : Text) : Except UriError LineStream.Rest :=
  (FilePath.ofUri r.uri).map fun file => (r.invoker file root).rest

end Request

theorem LineStream.result_check_congr {s t : LineStream} (h : s.rest = t.rest) (file : Text) :
    (s.check file).result = (t.check file).result := by
  obtain ⟨_, -, hs⟩ := s.check_eq_run file
  obtain ⟨_, -, ht⟩ := t.check_eq_run file
  rw [h] at hs
  exact congrArg Consumed.result (hs.symm.trans ht)

namespace Request

variable {r r' : Request} {root : Text}

/-- What a check finds hangs on the document, the lines for it and the failure after them. -/
theorem finds_congr (huri : r'.uri = r.uri) (h : r'.rest? root = r.rest? root) :
    r'.finds root = r.finds root := by
  rcases hfile : FilePath.ofUri r.uri with e | file
  · simp only [finds, Invoker.diagnose, huri, hfile]
  · simp only [rest?, huri, hfile, Except.map, Except.ok.injEq] at h
    rw [finds, finds, huri, Invoker.result_diagnose hfile, Invoker.result_diagnose hfile,
      LineStream.result_check_congr h]

/-- A document without a file is not checked. -/
theorem diagnose_of_ofUri_error {e : UriError} (h : FilePath.ofUri r.uri = .error e) :
    r.finds root = .error (.uri e) ∧ (r.invoker.diagnose root r.uri).asked = none := by
  rw [finds]
  simp only [Invoker.diagnose, h, and_self]

end Request

/-! ### Workspaces -/

/-- A workspace: its root, its publisher if there is one, the state of that, and the log of what it
has accepted. -/
structure Workspace (σ : Type) where
  root : Text
  outlet : Option (Outlet σ)
  state : σ
  log : List FileDiagnostics := []

namespace Workspace

variable {σ : Type}

/-- What a request comes to: the workspace after it, and its check. -/
structure Step (σ : Type) where
  workspace : Workspace σ
  check : CheckRun (List FileDiagnostics)

/-- Serves a request. A save needs a publisher. -/
def serve (w : Workspace σ) (r : Request) : Step σ :=
  if r.isSave then
    match w.outlet with
    | none => ⟨w, { result := .error .noPublisher }⟩
    | some o =>
      let saved := r.invoker.saveTo w.root r.uri o w.state
      ⟨{ w with state := saved.publisher, log := w.log ++ saved.published }, saved.check⟩
  else ⟨w, r.invoker.diagnose w.root r.uri⟩

/-- The workspace after some requests, whether they failed or not. -/
def after (w : Workspace σ) (requests : List Request) : Workspace σ :=
  requests.foldl (fun w r => (w.serve r).workspace) w

@[simp] theorem root_serve (w : Workspace σ) (r : Request) :
    (w.serve r).workspace.root = w.root := by
  rw [serve]
  split_ifs
  · split <;> rfl
  · rfl

@[simp] theorem outlet_serve (w : Workspace σ) (r : Request) :
    (w.serve r).workspace.outlet = w.outlet := by
  rw [serve]
  split_ifs
  · split <;> simp [*]
  · rfl

theorem after_append_singleton (w : Workspace σ) (requests : List Request) (r : Request) :
    w.after (requests ++ [r]) = ((w.after requests).serve r).workspace := by
  simp [after]

/-- No request changes the root or the publisher. -/
@[simp] theorem root_after (w : Workspace σ) (requests : List Request) :
    (w.after requests).root = w.root ∧ (w.after requests).outlet = w.outlet := by
  induction requests using List.reverseRecOn with
  | nil => exact ⟨rfl, rfl⟩
  | append_singleton requests r ih =>
    rw [after_append_singleton, root_serve, outlet_serve]
    exact ih

/-! ### One request -/

section

variable {w : Workspace σ} {r : Request}

/-- Without a save nothing is published. -/
theorem serve_of_not_save (h : r.isSave = false) :
    w.serve r = ⟨w, r.invoker.diagnose w.root r.uri⟩ := by
  simp [serve, h]

/-- A save without a publisher is refused before anything is checked. -/
theorem serve_of_no_outlet (h : r.isSave = true) (ho : w.outlet = none) :
    w.serve r = ⟨w, { result := .error .noPublisher }⟩ := by
  simp [serve, h, ho]

theorem serve_of_outlet {o : Outlet σ} (h : r.isSave = true) (ho : w.outlet = some o) :
    w.serve r =
      ⟨{ w with
          state := (r.invoker.saveTo w.root r.uri o w.state).publisher
          log := w.log ++ (r.invoker.saveTo w.root r.uri o w.state).published },
        (r.invoker.saveTo w.root r.uri o w.state).check⟩ := by
  simp [serve, h, ho]

/-- A save whose check fails publishes nothing. -/
theorem serve_of_error {o : Outlet σ} {e : Failure} (h : r.isSave = true)
    (ho : w.outlet = some o) (he : r.finds w.root = .error e) :
    w.serve r = ⟨w, r.invoker.diagnose w.root r.uri⟩ := by
  rw [serve_of_outlet h ho, Invoker.saveTo_of_error he]
  simp

/-- A save whose check succeeds publishes what it finds. -/
theorem serve_of_ok {o : Outlet σ} {files : List FileDiagnostics} (h : r.isSave = true)
    (ho : w.outlet = some o) (hfiles : r.finds w.root = .ok files) :
    (w.serve r).check.result = (o.publishAll w.state files).outcome.map (fun _ => files) ∧
      (w.serve r).workspace.log = w.log ++ (o.publishAll w.state files).accepted := by
  rw [serve_of_outlet h ho, Invoker.saveTo_of_ok hfiles]
  exact ⟨rfl, rfl⟩

/-- A request that publishes nothing leaves the log as it is. -/
theorem log_serve_of_nothing
    (h : r.isSave = false ∨ w.outlet = none ∨ ∀ files, r.finds w.root = .ok files → files = []) :
    (w.serve r).workspace.log = w.log := by
  rcases hsave : r.isSave with _ | _
  · rw [serve_of_not_save hsave]
  rcases ho : w.outlet with _ | o
  · rw [serve_of_no_outlet hsave ho]
  rcases hfinds : r.finds w.root with e | files
  · rw [serve_of_error hsave ho hfinds]
  · obtain rfl : files = [] := by simpa [hsave, ho, hfinds] using h
    rw [(serve_of_ok hsave ho hfinds).2, Outlet.publishAll, List.append_nil]

/-- A request that is refused before its check asks nobody for lines. -/
theorem asked_serve_of_ofUri_error {e : UriError} (h : FilePath.ofUri r.uri = .error e) :
    (w.serve r).check.asked = none := by
  obtain ⟨hfinds, hasked⟩ : r.finds w.root = .error (.uri e) ∧
      (r.invoker.diagnose w.root r.uri).asked = none := r.diagnose_of_ofUri_error h
  rcases hsave : r.isSave with _ | _
  · rw [serve_of_not_save hsave, hasked]
  rcases ho : w.outlet with _ | o
  · rw [serve_of_no_outlet hsave ho]
  · rw [serve_of_error hsave ho hfinds, hasked]

end

/-! ### A publisher with room for only so many files -/

section

variable {w : Workspace Publisher} {r : Request}

/-- Serving a save is the save. -/
theorem save_eq_serve (h : r.isSave = true) (ho : w.outlet = some Publisher.outlet) :
    r.invoker.save w.root r.uri (some w.state) =
      ⟨some (w.serve r).workspace.state, (w.serve r).check⟩ := by
  rw [serve_of_outlet h ho, Invoker.save]

theorem published_serve (ho : w.outlet = some Publisher.outlet)
    (h : w.state.published = w.log) (r : Request) :
    (w.serve r).workspace.state.published = (w.serve r).workspace.log := by
  rcases hsave : r.isSave with _ | _
  · rwa [serve_of_not_save hsave]
  rw [serve_of_outlet hsave ho]
  rcases hfinds : r.finds w.root with e | files
  · rw [Invoker.saveTo_of_error hfinds]
    simpa using h
  · rw [Invoker.saveTo_of_ok hfinds]
    exact (Publisher.published_publishAll ..).trans (congrArg (· ++ _) h)

/-- The log is what the publisher has published. -/
theorem published_after (ho : w.outlet = some Publisher.outlet) (h : w.state.published = w.log)
    (requests : List Request) :
    (w.after requests).state.published = (w.after requests).log := by
  induction requests using List.reverseRecOn with
  | nil => exact h
  | append_singleton requests r ih =>
    rw [after_append_singleton]
    exact published_serve ((w.root_after requests).2.trans ho) ih r

end

/-! ### All requests -/

/-- **What a request adds to the log**, whatever was asked for before. A save whose check succeeds
adds all of its files, or those before the first that the publisher refuses, and then it fails by
this refusal. Every other request adds nothing: one that is no save, one without a publisher, and
one whose check fails or finds nothing, by a document without a file, a line that is not decoded, or
a failure of the invoker. A save without a publisher and a document without a file are not checked.
What a check finds hangs on the document, its lines and the failure after them. -/
theorem log_after_append_singleton (w : Workspace σ) (earlier : List Request) (r : Request) :
    let before := w.after earlier
    let step := before.serve r
    w.after (earlier ++ [r]) = step.workspace ∧
    (∀ o files, r.isSave = true → w.outlet = some o → r.finds w.root = .ok files →
      (∃ s, o.Takes before.state files s ∧
        step.check.result = .ok files ∧ step.workspace.log = before.log ++ files) ∨
      ∃ accepted f rest s s' e, files = accepted ++ f :: rest ∧
        o.Takes before.state accepted s ∧ o.offer s f = (.error e, s') ∧
        step.check.result = .error e ∧ step.workspace.log = before.log ++ accepted) ∧
    (r.isSave = false ∨ w.outlet = none ∨ (∀ files, r.finds w.root = .ok files → files = []) →
      step.workspace.log = before.log) ∧
    (r.isSave = false → step.check.result = r.finds w.root) ∧
    (∀ o e, r.isSave = true → w.outlet = some o → r.finds w.root = .error e →
      step.check.result = .error e) ∧
    (r.isSave = true → w.outlet = none →
      step.check.result = .error .noPublisher ∧ step.check.asked = none) ∧
    (∀ e, FilePath.ofUri r.uri = .error e →
      r.finds w.root = .error (.uri e) ∧ step.check.asked = none) ∧
    (∀ file, FilePath.ofUri r.uri = .ok file →
      ((∃ l ∈ (r.invoker file w.root).lines, ¬ Document.Decodes l) →
        ∃ e, r.finds w.root = .error (.line e)) ∧
      ((∀ l ∈ (r.invoker file w.root).lines, Document.Decodes l) →
        ∀ x, (r.invoker file w.root).failure = some x →
          r.finds w.root = if x.isToolUnavailable then .ok [] else .error x)) ∧
    ∀ r' : Request, r'.uri = r.uri → r'.rest? w.root = r.rest? w.root →
      r'.finds w.root = r.finds w.root := by
  intro before step
  obtain ⟨hroot, houtlet⟩ := w.root_after earlier
  refine ⟨after_append_singleton w earlier r, ?_, ?_, ?_, ?_, ?_, ?_, ?_,
    fun r' => Request.finds_congr⟩
  · rw [← hroot, ← houtlet]
    intro o files hsave ho hfiles
    obtain ⟨hresult, hlog⟩ := serve_of_ok hsave ho hfiles
    rcases o.takes_or_refuses before.state files with
      ⟨s, htakes⟩ | ⟨accepted, f, rest, s, s', e, rfl, htakes, hoffer⟩
    · rw [htakes.publishAll_eq] at hresult hlog
      exact .inl ⟨s, htakes, hresult, hlog⟩
    · rw [htakes.publishAll_refused hoffer] at hresult hlog
      exact .inr ⟨accepted, f, rest, s, s', e, rfl, htakes, hoffer, hresult, hlog⟩
  · rw [← hroot, ← houtlet]
    exact log_serve_of_nothing
  · intro hsave
    have hstep : step = _ := serve_of_not_save hsave
    rw [hstep, ← hroot]
    rfl
  · rw [← hroot, ← houtlet]
    intro o e hsave ho he
    have hstep : step = _ := serve_of_error hsave ho he
    rw [hstep]
    exact he
  · rw [← houtlet]
    intro hsave ho
    have hstep : step = _ := serve_of_no_outlet hsave ho
    rw [hstep]
    exact ⟨rfl, rfl⟩
  · intro e he
    exact ⟨(r.diagnose_of_ofUri_error he).1, asked_serve_of_ofUri_error he⟩
  · intro file hfile
    refine ⟨fun hlines => ?_, fun hlines x hx => Invoker.diagnose_of_failure hfile hlines hx⟩
    obtain ⟨_, _, _, e, hlines, hbefore, hline⟩ := Document.exists_first_error hlines
    exact ⟨e, Invoker.diagnose_of_malformed hfile hlines hbefore hline⟩

set_option maxRecDepth 4000 in
/-- A save of two files to a publisher with room for one, after a document that is no file. -/
theorem log_after_append_singleton_full :
    let w : Workspace Publisher :=
      { root := "/w", outlet := some Publisher.outlet, state := { capacity := some 1 } }
    let r : Request := ⟨true, "file:///w/A", fun _ _ => { lines := [
      "\x7b\"type\":\"error\",\"path\":\"./A\",\"title\":\"a\",\"message\":[]\x7d",
      "\x7b\"type\":\"error\",\"path\":\"./B\",\"title\":\"b\",\"message\":[]\x7d"] }⟩
    let earlier : List Request := [⟨true, "untitled:1", fun _ _ => { lines := [] }⟩]
    (w.after earlier).log = [] ∧
      (w.after (earlier ++ [r])).log =
        [⟨"file:///w/A", [⟨⟨⟨0, 0⟩, ⟨0, 0⟩⟩, "a - ", .error, "Elm"⟩]⟩] ∧
      ((w.after earlier).serve r).check.result = .error .publisherFull := by
  intro w r earlier
  have hempty : (w.after earlier).log = [] := rfl
  have hfinds : r.finds w.root =
      .ok [⟨"file:///w/A", [⟨⟨⟨0, 0⟩, ⟨0, 0⟩⟩, "a - ", .error, "Elm"⟩]⟩,
        ⟨"file:///w/B", [⟨⟨⟨0, 0⟩, ⟨0, 0⟩⟩, "b - ", .error, "Elm"⟩]⟩] := rfl
  obtain ⟨hafter, hsave, -⟩ := log_after_append_singleton w earlier r
  rcases hsave _ _ rfl rfl hfinds with
    ⟨s, htakes, -⟩ | ⟨accepted, f, rest, s, s', e, hfiles, htakes, hoffer, hresult, hlog⟩
  · exact nomatch congrArg Publication.outcome htakes.publishAll_eq
  · have hrefused := htakes.publishAll_refused hoffer rest
    rw [← hfiles] at hrefused
    obtain rfl : [_] = accepted := congrArg Publication.accepted hrefused
    obtain rfl : _ = e := Except.error.inj (congrArg Publication.outcome hrefused)
    rw [hempty] at hlog
    exact ⟨hempty, hafter ▸ hlog, hresult⟩

end Workspace

end ElmReport
