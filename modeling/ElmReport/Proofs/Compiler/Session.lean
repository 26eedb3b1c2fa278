import ElmReport.Proofs.Compiler.Framing
import ElmReport.Proofs.Stream.Source

/-!
# The compiler is always waited for

A session is a run of the compiler as whoever takes its lines meets it: each line is read from the
error output when it is asked for, and what has to be done to the process is done when the session
is left. It is left at the end of the output, by a line that is too long, or by being closed.

Whoever takes the lines, the session gives what the stream of the run gives, and in the end the
process was waited for once and last. It was killed before that exactly when the end of the output
was not read.

## Main definitions

* `Session`: what has been done in a run, and where its reading stands.
* `Session.source`: a session as a source of lines.
* `Host.killing`: how a process is killed.
* `Session.IsConsistent`: what has been done so far is what the reading calls for.
* `Session.IsReaped`: the process was waited for, and nothing more is done to it.

## Main results

* `Session.run_eq_run_rest`: a session gives what it has still to give, to every consumer.
* `Session.isConsistent_pull`, `Session.isConsistent_close`: what one step does to the process.
* `Session.reaped_run`: what has been done to the process when a session is left.
-/

namespace ElmReport

open Framing

/-- Where the reading of a run stands: so many lines are read, and a buffer and the chunks after it
are not; or its stream is left. -/
inductive Session.Phase where
  | reading (lines : Nat) (buffer : List UInt8) (chunks : List (List UInt8))
  | left (leaving : LineStream.Leaving)

/-- A run of the compiler: what has been done to its process, what is noted, whether the end of the
error output was read, and where the reading stands. -/
structure Session where
  process : Process
  notes : List Note
  sawEnd : Bool
  phase : Session.Phase

namespace Session

variable (host : Host) (o : CompilerOptions) (file directory : Text)

/-- The run of a process that was just started with an error output. -/
def start (chunks : List (List UInt8)) : Session where
  process := host.spawned o file directory
  notes := [.spawning (o.arguments file) directory]
  sawEnd := false
  phase := .reading 0 [] chunks

/-- Leaves a session at the end of its output: the process is waited for. -/
def finish (s : Session) : Session :=
  let process := s.process.wait host
  { process
    notes := s.notes ++ [.exited o.executable (process.status.getD host.exit)]
    sawEnd := true
    phase := .left .finished }

/-- Leaves a session before the end of its output: the process is killed and waited for. -/
def abandon (leaving : LineStream.Leaving) (s : Session) : Session :=
  { s with
    process := (s.process.terminate host o.useShell).wait host
    notes := s.notes ++ [.killing host.process]
    phase := .left leaving }

/-- Asks for a line. -/
def pull (s : Session) : Pulled × Session :=
  match s.phase with
  | .left _ => (.ended, s)
  | .reading lines buffer chunks =>
    match readLine o.lineLimit buffer chunks with
    | .line bytes buffer' chunks' =>
      (.line (lineText bytes), { s with phase := .reading (lines + 1) buffer' chunks' })
    | .overLimit => (.failed (Host.lineTooLong o lines), s.abandon host o .failed)
    | .atEnd => (.ended, s.finish host o)

/-- Closes a session, unless it is left already. -/
def close (s : Session) : Session :=
  match s.phase with
  | .left _ => s
  | .reading .. => s.abandon host o .closed

/-- A session as a source of lines. -/
def source : Source Session where
  pull := pull host o
  close := close host o
  size s :=
    match s.phase with
    | .left _ => 0
    | .reading _ buffer chunks => size buffer chunks
  size_lt_of_pull {s s' t} h := by
    rcases hphase : s.phase with ⟨lines, buffer, chunks⟩ | leaving
    · simp only [pull, hphase] at h
      split at h
      · next hline =>
        cases h
        exact size_readLine_lt hline
      · exact nomatch h
      · exact nomatch h
    · simp only [pull, hphase] at h
      exact nomatch h

/-! ### What a session gives -/

/-- What a session has still to give. -/
def rest (s : Session) : LineStream.Rest :=
  match s.phase with
  | .left leaving => .left leaving
  | .reading lines buffer chunks =>
    let read := readLines o.lineLimit buffer chunks
    .lines (read.lines.map lineText)
      (if read.overLimit then some (Host.lineTooLong o (lines + read.lines.length)) else none)

/-- A session answers as what it has still to give does. -/
theorem pull_rest (s : Session) :
    LineStream.Rest.source.pull (s.rest o) =
      ((pull host o s).1, (pull host o s).2.rest o) := by
  rcases hphase : s.phase with ⟨lines, buffer, chunks⟩ | leaving
  · rcases hline : readLine o.lineLimit buffer chunks with ⟨bytes, buffer', chunks'⟩ | _ | _
    · simp only [rest, pull, hphase, hline, readLines_of_line hline, List.map_cons,
        List.length_cons, Nat.add_right_comm lines 1, ← Nat.add_assoc]
      rfl
    · simp only [rest, pull, hphase, hline, readLines_of_overLimit hline, abandon]
      rfl
    · simp only [rest, pull, hphase, hline, readLines_of_atEnd hline, finish]
      rfl
  · simp only [rest, pull, hphase]
    rfl

theorem close_rest (s : Session) :
    LineStream.Rest.source.close (s.rest o) = (close host o s).rest o := by
  rcases hphase : s.phase with ⟨lines, buffer, chunks⟩ | leaving
  · simp only [rest, close, hphase, abandon]
    rfl
  · simp only [rest, close, hphase]
    rfl

/-- **A session gives what it has still to give**, to every consumer. -/
theorem run_eq_run_rest {α ρ : Type} (c : Consumer α ρ) (a : α) (s : Session) :
    LineStream.Rest.source.run c a (s.rest o) =
      ⟨((source host o).run c a s).result, ((source host o).run c a s).taken,
        ((source host o).run c a s).state.rest o⟩ :=
  Source.run_map (rest o) (pull_rest host o) (close_rest host o) c a s

/-- A session that was just started gives what the stream of its run gives. -/
theorem rest_start {chunks : List (List UInt8)} (hlaunch : host.launch = .started (some chunks)) :
    (start host o file directory chunks).rest o = (host.stream o file directory).rest := by
  simp only [rest, start, LineStream.rest, Host.stream, hlaunch, Nat.zero_add]

end Session

/-! ### What is done to the process -/

namespace Host

variable {host : Host} {o : CompilerOptions} {file directory : Text} {chunks : List (List UInt8)}

/-- How a process is killed: with its group, or alone unless its status is known, and then with what
a shell has started for it. -/
def killing (host : Host) (o : CompilerOptions) : List ProcessEvent :=
  if host.hasGroups then [.killGroup Process.killSignal]
  else
    (if host.knownStatus.isNone then [.kill] else []) ++
      if o.useShell then [.killTree host.process, .waitForKiller] else []

theorem wait_not_mem_killing (host : Host) (o : CompilerOptions) : .wait ∉ host.killing o := by
  rw [killing]
  split_ifs <;> simp

/-- Killing a process does what kills it, whether or not the process is gone already. -/
theorem events_terminate {p : Process} (hstatus : p.status = host.knownStatus) :
    (p.terminate host o.useShell).events = p.events ++ host.killing o := by
  rw [Process.terminate, killing, hstatus]
  split_ifs
  · exact Process.suppress_eq host _ p
  all_goals simp [Process.perform, Process.suppress_eq]

theorem run_of_started (hlaunch : host.launch = .started (some chunks))
    (leaving : LineStream.Leaving) : host.run o file directory leaving =
      if leaving = .finished then (host.spawned o file directory).wait host
      else ((host.spawned o file directory).terminate host o.useShell).wait host := by
  cases leaving <;> simp [run, hlaunch]

/-- What is done in a run: the process is started, killed unless the stream came to its end, and
waited for. -/
theorem events_of_started (hlaunch : host.launch = .started (some chunks))
    (leaving : LineStream.Leaving) : host.events o file directory leaving =
      .spawn (command o file) directory o.lineLimit host.hasGroups ::
        ((if leaving = .finished then [] else host.killing o) ++ [.wait]) := by
  rw [events, run_of_started hlaunch]
  split_ifs
  · rfl
  · simp [Process.wait, Process.perform, events_terminate, spawned]

theorem closingNotes_of_started (hlaunch : host.launch = .started (some chunks))
    (leaving : LineStream.Leaving) : host.closingNotes o file directory leaving =
      if leaving = .finished then
        [.exited o.executable ((host.run o file directory leaving).status.getD host.exit)]
      else [.killing host.process] := by
  cases leaving <;> simp [closingNotes, hlaunch]

end Host

namespace Session

variable {host : Host} {o : CompilerOptions} {file directory : Text} {chunks : List (List UInt8)}

/-- What has been done so far is what the reading calls for: while it goes on, the process was
started and nothing else; when the session is left, what is done in a run that is left so. -/
structure IsConsistent (host : Host) (o : CompilerOptions) (file directory : Text) (s : Session) :
    Prop where
  process_eq : s.process =
    match s.phase with
    | .reading .. => host.spawned o file directory
    | .left leaving => host.run o file directory leaving
  notes_eq : s.notes = .spawning (o.arguments file) directory ::
    match s.phase with
    | .reading .. => []
    | .left leaving => host.closingNotes o file directory leaving
  sawEnd_iff : s.sawEnd = true ↔ s.phase = .left .finished

theorem isConsistent_start (chunks : List (List UInt8)) :
    (start host o file directory chunks).IsConsistent host o file directory :=
  ⟨rfl, rfl, by simp [start]⟩

variable {s : Session} {lines : Nat} {buffer : List UInt8} {unread : List (List UInt8)}

theorem IsConsistent.finish (hlaunch : host.launch = .started (some chunks))
    (h : s.IsConsistent host o file directory) (hphase : s.phase = .reading lines buffer unread) :
    (s.finish host o).IsConsistent host o file directory := by
  obtain ⟨hprocess, hnotes, -⟩ := h
  simp only [hphase] at hprocess hnotes
  have hrun : host.run o file directory .finished = s.process.wait host := by
    rw [Host.run_of_started hlaunch, if_pos rfl, hprocess]
  refine ⟨hrun.symm, ?_, by simp [Session.finish]⟩
  simp only [Session.finish, hnotes, Host.closingNotes_of_started hlaunch, hrun, if_pos]
  rfl

theorem IsConsistent.abandon (hlaunch : host.launch = .started (some chunks))
    (h : s.IsConsistent host o file directory) (hphase : s.phase = .reading lines buffer unread)
    {leaving : LineStream.Leaving} (hleaving : leaving ≠ .finished) :
    (s.abandon host o leaving).IsConsistent host o file directory := by
  obtain ⟨hprocess, hnotes, hend⟩ := h
  simp only [hphase] at hprocess hnotes
  refine ⟨?_, ?_, ?_⟩
  · simp only [Session.abandon, hprocess, Host.run_of_started hlaunch, if_neg hleaving]
  · simp only [Session.abandon, hnotes, Host.closingNotes_of_started hlaunch, if_neg hleaving]
    rfl
  · simp only [Session.abandon, hend, hphase, Phase.left.injEq, hleaving, reduceCtorEq]

/-- Asking for a line does to the process what the answer calls for. -/
theorem isConsistent_pull (hlaunch : host.launch = .started (some chunks))
    (h : s.IsConsistent host o file directory) :
    (pull host o s).2.IsConsistent host o file directory := by
  rcases hphase : s.phase with ⟨lines, buffer, unread⟩ | leaving
  · simp only [pull, hphase]
    split
    · obtain ⟨hprocess, hnotes, hend⟩ := h
      simp only [hphase] at hprocess hnotes hend
      exact ⟨hprocess, hnotes, by simpa using hend⟩
    · exact h.abandon hlaunch hphase nofun
    · exact h.finish hlaunch hphase
  · simpa only [pull, hphase] using h

/-- A session that is closed is left, and what is done then is what leaving it calls for. -/
theorem isConsistent_close (hlaunch : host.launch = .started (some chunks))
    (h : s.IsConsistent host o file directory) :
    (close host o s).IsConsistent host o file directory ∧
      ∃ leaving, (close host o s).phase = .left leaving := by
  rcases hphase : s.phase with ⟨lines, buffer, unread⟩ | leaving
  · simp only [close, hphase]
    exact ⟨h.abandon hlaunch hphase nofun, .closed, rfl⟩
  · simp only [close, hphase]
    exact ⟨h, leaving, rfl⟩

/-- The session is over: its process was waited for once and last. It was killed before that unless
the end of its output was read. Asking for lines and closing do nothing any more. -/
structure IsReaped (host : Host) (o : CompilerOptions) (file directory : Text) (s : Session) :
    Prop where
  count_wait : s.process.events.count .wait = 1
  events_eq : s.process.events =
    .spawn (Host.command o file) directory o.lineLimit host.hasGroups ::
      ((if s.sawEnd then [] else host.killing o) ++ [.wait])
  notes_eq : s.notes = .spawning (o.arguments file) directory ::
    if s.sawEnd then [.exited o.executable (s.process.status.getD host.exit)]
    else [.killing host.process]
  pull_eq : pull host o s = (.ended, s)
  close_eq : close host o s = s

theorem IsConsistent.isReaped (hlaunch : host.launch = .started (some chunks))
    (h : s.IsConsistent host o file directory) {leaving : LineStream.Leaving}
    (hphase : s.phase = .left leaving) : s.IsReaped host o file directory := by
  obtain ⟨hprocess, hnotes, hend⟩ := h
  simp only [hphase] at hprocess hnotes hend
  have hsaw : (s.sawEnd = true) = (leaving = .finished) := by
    rw [hend, Phase.left.injEq]
  have hevents : s.process.events =
      .spawn (Host.command o file) directory o.lineLimit host.hasGroups ::
        ((if leaving = .finished then [] else host.killing o) ++ [.wait]) := by
    rw [hprocess]
    exact Host.events_of_started hlaunch leaving
  refine ⟨?_, ?_, ?_, ?_, ?_⟩
  · rw [hevents]
    split_ifs <;> simp [List.count_eq_zero.2 (host.wait_not_mem_killing o)]
  · simp only [hevents, hsaw]
  · simp only [hnotes, Host.closingNotes_of_started hlaunch, hsaw, hprocess]
  · simp only [pull, hphase]
  · simp only [close, hphase]

/-- Whoever takes the lines of a started run gets what the lines as such give, and leaves the run
as he leaves them. -/
theorem run_start (hlaunch : host.launch = .started (some chunks)) (o : CompilerOptions)
    (file directory : Text) {α ρ : Type} (c : Consumer α ρ) (a : α) :
    let out := (source host o).run c a (start host o file directory chunks)
    out.state.IsReaped host o file directory ∧
      ∃ leaving, LineStream.Rest.source.run c a (host.stream o file directory).rest =
          ⟨out.result, out.taken, .left leaving⟩ ∧
        (out.state.sawEnd = true ↔ leaving = .finished) ∧
        out.state.process.events = host.events o file directory leaving := by
  intro out
  -- Every answer keeps the run consistent, and closing it in the end leaves it.
  have hclose (s : Session) : s.IsConsistent host o file directory →
      ((source host o).close s).IsConsistent host o file directory ∧
        ∃ leaving, ((source host o).close s).phase = .left leaving := isConsistent_close hlaunch
  obtain ⟨hconsistent, leaving, hphase⟩ :
      out.state.IsConsistent host o file directory ∧ ∃ leaving, out.state.phase = .left leaving :=
    Source.state_run
      (Q := fun s => s.IsConsistent host o file directory ∧ ∃ leaving, s.phase = .left leaving)
      (fun _ => isConsistent_pull hlaunch) hclose c a (isConsistent_start chunks)
  have hrest : out.state.rest o = .left leaving := by simp only [rest, hphase]
  have hprocess := hconsistent.process_eq
  rw [hphase] at hprocess
  refine ⟨hconsistent.isReaped hlaunch hphase, leaving, ?_, ?_, congrArg Process.events hprocess⟩
  · rw [← rest_start host o file directory hlaunch, run_eq_run_rest host o, hrest]
  · rw [hconsistent.sawEnd_iff, hphase, Phase.left.injEq]

/-- A started run that is closed before a line is asked for. -/
theorem close_start (hlaunch : host.launch = .started (some chunks)) (o : CompilerOptions)
    (file directory : Text) :
    (close host o (start host o file directory chunks)).IsReaped host o file directory ∧
      (close host o (start host o file directory chunks)).process.events =
        host.events o file directory .closed := by
  have hstart : (start host o file directory chunks).IsConsistent host o file directory :=
    isConsistent_start chunks
  obtain ⟨hconsistent, -⟩ := isConsistent_close hlaunch hstart
  exact ⟨hconsistent.isReaped hlaunch rfl, congrArg Process.events hconsistent.process_eq⟩

/-- **The compiler is always waited for, and killed only when it is abandoned.** Whoever takes the
lines of a started run, whichever way, gets what the lines as such give, and in the end the process
was waited for once and last. It was killed before that exactly when the end of its output was not
read, because the stream failed or was closed. The collection of lines, the check of a file and the
diagnostics of a document are among those who take lines. -/
theorem reaped_run (hlaunch : host.launch = .started (some chunks)) (file directory : Text) :
    (∀ {α ρ : Type} (c : Consumer α ρ) (a : α),
      let out := (source host o).run c a (start host o file directory chunks)
      let plain := LineStream.Rest.source.run c a (host.stream o file directory).rest
      out.result = plain.result ∧ out.taken = plain.taken ∧
        out.state.IsReaped host o file directory ∧
        ∃ leaving, plain.state = .left leaving ∧ (out.state.sawEnd = true ↔ leaving = .finished) ∧
          out.state.process.events = host.events o file directory leaving) ∧
    (∀ bound : Option Nat, bound ≠ some 0 →
      let collected := (host.stream o file directory).collect bound
      let out := (source host o).run (Consumer.collector bound) []
        (start host o file directory chunks)
      out.result = (collected.lines, collected.failure) ∧
        out.state.process.events = host.events o file directory collected.leaving) ∧
    (let collected := (host.stream o file directory).collect (some 0)
      let out := close host o (start host o file directory chunks)
      (collected.lines, collected.failure) = ([], none) ∧ out.IsReaped host o file directory ∧
        out.sawEnd = false ∧
        out.process.events = host.events o file directory collected.leaving) ∧
    (let check := Invoker.checkFile (host.stream o) directory file
      let out := (source host o).run Consumer.checker { fallback := some file }
        (start host o file directory chunks)
      out.result = check.result ∧
        (∃ leaving, check.leaving = some leaving ∧
          out.state.process.events = host.events o file directory leaving) ∧
        ∀ uri, FilePath.ofUri uri = .ok file →
          (Invoker.diagnose (host.stream o) directory uri).leaving = check.leaving ∧
            (Invoker.diagnose (host.stream o) directory uri).result =
              out.result.bind fun issues =>
                (FileDiagnostics.ofIssues directory issues).mapError .loneSurrogates) := by
  refine ⟨fun c a => ?_, fun bound hbound => ?_, ?_, ?_⟩
  · obtain ⟨hreaped, leaving, hplain, hend, hevents⟩ := run_start hlaunch o file directory c a
    intro out plain
    simp only [plain, hplain]
    exact ⟨rfl, rfl, hreaped, leaving, rfl, hend, hevents⟩
  · obtain ⟨-, leaving, hplain, -, hevents⟩ :=
      run_start hlaunch o file directory (Consumer.collector bound) []
    rw [LineStream.collect_eq_run hbound] at hplain
    obtain ⟨hresult, -, hleaving⟩ := Consumed.mk.inj hplain
    obtain rfl := LineStream.Rest.left.inj hleaving
    exact ⟨hresult.symm, hevents⟩
  · obtain ⟨hreaped, hevents⟩ := close_start hlaunch o file directory
    rw [LineStream.collect_of_le (Nat.zero_le _)]
    exact ⟨rfl, hreaped, rfl, hevents⟩
  · obtain ⟨-, leaving, hplain, -, hevents⟩ :=
      run_start hlaunch o file directory Consumer.checker { fallback := some file }
    obtain ⟨leaving', hcheck, hloop⟩ := (host.stream o file directory).check_eq_run file
    rw [hloop] at hplain
    obtain ⟨hresult, -, hleaving⟩ := Consumed.mk.inj hplain
    obtain rfl := LineStream.Rest.left.inj hleaving
    refine ⟨hresult.symm, ⟨leaving', hcheck, hevents⟩, fun uri huri => ?_⟩
    simp only [Invoker.diagnose, huri, CheckRun.bind, Invoker.checkFile, hresult, true_and]

/-- A run behind a shell, without groups of processes, that is closed after its first line. The
process is gone when it is killed. -/
theorem reaped_run_closed :
    let host : Host :=
      { hasGroups := false, launch := .started (some [[0x31, 0x0A, 0x32]]), process := 7,
        gone := true }
    let o : CompilerOptions := { useShell := true }
    let out := (source host o).run (Consumer.collector (some 1)) []
      (start host o "A" "/w" [[0x31, 0x0A, 0x32]])
    out.result = ([("1" : Text)], none) ∧
      out.state.process.events =
        [.spawn (.line "elm make \"A\" --report json --output /dev/null") "/w" defaultLineLimit
            false, .kill, .killTree 7, .waitForKiller, .wait] := by
  intro host o out
  have hlaunch : host.launch = .started (some [[0x31, 0x0A, 0x32]]) := rfl
  have hlines : (host.stream o "A" "/w").lines = [("1" : Text), ("2" : Text)] :=
    (Host.stream_of_started (by decide) hlaunch "A" "/w").1
  obtain ⟨hresult, hevents⟩ := (reaped_run (o := o) hlaunch "A" "/w").2.1 (some 1) nofun
  have hlong : 1 ≤ (host.stream o "A" "/w").lines.length := by simp [hlines]
  rw [LineStream.collect_of_le hlong] at hresult hevents
  rw [hlines] at hresult
  exact ⟨hresult, hevents⟩

end Session

end ElmReport
