import ElmReport.Batch.Run
import ElmReport.Compiler.Process
import ElmReport.Proofs.Stream.Check

/-!
# Runs that never get to their lines

A run gets to its lines only when a process is started and has an error output. Otherwise the check
finds nothing, and after the start nothing is done to a process, not even to one that was started
without an error output. So it is with every run under a limit for lines that is not positive.

A call without an executable comes to the same as the call with it, but for the wording of its
failure. A command that cannot be put into the words of the system fails both in the same way.

## Main results

* `Host.check_of_no_output`: a check without an error output.
* `Host.Respects.check_of_limit`: a check under a limit that is not positive.
* `LineStream.check_unnamed`: a check without an executable.
* `Batch.Compiler.result_checkFile_of_failed`: a check by a command that cannot be handed over.
-/

namespace ElmReport

namespace Host

/-! ### Runs without an error output -/

section NoOutput

variable {host : Host} {o : CompilerOptions}
  (h : ∀ chunks, host.launch ≠ .started (some chunks))

include h

theorem stream_of_no_output (file directory : Text) :
    (host.stream o file directory).lines = [] ∧
      ∃ x, (host.stream o file directory).failure = some x := by
  rcases hlaunch : host.launch with e | words | (_ | chunks)
  · simp [stream, hlaunch]
  · simp [stream, hlaunch]
  · simp [stream, hlaunch]
  · exact absurd hlaunch (h chunks)

theorem events_of_no_output (file directory : Text) (leaving : LineStream.Leaving) :
    host.events o file directory leaving =
      [.spawn (command o file) directory o.lineLimit host.hasGroups] := by
  rcases hlaunch : host.launch with e | words | (_ | chunks)
  · simp only [events, run, hlaunch, spawned]
  · simp only [events, run, hlaunch, spawned]
  · simp only [events, run, hlaunch, spawned]
  · exact absurd hlaunch (h chunks)

/-- A check without an error output takes no line and finds nothing. It comes to the failure of the
launch, unless there is no compiler. However the stream is left, nothing is done after the start: a
process that was started is neither killed nor waited for. -/
theorem check_of_no_output (root file : Text) :
    let check := Invoker.checkFile (host.stream o) root file
    (∃ x, (host.stream o file root).failure = some x ∧
      check.result = if x.isToolUnavailable then .ok [] else .error x) ∧
      check.taken = 0 ∧
      ∀ leaving, host.events o file root leaving =
        [.spawn (command o file) root o.lineLimit host.hasGroups] := by
  intro check
  obtain ⟨hlines, x, hx⟩ := stream_of_no_output (o := o) h file root
  have hnone : ∀ line ∈ (host.stream o file root).lines, Document.Decodes line := by
    rw [hlines]
    exact nofun
  obtain ⟨htaken, hleft⟩ := (host.stream o file root).check_of_decodes file hnone
  rw [hx] at hleft
  rw [hlines] at htaken
  exact ⟨⟨x, hx, (Prod.mk.inj hleft).1⟩, htaken, events_of_no_output h file root⟩

end NoOutput

/-- Under a limit for lines that is not positive no check finds anything, and a process that is
started is neither killed nor waited for. -/
theorem Respects.check_of_limit {host : Host} {o : CompilerOptions} (h : host.Respects o)
    (hlimit : ¬ o.AllowsOutput) (root file : Text) :
    (∀ issues, (Invoker.checkFile (host.stream o) root file).result = .ok issues → issues = []) ∧
      ∀ leaving, host.events o file root leaving =
        [.spawn (command o file) root o.lineLimit host.hasGroups] := by
  have hnone (chunks : List (List UInt8)) : host.launch ≠ .started (some chunks) :=
    fun hlaunch => hlimit (h chunks hlaunch)
  obtain ⟨⟨x, -, hresult⟩, -, hevents⟩ := check_of_no_output hnone root file
  refine ⟨fun issues hissues => ?_, hevents⟩
  rw [hresult] at hissues
  split at hissues
  · exact (Except.ok.inj hissues).symm
  · cases hissues

end Host

/-! ### Calls without an executable -/

/-- A check without an executable takes the same lines as the check with it, leaves their stream in
the same way, and comes to the same but for the wording of its failure. -/
theorem LineStream.check_unnamed (s : LineStream) (file : Text) :
    (s.unnamed.check file).result = (s.check file).result.mapError Failure.unnamed ∧
      (s.unnamed.check file).taken = (s.check file).taken ∧
      (s.unnamed.check file).leaving = (s.check file).leaving := by
  rcases herror : (IssueFeed.takeAll { fallback := some file } s.lines).error with _ | e
  · rcases hfailure : s.failure with _ | x
    · simp [check, unnamed, herror, hfailure, Except.mapError]
    · by_cases hx : x.isToolUnavailable
      · simp [check, unnamed, herror, hfailure, hx, Except.mapError]
      · simp [check, unnamed, herror, hfailure, hx, Except.mapError]
  · simp [check, herror, Except.mapError, Failure.unnamed]

/-- A command that cannot be put into the words of the system fails a check by the words of whoever
says so, whether or not its executable is left out. -/
theorem Batch.Compiler.result_checkFile_of_failed {c : Compiler} {host : Host} {words : Text}
    (hnamed : c.named = host.stream c.options) (hlaunch : host.launch = .failed words)
    (root file : Text) : (c.invoker.checkFile root file).result = .error (.foreign words) := by
  have hnone (chunks : List (List UInt8)) : host.launch ≠ .started (some chunks) := by
    rw [hlaunch]
    exact nofun
  obtain ⟨⟨x, hx, hresult⟩, -⟩ := Host.check_of_no_output (o := c.options) hnone root file
  have hwords : x = .foreign words := by
    simpa [Host.stream, hlaunch, eq_comm] using hx
  subst hwords
  rw [Invoker.checkFile] at hresult ⊢
  rw [invoker, hnamed]
  split
  · rw [((host.stream c.options file root).check_unnamed file).1, hresult]
    rfl
  · exact hresult

end ElmReport
