import ElmReport.Diagnostic.Group
import ElmReport.Issue.Feed
import ElmReport.LineStream

/-!
# Checks

A check feeds the lines that an invoker hands out for a file. The first line that fails ends it and
closes the stream. A compiler that is not there means that nothing is found; every other failure of
the stream is the failure of the check, and then nothing that was found before counts. The
diagnostics of a saved document are those of the issues that its check finds.

## Main definitions

* `Invoker`: who hands out the lines for a file in a directory.
* `CheckRun`: what a check comes to, and what it did with the invoker.
* `LineStream.check`: the check of the lines of a stream.
* `Invoker.checkFile`: the check of a file.
* `Invoker.diagnose`: the diagnostics of a document.

## Main results

* `LineStream.check_of_error`: a line that fails decides the check.
* `Invoker.result_diagnose`: the diagnostics of a document are those of the issues of its lines.
* `Invoker.diagnose_of_badUri`: a document without a file is not checked.
-/

namespace ElmReport

/-- Who hands out the lines for a file in a directory. -/
abbrev Invoker := Text → Text → LineStream

/-- What a check comes to, the number of lines it took, how it left their stream if it was given
one, the file it asked the invoker for, and its notes. -/
structure CheckRun (α : Type) where
  result : Except Failure α
  asked : Option Text := none
  taken : Nat := 0
  leaving : Option LineStream.Leaving := none
  notes : List Note := []

/-- The same check with something else made of what it finds. -/
def CheckRun.bind {α β : Type} (c : CheckRun α) (f : α → Except Failure β) : CheckRun β :=
  { c with result := c.result.bind f }

/-- The check of the lines of a stream, whose problems without a file belong to `file`. -/
def LineStream.check (s : LineStream) (file : Text) : CheckRun (List Issue) :=
  let run := IssueFeed.takeAll { fallback := some file } s.lines
  let taken := run.feed.linesSeen
  match run.error with
  | some e =>
    { result := .error (.line e), taken, leaving := some .closed
      notes := s.opening ++ run.notes ++ s.closing .closed }
  | none =>
    let notes := s.opening ++ run.notes ++ s.closing s.leavingAtEnd
    match s.failure with
    | none =>
      { result := .ok run.feed.issues, taken, leaving := some .finished
        notes := notes ++ [.parsed run.feed.issues.length taken] }
    | some e =>
      if e.isToolUnavailable then
        { result := .ok [], taken, leaving := some .failed, notes := notes ++ [.notAvailable] }
      else { result := .error e, taken, leaving := some .failed, notes }

/-- A line that fails decides the check, whatever comes after it. -/
theorem LineStream.check_of_error {s : LineStream} {file : Text} {e : LineError}
    (h : (IssueFeed.takeAll { fallback := some file } s.lines).error = some e) :
    (s.check file).result = .error (.line e) ∧ (s.check file).leaving = some .closed := by
  simp [LineStream.check, h]

namespace Invoker

/-- The check of a file below a root. -/
def checkFile (invoker : Invoker) (root file : Text) : CheckRun (List Issue) :=
  { (invoker file root).check file with asked := some file }

/-- The diagnostics of a document below a root. -/
def diagnose (invoker : Invoker) (root uri : Text) : CheckRun (List FileDiagnostics) :=
  match FilePath.ofUri uri with
  | .error e => { result := .error (.uri e) }
  | .ok file =>
    (invoker.checkFile root file).bind fun issues =>
      (FileDiagnostics.ofIssues root issues).mapError .loneSurrogates

/-- The diagnostics of a document are those of the issues of its lines. -/
theorem result_diagnose {uri file : Text} (h : FilePath.ofUri uri = .ok file) (invoker : Invoker)
    (root : Text) :
    (invoker.diagnose root uri).result =
      ((invoker file root).check file).result.bind fun issues =>
        (FileDiagnostics.ofIssues root issues).mapError .loneSurrogates := by
  simp only [diagnose, h, CheckRun.bind, checkFile]

/-- A document without a file is not checked. -/
theorem diagnose_of_badUri {uri : Text} {e : UriError} (h : FilePath.ofUri uri = .error e)
    (invoker : Invoker) (root : Text) : (invoker.diagnose root uri).asked = none := by
  simp [diagnose, h]

end Invoker

end ElmReport
