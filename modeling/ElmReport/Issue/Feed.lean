import ElmReport.Issue.Basic
import ElmReport.Note
import ElmReport.Report.Line

/-!
# Feeds of report lines

A feed takes the lines of a report one by one, numbers them and gathers their issues. A line that
fails is counted, leaves the issues as they are and does not end the feed.

## Main definitions

* `Document.notes`: what is noted about a document.
* `IssueFeed`: the issues gathered so far and the number of lines seen.
* `IssueFeed.take`: the feed after a line, and what the line gave.
* `IssueFeed.takeAll`: the feed after the lines up to the first that fails.
* `issuesOfLines`: the issues of some lines.

## Main results

* `IssueFeed.linesSeen_take`: every line is counted.
* `IssueFeed.issues_take_of_error`: a line that fails leaves the issues as they are.
* `IssueFeed.issues_take_of_ok`: the issues of a line go to the end.
-/

namespace ElmReport

/-- What is noted about a document: its form when it is unknown. -/
def Document.notes : Document → List Note
  | .otherForm kind => [.otherForm kind]
  | _ => []

/-- The issues of a document; only a report has any. -/
def Document.issues (fallback : Option Text) (d : Document) : List Issue :=
  (d.report?.map (Report.issues fallback)).getD []

/-- The issues gathered so far, the number of lines seen, and the file that problems without a file
belong to. -/
structure IssueFeed where
  fallback : Option Text
  issues : List Issue := []
  linesSeen : Nat := 0

namespace IssueFeed

/-- What a line gives: the feed after it, its issues or its error, and its notes. -/
structure Step where
  feed : IssueFeed
  outcome : Except LineError (List Issue)
  notes : List Note

/-- Takes a line. -/
def take (f : IssueFeed) (line : Text) : Step :=
  let counted := { f with linesSeen := f.linesSeen + 1 }
  match Document.ofLine (f.linesSeen + 1) line with
  | .error e => ⟨counted, .error e, []⟩
  | .ok d =>
    let new := d.issues f.fallback
    ⟨{ counted with issues := f.issues ++ new }, .ok new, d.notes⟩

/-- Every line is counted. -/
@[simp] theorem linesSeen_take (f : IssueFeed) (line : Text) :
    (f.take line).feed.linesSeen = f.linesSeen + 1 := by
  simp only [take]
  split <;> rfl

@[simp] theorem fallback_take (f : IssueFeed) (line : Text) :
    (f.take line).feed.fallback = f.fallback := by
  simp only [take]
  split <;> rfl

/-- A line that fails leaves the issues as they are. -/
theorem issues_take_of_error {f : IssueFeed} {line : Text} {e : LineError}
    (h : (f.take line).outcome = .error e) : (f.take line).feed.issues = f.issues := by
  simp only [take] at h ⊢
  split at h
  · rfl
  · cases h

/-- The issues of a line go to the end. -/
theorem issues_take_of_ok {f : IssueFeed} {line : Text} {new : List Issue}
    (h : (f.take line).outcome = .ok new) : (f.take line).feed.issues = f.issues ++ new := by
  simp only [take] at h ⊢
  split at h
  · cases h
  · cases h
    rfl

/-- What some lines give: the feed after the last line taken, the first error, and the notes. -/
structure Run where
  feed : IssueFeed
  error : Option LineError
  notes : List Note

/-- Takes lines up to the first that fails. -/
def takeAll (f : IssueFeed) : List Text → Run
  | [] => ⟨f, none, []⟩
  | line :: lines =>
    let step := f.take line
    match step.outcome with
    | .error e => ⟨step.feed, some e, step.notes⟩
    | .ok _ =>
      let run := step.feed.takeAll lines
      { run with notes := step.notes ++ run.notes }

@[simp] theorem takeAll_nil (f : IssueFeed) : f.takeAll [] = ⟨f, none, []⟩ := rfl

end IssueFeed

/-- The issues of some lines, or the error of the first that fails. -/
def issuesOfLines (fallback : Option Text) (lines : List Text) : Except LineError (List Issue) :=
  let run := IssueFeed.takeAll { fallback } lines
  match run.error with
  | some e => .error e
  | none => .ok run.feed.issues

end ElmReport
