import ElmReport.Diagnostic.Basic
import ElmReport.FileUri.Basic
import ElmReport.Issue.Resolve

/-!
# Diagnostics by file

Issues are grouped by their file. The groups stand in the order in which their files first occur,
and the issues of a group in the order of the issues.

## Main definitions

* `Issues.group`: issues by file.
* `FileDiagnostics`: the diagnostics of a file with its URI.
* `FileDiagnostics.ofIssues`: the diagnostics of issues, by file.

## Main results

* `Issues.group_append_singleton`: one more issue goes to the end of its group.
-/

namespace ElmReport

namespace Issues

/-- Puts an issue at the end of the group of its file, which is made at the end when there is none
yet. -/
def add (i : Issue) : List (Text × List Issue) → List (Text × List Issue)
  | [] => [(i.file, [i])]
  | g :: gs => if g.1 = i.file then (g.1, g.2 ++ [i]) :: gs else g :: add i gs

/-- Issues by file, the files in the order of their first occurrence. -/
def group (issues : List Issue) : List (Text × List Issue) :=
  issues.foldl (fun gs i => add i gs) []

@[simp] theorem group_nil : group [] = [] := rfl

/-- One more issue goes to the end of its group. -/
theorem group_append_singleton (issues : List Issue) (i : Issue) :
    group (issues ++ [i]) = add i (group issues) := by
  simp [group]

end Issues

/-- The diagnostics of a file with its URI. -/
structure FileDiagnostics where
  uri : Text
  diagnostics : List Diagnostic
  deriving DecidableEq, Repr

namespace FileDiagnostics

/-- Whether a diagnostic of the file is an error. -/
def hasErrors (f : FileDiagnostics) : Bool := ElmReport.hasErrors f.diagnostics

/-- The diagnostics of a group of issues. -/
def ofGroup (g : Text × List Issue) : Except LoneSurrogates FileDiagnostics := do
  return ⟨← FilePath.toUri g.1, g.2.map Issue.diagnostic⟩

/-- The diagnostics of issues by file, the paths taken below a root. -/
def ofIssues (root : Text) (issues : List Issue) :
    Except LoneSurrogates (List FileDiagnostics) :=
  (Issues.group (issues.map (Issue.resolve root))).mapM ofGroup

/-- The diagnostics of a file as an object. -/
def toJson (f : FileDiagnostics) : Json :=
  .object [("uri", .string f.uri), ("diagnostics", .list (f.diagnostics.map Diagnostic.toJson))]

end FileDiagnostics

end ElmReport
