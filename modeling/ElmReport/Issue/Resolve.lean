import ElmReport.Issue.Basic

/-!
# Paths below a workspace

The compiler names files relative to the workspace by a dot in front. Such a dot is replaced by the
root of the workspace, whatever follows it; every other path is kept.

## Main definitions

* `resolvePath`: the path of a file below a root.
* `Issue.resolve`: an issue with the path of its file.

## Main results

* `resolvePath_dot`: the root stands for the dot.
* `resolvePath_of_no_dot`: a path without a dot in front is kept.
* `Issue.resolve_eq_self_iff`: an issue is kept exactly when its path is.
-/

namespace ElmReport

/-- The path of a file below a root. -/
def resolvePath (root : Text) : Text → Text
  | .scalar '.' :: rest => root ++ rest
  | path => path

/-- The root stands for the dot. -/
@[simp] theorem resolvePath_dot (root rest : Text) :
    resolvePath root (.scalar '.' :: rest) = root ++ rest := rfl

/-- A path without a dot in front is kept. -/
theorem resolvePath_of_no_dot {root path : Text} (h : path.head? ≠ some (.scalar '.')) :
    resolvePath root path = path := by
  rw [resolvePath]
  rintro rest rfl
  simp at h

/-- An issue with the path of its file below a root. -/
def Issue.resolve (root : Text) (i : Issue) : Issue := { i with file := resolvePath root i.file }

/-- An issue is kept exactly when its path is. -/
theorem Issue.resolve_eq_self_iff {root : Text} {i : Issue} :
    i.resolve root = i ↔ resolvePath root i.file = i.file := by
  cases i
  simp [Issue.resolve]

end ElmReport
