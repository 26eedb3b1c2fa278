import ElmReport.Report.Basic

/-!
# Issues

A report falls apart into issues, one for each problem, in the order of the document. A problem of
the project without a file belongs to the file that was checked.

## Main definitions

* `Issue`: a problem with its file and its text.
* `Report.issues`: the issues of a report.

## Main results

* `Report.issues_compileErrors_cons`: the issues of a file come before those of the files after it.
* `Report.issues_projectError`: a problem of the project is one issue.
-/

namespace ElmReport

/-- A problem that the compiler reports, before an editor shows it. -/
structure Issue where
  file : Text
  region : Region
  overview : Text
  details : Text
  tag : Text := "error"
  severity : Text := "error"
  subregion : Text := []
  deriving DecidableEq, Repr

/-- The issue of a problem of a file. -/
def Problem.issue (file : Text) (p : Problem) : Issue :=
  { file, region := p.region, overview := p.title, details := Fragment.render p.message }

/-- The issues of a file. -/
def FileErrors.issues (f : FileErrors) : List Issue := f.problems.map (Problem.issue f.path)

/-- The issue of a problem of the project, which belongs to `fallback` when it names no file, and
to the start of the file when it names no region. -/
def ProjectError.issue (fallback : Option Text) (e : ProjectError) : Issue :=
  { file := e.path.getD (fallback.getD [])
    region := e.region.getD Region.fileStart
    overview := e.title
    details := Fragment.render e.message }

/-- The issues of a report, in the order of the document. -/
def Report.issues (fallback : Option Text) : Report → List Issue
  | .compileErrors files => files.flatMap FileErrors.issues
  | .projectError e => [e.issue fallback]

namespace Report

@[simp] theorem issues_compileErrors_nil (fallback : Option Text) :
    issues fallback (.compileErrors []) = [] := rfl

/-- The issues of a file come before those of the files after it. -/
@[simp] theorem issues_compileErrors_cons (fallback : Option Text) (f : FileErrors)
    (files : List FileErrors) :
    issues fallback (.compileErrors (f :: files)) =
      f.issues ++ issues fallback (.compileErrors files) := rfl

/-- A problem of the project is one issue. -/
@[simp] theorem issues_projectError (fallback : Option Text) (e : ProjectError) :
    issues fallback (.projectError e) = [e.issue fallback] := rfl

end Report

end ElmReport
