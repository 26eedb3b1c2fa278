import ElmReport.Check
import ElmReport.Proofs.Diagnostic.Grouping
import ElmReport.Proofs.Issue.Feed

/-!
# From reports to diagnostics

Between the documents of a report and the diagnostics of a saved document problems are numbered,
resolved, grouped and reworded. What comes out is laid down here without these stages, by what each
document finds and where it is shown.

## Main definitions

* `Finding`: a problem that a document reports, with the file that it belongs to.
* `Document.findings`: what a document finds, in its order.
* `Finding.diagnostic`: how a problem is shown.
* `Findings.paths`, `Findings.within`: the files that problems are shown in, and the problems of
  one.

## Main results

* `Invoker.diagnose_eq_ok_iff_findings`: every problem is shown once, in its file and in order.
-/

namespace ElmReport

/-- A problem that a document reports: the file it belongs to, as the document names it, where it
is if that is told, its title, and the pieces of its message. -/
structure Finding where
  path : Text
  region : Option Region
  title : Text
  pieces : List Text

/-- What a report finds, file by file. A problem of the project without a file belongs to `file`. -/
def Report.findings (file : Text) : Report → List Finding
  | .compileErrors entries =>
    entries.flatMap fun entry =>
      entry.problems.map fun p => ⟨entry.path, some p.region, p.title, p.message.map Fragment.text⟩
  | .projectError e => [⟨e.path.getD file, e.region, e.title, e.message.map Fragment.text⟩]

/-- What a document finds; only a report finds anything. -/
def Document.findings (file : Text) : Document → List Finding
  | .report r => r.findings file
  | _ => []

namespace Finding

/-- The range of a problem: every coordinate is one less, and a problem without a region stands at
the origin. -/
def range (f : Finding) : Range :=
  match f.region with
  | some r =>
    ⟨⟨r.start.line - 1, r.start.column - 1⟩, ⟨r.stop.line - 1, r.stop.column - 1⟩⟩
  | none => ⟨⟨0, 0⟩, ⟨0, 0⟩⟩

/-- How a problem is shown. -/
def diagnostic (f : Finding) : Diagnostic where
  range := f.range
  message := f.title ++ (" - " : Text) ++ StyleCode.strip f.pieces.flatten
  severity := .error
  source := "Elm"

/-- The issue of a problem. -/
def issue (f : Finding) : Issue where
  file := f.path
  region := f.region.getD Region.fileStart
  overview := f.title
  details := f.pieces.flatten

/-- A problem is shown as its issue is, below any root. -/
theorem diagnostic_resolve_issue (root : Text) (f : Finding) :
    (f.issue.resolve root).diagnostic = f.diagnostic := by
  obtain ⟨path, _ | region, title, pieces⟩ := f
  · rfl
  · rfl

end Finding

namespace Findings

/-- The files that problems are shown in below a root, in the order of their first occurrence. -/
def paths (root : Text) (findings : List Finding) : List Text :=
  (findings.map fun f => resolvePath root f.path).eraseDups

/-- The problems that are shown in a file below a root, in their order. -/
def within (root path : Text) (findings : List Finding) : List Finding :=
  findings.filter fun f => resolvePath root f.path = path

end Findings

/-! ### The stages -/

theorem Fragment.render_eq_flatten (message : List Fragment) :
    Fragment.render message = (message.map Fragment.text).flatten := by
  rw [Fragment.render, List.flatMap_def]

/-- The issues of a document are those of the problems that it reports. -/
theorem Document.issues_eq_findings (file : Text) (d : Document) :
    d.issues (some file) = (d.findings file).map Finding.issue := by
  rcases d with (entries | e) | _ | _
  · have hentry (entry : FileErrors) : entry.issues =
        (entry.problems.map fun p =>
          (⟨entry.path, some p.region, p.title, p.message.map Fragment.text⟩ : Finding)).map
          Finding.issue := by
      rw [FileErrors.issues, List.map_map]
      refine List.map_congr_left fun p _ => ?_
      simp [Problem.issue, Finding.issue, Fragment.render_eq_flatten]
    simp only [Document.issues, Document.report?, Option.map_some, Option.getD_some,
      Report.issues, Document.findings, Report.findings, List.map_flatMap, ← hentry]
  · simp [Document.issues, Document.report?, Report.issues, Document.findings, Report.findings,
      ProjectError.issue, Finding.issue, Fragment.render_eq_flatten]
  · rfl
  · rfl

/-- The issues of documents are those of what is found in them. -/
theorem Document.flatMap_issues_eq_findings (file : Text) (docs : List Document) :
    docs.flatMap (Document.issues (some file)) =
      (docs.flatMap (Document.findings file)).map Finding.issue := by
  rw [List.map_flatMap]
  exact congrArg docs.flatMap (funext fun d => d.issues_eq_findings file)

theorem Issues.files_resolve_findings (root : Text) (findings : List Finding) :
    Issues.files ((findings.map Finding.issue).map (Issue.resolve root)) =
      Findings.paths root findings := by
  rw [Issues.files, Findings.paths, List.map_map, List.map_map]
  rfl

theorem Issues.within_resolve_findings (root path : Text) (findings : List Finding) :
    (Issues.within path ((findings.map Finding.issue).map (Issue.resolve root))).map
        Issue.diagnostic =
      (Findings.within root path findings).map Finding.diagnostic := by
  rw [Issues.within, Findings.within, List.map_map, List.filter_map, List.map_map]
  exact List.map_congr_left fun f _ => f.diagnostic_resolve_issue root

/-- A check of lines that are all decoded finds the issues of their documents. -/
theorem LineStream.result_check {s : LineStream} {file : Text} {number : Int}
    {docs : List Document} (hend : s.failure = none)
    (hlines : List.Forall₂ (fun line d => Document.ofLine number line = .ok d) s.lines docs) :
    (s.check file).result = .ok (docs.flatMap (Document.issues (some file))) := by
  obtain ⟨herror, hissues⟩ := IssueFeed.takeAll_of_ofLine { fallback := some file } hlines
  simp only [LineStream.check, herror, hend, hissues, List.nil_append]

namespace Invoker

open Outcome

/-- **Every problem is shown once, in its file and in order.** When the lines for a document are all
decoded, its diagnostics are one group for every file that a problem belongs to, in the order in
which the files first occur. The group of a file has its URI, and shows the problems of the file in
the order in which they are reported. Together the groups show every problem as often as it is
reported. -/
theorem diagnose_eq_ok_iff_findings {invoker : Invoker} {root uri file : Text} (number : Int)
    (docs : List Document) (hfile : FilePath.ofUri uri = .ok file)
    (hend : (invoker file root).failure = none)
    (hlines : List.Forall₂ (fun line d => Document.ofLine number line = .ok d)
      (invoker file root).lines docs) (groups : List FileDiagnostics) :
    ((invoker.diagnose root uri).result = .ok groups ↔
      List.Forall₂
        (fun path g => FilePath.toUri path = .ok g.uri ∧ g.diagnostics =
          (Findings.within root path (docs.flatMap (Document.findings file))).map
            Finding.diagnostic)
        (Findings.paths root (docs.flatMap (Document.findings file))) groups) ∧
      ((invoker.diagnose root uri).result = .ok groups →
        (groups.flatMap FileDiagnostics.diagnostics).Perm
          ((docs.flatMap (Document.findings file)).map Finding.diagnostic)) := by
  let findings := docs.flatMap (Document.findings file)
  have hissues : docs.flatMap (Document.issues (some file)) = findings.map Finding.issue :=
    Document.flatMap_issues_eq_findings file docs
  have hresult : (invoker.diagnose root uri).result =
      (FileDiagnostics.ofIssues root (findings.map Finding.issue)).mapError .loneSurrogates := by
    simp only [diagnose, hfile, CheckRun.bind, checkFile, LineStream.result_check hend hlines,
      hissues, Except.bind]
  rw [hresult, mapError_eq_ok_iff]
  constructor
  · rw [FileDiagnostics.ofIssues_eq_ok_iff, Issues.files_resolve_findings]
    simp only [Issues.within_resolve_findings, findings]
  · intro h
    have hperm := FileDiagnostics.flatMap_diagnostics_perm h
    rw [List.map_map, List.map_map] at hperm
    refine hperm.trans (.of_eq (List.map_congr_left fun f _ => ?_))
    exact f.diagnostic_resolve_issue root

set_option maxRecDepth 4000 in
/-- Two problems of a file with a problem of the saved document between them. -/
theorem diagnose_eq_ok_iff_findings_interleaved :
    (diagnose (fun _ _ => { lines := [
        "\x7b\"type\":\"error\",\"path\":\"./A\",\"title\":\"a\",\"message\":[]\x7d",
        "\x7b\"type\":\"error\",\"title\":\"b\",\"message\":[\"[1mx\"]\x7d",
        ("\x7b\"type\":\"compile-errors\",\"errors\":[\x7b\"path\":\"./A\"," : Text) ++
          ("\"problems\":[\x7b\"title\":\"c\",\"region\":" : Text) ++
          ("\x7b\"start\":\x7b\"line\":2,\"column\":3\x7d," : Text) ++
          ("\"end\":\x7b\"line\":2,\"column\":5\x7d\x7d," : Text) ++
          ("\"message\":[\"y\"]\x7d]\x7d]\x7d" : Text)] })
      "/w" "file:///w/B").result =
    .ok [⟨"file:///w/A", [⟨⟨⟨0, 0⟩, ⟨0, 0⟩⟩, "a - ", .error, "Elm"⟩,
        ⟨⟨⟨1, 2⟩, ⟨1, 4⟩⟩, "c - y", .error, "Elm"⟩]⟩,
      ⟨"file:///w/B", [⟨⟨⟨0, 0⟩, ⟨0, 0⟩⟩, "b - x", .error, "Elm"⟩]⟩] := by
  have hfile : FilePath.ofUri "file:///w/B" = .ok "/w/B" := rfl
  refine (diagnose_eq_ok_iff_findings 1 [
      .report (.projectError ⟨some "./A", "a", none, []⟩),
      .report (.projectError ⟨none, "b", none, [.plain "[1mx"]⟩),
      .report (.compileErrors [⟨"./A", none, [⟨"c", ⟨⟨2, 3⟩, ⟨2, 5⟩⟩, [.plain "y"]⟩]⟩])]
    hfile rfl ?_ _).1.2 ?_
  · exact .cons rfl (.cons rfl (.cons rfl .nil))
  · exact .cons ⟨rfl, rfl⟩ (.cons ⟨rfl, rfl⟩ .nil)

end Invoker

end ElmReport
