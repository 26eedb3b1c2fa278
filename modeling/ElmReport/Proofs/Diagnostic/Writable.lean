import ElmReport.Proofs.Diagnostic.Grouping
import ElmReport.Proofs.FileUri.Scalar
import ElmReport.Proofs.Stream.Check

/-!
# Reports whose files have no URI

The reader of a report takes any path that a JSON string can spell, lone surrogates included, but no
URI can be written for such a path. One problem whose path has a lone surrogate is enough: then
there are no diagnostics at all, also not for the other problems. Nothing else keeps the issues of
lines that are all decoded from being shown.

## Main definitions

* `Document.paths`: the files that the problems of a document belong to, as it names them.
* `Document.HasScalarPaths`: lines that name no file with a lone surrogate.

## Main results

* `FileDiagnostics.exists_ofIssues_iff`: which issues have diagnostics.
* `FileDiagnostics.exists_ofIssues_takeAll_iff`: which lines have diagnostics.
* `Invoker.exists_diagnostics_iff_hasScalarPaths`: what a check of a document comes to.
-/

namespace ElmReport

/-! ### What a document names -/

namespace Document

/-- The files that the problems of a document belong to, as the document names them. -/
def paths : Document → List Text
  | .report (.compileErrors entries) => entries.flatMap fun f => f.problems.map fun _ => f.path
  | .report (.projectError e) => e.path.toList
  | _ => []

/-- A line that names no file with a lone surrogate. -/
def HasScalarPaths (line : Text) : Prop :=
  ∀ d, ofLine 1 line = .ok d → ∀ path ∈ d.paths, path.IsScalar

/-- The issues of a document belong to files without lone surrogates exactly when the document names
no other. -/
theorem isScalar_issues_iff {fallback : Option Text} (h : (fallback.getD []).IsScalar)
    (d : Document) :
    (∀ i ∈ d.issues fallback, i.file.IsScalar) ↔ ∀ path ∈ d.paths, path.IsScalar := by
  rcases d with (entries | ⟨_ | path, title, region, message⟩) | _ | _
  · have hentry (f : FileErrors) : f.issues.map Issue.file = f.problems.map fun _ => f.path := by
      rw [FileErrors.issues, List.map_map]
      rfl
    rw [← List.forall_mem_map]
    simp only [issues, report?, Option.map_some, Option.getD_some, Report.issues,
      List.map_flatMap, hentry, paths]
  · simpa [issues, report?, ProjectError.issue, paths] using h
  · simp [issues, report?, ProjectError.issue, paths]
  · simp [issues, report?, paths]
  · simp [issues, report?, paths]

end Document

/-! ### Issues of several lines -/

/-- The issues that a feed gathers on lines that are all decoded are those of their documents. -/
theorem IssueFeed.mem_issues_takeAll_iff (f : IssueFeed) {lines : List Text}
    (hlines : ∀ l ∈ lines, Document.Decodes l) {i : Issue} :
    i ∈ (f.takeAll lines).feed.issues ↔ i ∈ f.issues ∨
      ∃ l ∈ lines, ∃ d, Document.ofLine 1 l = .ok d ∧ i ∈ d.issues f.fallback := by
  induction lines generalizing f with
  | nil => simp
  | cons line lines ih =>
    obtain ⟨⟨d, hline⟩, hlines⟩ := List.forall_mem_cons.1 hlines
    simp only [takeAll, f.take_of_ofLine hline, ih _ hlines, List.mem_append, List.mem_cons,
      exists_eq_or_imp, hline, Except.ok.injEq, exists_eq_left', or_assoc]

theorem issuesOfLines_eq_ok_iff {fallback : Option Text} {lines : List Text}
    {issues : List Issue} :
    issuesOfLines fallback lines = .ok issues ↔ (∀ l ∈ lines, Document.Decodes l) ∧
      (IssueFeed.takeAll { fallback } lines).feed.issues = issues := by
  by_cases hlines : ∀ l ∈ lines, Document.Decodes l
  · obtain ⟨herror, -⟩ := IssueFeed.takeAll_of_decodes { fallback } hlines
    simp only [issuesOfLines, herror, Except.ok.injEq, and_iff_right hlines]
  · obtain ⟨before, line, after, e, rfl, hbefore, hline⟩ :=
      Document.exists_first_error (by simpa using hlines)
    obtain ⟨herror, -⟩ := IssueFeed.takeAll_of_error { fallback } hbefore
      (by simpa using hline) after
    simp only [issuesOfLines, herror, reduceCtorEq, hlines, false_and]

/-! ### Diagnostics -/

/-- A path below a root without lone surrogates has none exactly when the path itself has none. -/
theorem isScalar_resolvePath_iff {root : Text} (hroot : root.IsScalar) {path : Text} :
    (resolvePath root path).IsScalar ↔ path.IsScalar := by
  rw [resolvePath.eq_def]
  split
  · rw [Text.isScalar_append, Text.isScalar_cons]
    exact and_congr_left' (iff_of_true hroot ⟨'.', rfl⟩)
  · rfl

namespace FileDiagnostics

open Outcome

/-- Issues have diagnostics exactly when no path of theirs has lone surrogates. -/
theorem exists_ofIssues_iff {root : Text} {issues : List Issue} :
    (∃ files, ofIssues root issues = .ok files) ↔
      ∀ i ∈ issues, (resolvePath root i.file).IsScalar := by
  have hgroup (g : Text × List Issue) : (∃ f, ofGroup g = .ok f) ↔ g.1.IsScalar := by
    rw [← FilePath.exists_toUri_iff]
    constructor
    · rintro ⟨f, hf⟩
      exact ⟨f.uri, (ofGroup_eq_ok_iff.1 hf).1⟩
    · rintro ⟨u, hu⟩
      exact ⟨⟨u, g.2.map Issue.diagnostic⟩, ofGroup_eq_ok_iff.2 ⟨hu, rfl⟩⟩
  simp only [ofIssues, exists_mapM_eq_ok_iff, hgroup, Issues.group_eq, List.forall_mem_map,
    Issues.mem_files, Issue.resolve, forall_exists_index, and_imp, forall_apply_eq_imp_iff₂]

/-- Lines that are all decoded have diagnostics exactly when they name no file with a lone
surrogate. -/
theorem exists_ofIssues_takeAll_iff {root : Text} {fallback : Option Text} {lines : List Text}
    (hroot : root.IsScalar) (hfallback : (fallback.getD []).IsScalar)
    (hlines : ∀ l ∈ lines, Document.Decodes l) :
    (∃ files,
        ofIssues root (IssueFeed.takeAll { fallback } lines).feed.issues = .ok files) ↔
      ∀ l ∈ lines, Document.HasScalarPaths l := by
  simp only [exists_ofIssues_iff, isScalar_resolvePath_iff hroot,
    IssueFeed.mem_issues_takeAll_iff _ hlines, List.not_mem_nil, false_or]
  constructor
  · intro h l hl d hd
    exact (d.isScalar_issues_iff hfallback).1 fun i hi => h i ⟨l, hl, d, hd, hi⟩
  · rintro h i ⟨l, hl, d, hd, hi⟩
    exact (d.isScalar_issues_iff hfallback).2 (h l hl d hd) i hi

end FileDiagnostics

namespace Invoker

open Outcome

section

variable {invoker : Invoker} {root uri file : Text} (hroot : root.IsScalar)
  (hfile : FilePath.ofUri uri = .ok file) (hend : (invoker file root).failure = none)
  (hlines : ∀ l ∈ (invoker file root).lines, Document.Decodes l)

include hfile hend hlines

/-- The check of a document whose lines are all decoded makes the diagnostics of their issues. -/
theorem result_diagnose_of_decodes :
    let run := IssueFeed.takeAll { fallback := some file } (invoker file root).lines
    (invoker.diagnose root uri).result =
      (FileDiagnostics.ofIssues root run.feed.issues).mapError .loneSurrogates := by
  intro run
  obtain ⟨-, hleft⟩ := (invoker file root).check_of_decodes file hlines
  simp only [hend] at hleft
  rw [result_diagnose hfile, (Prod.mk.inj hleft).1]
  rfl

include hroot in
theorem exists_diagnose_eq_ok_iff (huri : uri.IsScalar) :
    (∃ files, (invoker.diagnose root uri).result = .ok files) ↔
      ∀ l ∈ (invoker file root).lines, Document.HasScalarPaths l := by
  have hfallback : ((some file : Option Text).getD []).IsScalar :=
    FilePath.isScalar_of_ofUri hfile huri
  simp only [result_diagnose_of_decodes hfile hend hlines, mapError_eq_ok_iff,
    FileDiagnostics.exists_ofIssues_takeAll_iff hroot hfallback hlines]

/-- Once all lines are decoded, a check can fail only since no URI can be written. -/
theorem exists_loneSurrogates_of_diagnose {x : Failure}
    (hx : (invoker.diagnose root uri).result = .error x) : ∃ e, x = .loneSurrogates e := by
  rw [result_diagnose_of_decodes hfile hend hlines] at hx
  obtain ⟨e, -, rfl⟩ := mapError_eq_error_iff.1 hx
  exact ⟨e, rfl⟩

end

/-- **What the reader takes is shown exactly when its paths have URIs.** Below a root without lone
surrogates the issues of lines that are all decoded have diagnostics exactly when the lines name no
file with a lone surrogate. So the check of a document fails by a line that is not decoded, or by a
failure after its lines, or it comes to diagnostics, or, when all lines are decoded and some line
names a file with a lone surrogate, it fails since no URI can be written. -/
theorem exists_diagnostics_iff_hasScalarPaths {root : Text} (hroot : root.IsScalar) :
    (∀ fallback lines issues, (∀ file, fallback = some file → file.IsScalar) →
      issuesOfLines fallback lines = .ok issues →
      ((∃ files, FileDiagnostics.ofIssues root issues = .ok files) ↔
        ∀ l ∈ lines, Document.HasScalarPaths l)) ∧
    ∀ (invoker : Invoker) (uri file : Text), uri.IsScalar → FilePath.ofUri uri = .ok file →
      let s := invoker file root
      let result := (invoker.diagnose root uri).result
      ((∃ l ∈ s.lines, ¬ Document.Decodes l) → ∃ e, result = .error (.line e)) ∧
      ((∀ l ∈ s.lines, Document.Decodes l) →
        (∀ x, s.failure = some x →
          result = if x.isToolUnavailable then .ok [] else .error x) ∧
        (s.failure = none → (∀ l ∈ s.lines, Document.HasScalarPaths l) →
          ∃ files, result = .ok files) ∧
        (s.failure = none → (∃ l ∈ s.lines, ¬ Document.HasScalarPaths l) →
          ∃ e, result = .error (.loneSurrogates e))) := by
  refine ⟨fun fallback lines issues hfallback hissues => ?_,
    fun invoker uri file huri hfile => ⟨fun hlines => ?_, fun hlines => ?_⟩⟩
  · obtain ⟨hlines, rfl⟩ := issuesOfLines_eq_ok_iff.1 hissues
    refine FileDiagnostics.exists_ofIssues_takeAll_iff hroot ?_ hlines
    cases fallback with
    | none => exact Text.isScalar_nil
    | some file => exact hfallback file rfl
  · obtain ⟨before, line, after, e, hlines, hbefore, hline⟩ := Document.exists_first_error hlines
    exact ⟨e, diagnose_of_malformed hfile hlines hbefore hline⟩
  · refine ⟨fun x hx => diagnose_of_failure hfile hlines hx, fun hend hpaths => ?_,
      fun hend hpaths => ?_⟩
    · exact (exists_diagnose_eq_ok_iff hroot hfile hend hlines huri).2 hpaths
    · rcases hresult : (invoker.diagnose root uri).result with x | files
      · obtain ⟨e, rfl⟩ := exists_loneSurrogates_of_diagnose hfile hend hlines hresult
        exact ⟨e, rfl⟩
      · obtain ⟨l, hl, hpath⟩ := hpaths
        exact absurd ((exists_diagnose_eq_ok_iff hroot hfile hend hlines huri).1
          ⟨files, hresult⟩ l hl) hpath

/-- A line about a file, and the same line about a file whose name is a lone surrogate. -/
theorem exists_diagnostics_iff_hasScalarPaths_of_line :
    let line : Text := ("\x7b\"type\":\"error\",\"path\":\"./A\"," : Text) ++
      ("\"title\":\"T\",\"message\":[]\x7d" : Text)
    let lone : Text := ("\x7b\"type\":\"error\",\"path\":\"\x5cud800\"," : Text) ++
      ("\"title\":\"T\",\"message\":[]\x7d" : Text)
    Text.IsScalar "/w" ∧ Text.IsScalar "file:///w/B" ∧ FilePath.ofUri "file:///w/B" = .ok "/w/B" ∧
      Document.HasScalarPaths line ∧ ¬ Document.HasScalarPaths lone ∧
      (∃ issues files, issuesOfLines none [line] = .ok issues ∧
        FileDiagnostics.ofIssues "/w" issues = .ok files) ∧
      (∃ files, (diagnose (fun _ _ => { lines := [line] }) "/w" "file:///w/B").result =
        .ok files) ∧
      ∃ e, (diagnose (fun _ _ => { lines := [line, lone] }) "/w" "file:///w/B").result =
        .error (.loneSurrogates e) := by
  intro line lone
  have hroot : Text.IsScalar "/w" := Text.isScalar_ofString _
  have huri : Text.IsScalar "file:///w/B" := Text.isScalar_ofString _
  have hfile : FilePath.ofUri "file:///w/B" = .ok "/w/B" := rfl
  have hline : Document.ofLine 1 line =
      .ok (.report (.projectError ⟨some "./A", "T", none, []⟩)) := rfl
  have hlone : Document.ofLine 1 lone =
      .ok (.report (.projectError ⟨some [.ofNat 0xd800], "T", none, []⟩)) := rfl
  have hscalar : Document.HasScalarPaths line := by
    intro d hd path hpath
    obtain rfl := Except.ok.inj (hline.symm.trans hd)
    obtain rfl := List.mem_singleton.1 hpath
    exact Text.isScalar_ofString _
  have hnot : ¬ Document.HasScalarPaths lone := fun h =>
    CodePoint.not_isScalar_surrogate _
      (h _ hlone _ (List.mem_singleton_self _) _ (List.mem_singleton_self _))
  obtain ⟨hissues, hcheck⟩ := exists_diagnostics_iff_hasScalarPaths hroot
  obtain ⟨files, hfiles⟩ := (hissues none [line]
    [{ file := "./A", region := .fileStart, overview := "T", details := [] }] nofun rfl).2
    (List.forall_mem_singleton.2 hscalar)
  refine ⟨hroot, huri, hfile, hscalar, hnot, ⟨_, files, rfl, hfiles⟩, ?_, ?_⟩
  · obtain ⟨-, hdecoded⟩ := hcheck (fun _ _ => { lines := [line] }) _ _ huri hfile
    exact (hdecoded (by simpa using ⟨_, hline⟩)).2.1 rfl (List.forall_mem_singleton.2 hscalar)
  · obtain ⟨-, hdecoded⟩ := hcheck (fun _ _ => { lines := [line, lone] }) _ _ huri hfile
    exact (hdecoded (by simpa using ⟨⟨_, hline⟩, _, hlone⟩)).2.2 rfl ⟨lone, by simp, hnot⟩

/-- A problem of a file whose name is a lone surrogate is read, but it is not shown, and the
document has no diagnostics. -/
theorem diagnose_of_loneSurrogate :
    let line : Text := ("\x7b\"type\":\"error\",\"path\":\"\x5cud800\"," : Text) ++
      ("\"title\":\"T\",\"message\":[]\x7d" : Text)
    Text.IsScalar "/w" ∧ ∃ issues e, issuesOfLines none [line] = .ok issues ∧
      FileDiagnostics.ofIssues "/w" issues = .error e ∧
      (diagnose (fun _ _ => { lines := [line] }) "/w" "file:///w/B").result =
        .error (.loneSurrogates e) :=
  ⟨Text.isScalar_ofString _, _, _, rfl, rfl, rfl⟩

end Invoker

end ElmReport
