import ElmReport.Compiler.Process
import ElmReport.Proofs.Diagnostic.Conservation
import ElmReport.Proofs.FileUri.Trip
import ElmReport.Proofs.Stream.Check
import Mathlib.Data.List.Nodup

/-!
# Problems that name no file

A problem of the project that names no file belongs to the saved document. On its way the document
goes from a path to a URI, from there to the path that is checked, through the root of the workspace
into the grouping, and back to a URI. Without a host no step changes it, so the problem is shown
with the URI of the document, whatever else is reported.

## Main definitions

* `Document.unplaced?`: the problem of a document that names no file.
* `ProjectError.finding`: a problem of the project in the saved document.

## Main results

* `FilePath.toUri_restored`, `FilePath.resolvePath_restored`: the path of a URI keeps the URI, and
  is kept below a root.
* `Document.sublist_unplaced`: the problems that name no file are found in the saved document.
* `Invoker.exists_group_of_unplaced`: where the problems that name no file are shown.
* `Host.exists_unplaced_group`: the same for the compiler, which keeps the protocol of invokers.
-/

namespace ElmReport

/-! ### The path of the saved document -/

namespace FilePath

/-- What a path without a host comes back as has the URI of the path. -/
theorem toUri_restored {path u : Text} (hu : toUri path = .ok u)
    (h : ¬ ("//" : Text) <+: normalize path) : toUri (restored (normalize path)) = .ok u := by
  have hpath : hostAndPath path = ([], lowerDrive (rooted (normalize path))) :=
    hostAndPathOfNormal_of_noHost h
  obtain ⟨-, _, -, hrest, -⟩ := toUri_eq_ok_iff.1 hu
  have hscalar := Percent.isScalar_of_encode hrest
  rw [hpath] at hscalar
  obtain ⟨v, hv⟩ := exists_toUri_of_isScalar
    (isScalar_ofParts_of_isScalar Text.isScalar_nil hscalar)
  have hsame : v = u := by
    rw [uri_eq_iff hv hu, hpath]
    exact (hostAndPath_ofParts_iff_of_noHost hpath).2 (comesBack_lowerDrive_rooted h)
  rw [← ofParts_lowerDrive_rooted, hv, hsame]

/-- What a path without a host comes back as opens with a slash or with the letter of a drive. -/
theorem head?_restored_ne_dot (t : Text) : (restored t).head? ≠ some (.scalar '.') := by
  obtain ⟨tail, htail⟩ := exists_rooted_eq t
  have hslash : (rooted t).head? ≠ some (.scalar '.') := by
    rw [htail]
    exact fun h => absurd (Option.some.inj h) (by decide)
  unfold restored
  split
  · next letter rest _ =>
    split_ifs with hletter
    · intro h
      have hsmall := CodePoint.isAsciiLetter_asciiLower hletter
      rw [Option.some.inj h] at hsmall
      exact absurd hsmall (by decide)
    · exact hslash
  · exact hslash

/-- What a path without a host comes back as is kept below every root. -/
theorem resolvePath_restored (root t : Text) : resolvePath root (restored t) = restored t :=
  resolvePath_of_no_dot (head?_restored_ne_dot t)

end FilePath

/-! ### What names no file -/

/-- A problem of the project as it is found when `file` is checked. -/
def ProjectError.finding (file : Text) (e : ProjectError) : Finding :=
  ⟨e.path.getD file, e.region, e.title, e.message.map Fragment.text⟩

namespace Document

/-- The problem of a document that names no file. -/
def unplaced? : Document → Option ProjectError
  | .report (.projectError e) => if e.path = none then some e else none
  | _ => none

theorem unplaced?_eq_some_iff {d : Document} {e : ProjectError} :
    d.unplaced? = some e ↔ d = .report (.projectError e) ∧ e.path = none := by
  rcases d with (entries | e') | _ | _
  · simp [unplaced?]
  · simp only [unplaced?, Option.ite_none_right_eq_some, Option.some.injEq, report.injEq,
      Report.projectError.injEq]
    exact ⟨fun ⟨h, he⟩ => ⟨he, he ▸ h⟩, fun ⟨he, h⟩ => ⟨he ▸ h, he⟩⟩
  · simp [unplaced?]
  · simp [unplaced?]

/-- A problem that names no file is all that its document finds, and belongs to the file that is
checked. -/
theorem findings_of_unplaced {d : Document} {e : ProjectError} (h : d.unplaced? = some e)
    (file : Text) : d.findings file = [e.finding file] ∧ (e.finding file).path = file := by
  obtain ⟨rfl, hpath⟩ := unplaced?_eq_some_iff.1 h
  exact ⟨rfl, by simp only [ProjectError.finding, hpath, Option.getD_none]⟩

/-- The problems that name no file are found in the order of their documents, among others. -/
theorem sublist_findings (file : Text) (docs : List Document) :
    ((docs.filterMap unplaced?).map (ProjectError.finding file)).Sublist
      (docs.flatMap (findings file)) := by
  induction docs with
  | nil => exact .slnil
  | cons d docs ih =>
    rw [List.flatMap_cons]
    rcases h : d.unplaced? with _ | e
    · rw [List.filterMap_cons_none h]
      exact ih.trans (List.sublist_append_right ..)
    · rw [List.filterMap_cons_some h, (findings_of_unplaced h file).1, List.map_cons]
      exact ih.cons_cons _

/-- A problem that names no file belongs to the file that is checked, when this is kept below the
root. -/
theorem mem_files_of_unplaced {root file : Text} {docs : List Document}
    (hfile : resolvePath root file = file) (h : ∃ d ∈ docs, d.unplaced? ≠ none) :
    file ∈ Issues.files ((docs.flatMap (issues (some file))).map (Issue.resolve root)) := by
  obtain ⟨d, hd, hne⟩ := h
  obtain ⟨e, he⟩ := Option.ne_none_iff_exists'.1 hne
  obtain ⟨hfindings, hplace⟩ := findings_of_unplaced he file
  have hfound : e.finding file ∈ docs.flatMap (findings file) :=
    List.mem_flatMap.2 ⟨d, hd, hfindings ▸ List.mem_singleton_self _⟩
  rw [flatMap_issues_eq_findings, Issues.files_resolve_findings, Findings.paths,
    List.mem_eraseDups]
  exact List.mem_map.2 ⟨_, hfound, by rw [hplace, hfile]⟩

/-- The problems that name no file are found in the file that is checked, when this is kept below
the root. -/
theorem sublist_unplaced {root file : Text} (hfile : resolvePath root file = file)
    (docs : List Document) :
    ((docs.filterMap unplaced?).map (ProjectError.finding file)).Sublist
      (Findings.within root file (docs.flatMap (findings file))) := by
  have hall : ∀ f ∈ (docs.filterMap unplaced?).map (ProjectError.finding file),
      decide (resolvePath root f.path = file) = true := by
    intro f hf
    obtain ⟨e, he, rfl⟩ := List.mem_map.1 hf
    obtain ⟨d, -, hd⟩ := List.mem_filterMap.1 he
    rw [(findings_of_unplaced hd file).2, hfile, decide_eq_true rfl]
  rw [← List.filter_eq_self.2 hall]
  exact (sublist_findings file docs).filter _

end Document

/-! ### Groups -/

namespace FileDiagnostics

/-- The diagnostics of the issues of a file stand in one place, that of its group. -/
theorem exists_place {root : Text} {issues : List Issue} {groups : List FileDiagnostics}
    (h : ofIssues root issues = .ok groups) {file : Text}
    (hfile : file ∈ Issues.files (issues.map (Issue.resolve root))) :
    ∃ (i : Nat) (g : FileDiagnostics), groups[i]? = some g ∧
      (∀ j : Nat, ((Issues.group (issues.map (Issue.resolve root))).map Prod.fst)[j]? = some file ↔
        j = i) ∧
      FilePath.toUri file = .ok g.uri ∧ g.diagnostics =
        (Issues.within file (issues.map (Issue.resolve root))).map Issue.diagnostic := by
  have hall := ofIssues_eq_ok_iff.1 h
  have hnodup := Issues.nodup_files (issues.map (Issue.resolve root))
  obtain ⟨i, hi, rfl⟩ := List.getElem_of_mem hfile
  have hi' : i < groups.length := hall.length_eq ▸ hi
  refine ⟨i, groups[i], List.getElem?_eq_getElem hi', fun j => ?_, hall.get hi hi'⟩
  rw [Issues.map_fst_group]
  constructor
  · intro hj
    obtain ⟨hj, heq⟩ := List.getElem?_eq_some_iff.1 hj
    exact hnodup.getElem_inj_iff.1 heq
  · rintro rfl
    exact List.getElem?_eq_getElem hi

end FileDiagnostics

namespace Invoker

open Outcome

variable {invoker : Invoker} {root uri file : Text} {number : Int} {docs : List Document}
  {groups : List FileDiagnostics}

/-- When an invoker that keeps the protocol hands out lines that are all decoded, and the document
has diagnostics, then the stream has come to its end. -/
theorem failure_eq_none (hfile : FilePath.ofUri uri = .ok file)
    (hlines : List.Forall₂ (fun line d => Document.ofLine number line = .ok d)
      (invoker file root).lines docs)
    (hdocs : docs ≠ []) (hprotocol : (invoker file root).KeepsProtocol)
    (hgroups : (invoker.diagnose root uri).result = .ok groups) :
    (invoker file root).failure = none := by
  have hdecodes : ∀ l ∈ (invoker file root).lines, Document.Decodes l := by
    intro l hl
    obtain ⟨i, hi, rfl⟩ := List.getElem_of_mem hl
    exact (Document.decodes_iff number).2 ⟨_, hlines.get hi (hlines.length_eq ▸ hi)⟩
  rcases hfailure : (invoker file root).failure with _ | x
  · rfl
  · have hx : x.isToolUnavailable ≠ true := by
      rw [ne_eq, Failure.isToolUnavailable_iff]
      rintro ⟨executable, rfl⟩
      rw [hprotocol executable hfailure] at hlines
      cases hlines
      exact hdocs rfl
    rw [diagnose_of_failure hfile hdecodes hfailure, if_neg hx] at hgroups
    cases hgroups

/-- The problems that name no file are shown in one place, the group of the file that was checked,
when this file has a URI that is read as it and is kept below the root. -/
theorem exists_group_of_kept (hread : FilePath.ofUri uri = .ok file)
    (huri : FilePath.toUri file = .ok uri) (hkept : resolvePath root file = file)
    (hlines : List.Forall₂ (fun line d => Document.ofLine number line = .ok d)
      (invoker file root).lines docs)
    (hdocs : ∃ d ∈ docs, d.unplaced? ≠ none) (hprotocol : (invoker file root).KeepsProtocol)
    (hgroups : (invoker.diagnose root uri).result = .ok groups) :
    ∃ (issues : List Issue) (i : Nat) (g : FileDiagnostics),
      (invoker.checkFile root file).result = .ok issues ∧
      FileDiagnostics.ofIssues root issues = .ok groups ∧ groups[i]? = some g ∧
      (∀ j : Nat,
        ((Issues.group (issues.map (Issue.resolve root))).map Prod.fst)[j]? = some file ↔
          j = i) ∧
      g.uri = uri ∧
      ((docs.filterMap Document.unplaced?).map fun e => (e.finding file).diagnostic).Sublist
        g.diagnostics := by
  have hsome : docs ≠ [] := by
    obtain ⟨d, hd, -⟩ := hdocs
    exact List.ne_nil_of_mem hd
  have hend := failure_eq_none hread hlines hsome hprotocol hgroups
  have hresult : (invoker.checkFile root file).result =
      .ok (docs.flatMap (Document.issues (some file))) := LineStream.result_check hend hlines
  rw [result_diagnose hread, LineStream.result_check hend hlines] at hgroups
  have hshown := mapError_eq_ok_iff.1 hgroups
  have hissues := Document.flatMap_issues_eq_findings file docs
  obtain ⟨i, g, hg, hplace, hguri, hdiagnostics⟩ :=
    FileDiagnostics.exists_place hshown (Document.mem_files_of_unplaced hkept hdocs)
  refine ⟨_, i, g, hresult, hshown, hg, hplace, Except.ok.inj (hguri.symm.trans huri), ?_⟩
  have hsub := (Document.sublist_unplaced hkept docs).map Finding.diagnostic
  rw [List.map_map] at hsub
  rw [hdiagnostics, hissues, Issues.within_resolve_findings]
  exact hsub

/-- **Problems that name no file are shown in the saved document.** A document without a host has a
URI, and this is read as the file to check. Whatever lines come for it from an invoker that keeps
the protocol, when one of them reports a problem that names no file and the document has
diagnostics, then one of their groups, and only one, was formed for the file that was checked. It
has the URI of the document, and shows every problem that names no file, in the order of the
lines. -/
theorem exists_group_of_unplaced {path : Text} (hpath : path.IsScalar)
    (hhost : ¬ ("//" : Text) <+: FilePath.normalize path) :
    ∃ uri file, FilePath.toUri path = .ok uri ∧ FilePath.ofUri uri = .ok file ∧
      ∀ (invoker : Invoker) (root : Text) (number : Int) (docs : List Document)
        (groups : List FileDiagnostics),
        List.Forall₂ (fun line d => Document.ofLine number line = .ok d)
          (invoker file root).lines docs →
        (∃ d ∈ docs, d.unplaced? ≠ none) →
        (invoker file root).KeepsProtocol →
        (invoker.diagnose root uri).result = .ok groups →
        ∃ (issues : List Issue) (i : Nat) (g : FileDiagnostics),
          (invoker.checkFile root file).result = .ok issues ∧
          FileDiagnostics.ofIssues root issues = .ok groups ∧ groups[i]? = some g ∧
          (∀ j : Nat,
            ((Issues.group (issues.map (Issue.resolve root))).map Prod.fst)[j]? = some file ↔
              j = i) ∧
          g.uri = uri ∧
          ((docs.filterMap Document.unplaced?).map fun e => (e.finding file).diagnostic).Sublist
            g.diagnostics := by
  obtain ⟨uri, huri⟩ := FilePath.exists_toUri_of_isScalar hpath
  have hread := FilePath.ofUri_of_noHost huri hhost
  refine ⟨uri, _, huri, hread, fun invoker root number docs groups hlines hdocs hprotocol
    hgroups => ?_⟩
  exact exists_group_of_kept hread (FilePath.toUri_restored huri hhost)
    (FilePath.resolvePath_restored root _) hlines hdocs hprotocol hgroups

set_option maxRecDepth 4000 in
/-- Two problems that name no file, with a problem of another file between them, are shown in the
file of a drive that was saved. -/
theorem exists_group_of_unplaced_drive :
    let invoker : Invoker := fun _ _ => { lines := [
      "\x7b\"type\":\"error\",\"title\":\"a\",\"message\":[]\x7d",
      "\x7b\"type\":\"error\",\"path\":\"./A\",\"title\":\"b\",\"message\":[]\x7d",
      "\x7b\"type\":\"error\",\"path\":null,\"title\":\"c\",\"message\":[]\x7d"] }
    Text.IsScalar "C:\\w\\B" ∧ ¬ ("//" : Text) <+: FilePath.normalize "C:\\w\\B" ∧
      FilePath.toUri "C:\\w\\B" = .ok "file:///c%3A/w/B" ∧
      ∃ (groups : List FileDiagnostics) (i : Nat) (g : FileDiagnostics),
        (invoker.diagnose "/w" "file:///c%3A/w/B").result = .ok groups ∧ groups[i]? = some g ∧
          g.uri = "file:///c%3A/w/B" ∧
          List.Sublist [⟨⟨⟨0, 0⟩, ⟨0, 0⟩⟩, "a - ", .error, "Elm"⟩,
            ⟨⟨⟨0, 0⟩, ⟨0, 0⟩⟩, "c - ", .error, "Elm"⟩] g.diagnostics := by
  intro invoker
  have hpath : Text.IsScalar "C:\\w\\B" := Text.isScalar_ofString _
  have hhost : ¬ ("//" : Text) <+: FilePath.normalize "C:\\w\\B" := by decide
  have hwritten : FilePath.toUri "C:\\w\\B" = .ok "file:///c%3A/w/B" := rfl
  have hresult : (invoker.diagnose "/w" "file:///c%3A/w/B").result =
      .ok [⟨"file:///c%3A/w/B", [⟨⟨⟨0, 0⟩, ⟨0, 0⟩⟩, "a - ", .error, "Elm"⟩,
          ⟨⟨⟨0, 0⟩, ⟨0, 0⟩⟩, "c - ", .error, "Elm"⟩]⟩,
        ⟨"file:///w/A", [⟨⟨⟨0, 0⟩, ⟨0, 0⟩⟩, "b - ", .error, "Elm"⟩]⟩] := rfl
  obtain ⟨uri, file, huri, -, hshown⟩ := exists_group_of_unplaced hpath hhost
  obtain rfl := Except.ok.inj (hwritten.symm.trans huri)
  obtain ⟨issues, i, g, -, -, hg, -, hguri, hsub⟩ := hshown invoker "/w" 1 [
    .report (.projectError ⟨none, "a", none, []⟩),
    .report (.projectError ⟨some "./A", "b", none, []⟩),
    .report (.projectError ⟨none, "c", none, []⟩)] _ (.cons rfl (.cons rfl (.cons rfl .nil)))
    ⟨_, List.mem_cons_self, nofun⟩ (fun _ h => nomatch h) hresult
  exact ⟨hpath, hhost, hwritten, _, i, g, hresult, hg, hguri, hsub⟩

end Invoker

/-- The compiler keeps the protocol of invokers: whatever its process gives, the problems that name
no file are shown in the saved document. -/
theorem Host.exists_unplaced_group {path : Text} (hpath : path.IsScalar)
    (hhost : ¬ ("//" : Text) <+: FilePath.normalize path) :
    ∃ uri file, FilePath.toUri path = .ok uri ∧ FilePath.ofUri uri = .ok file ∧
      ∀ (host : Host) (o : CompilerOptions) (root : Text) (number : Int) (docs : List Document)
        (groups : List FileDiagnostics),
        List.Forall₂ (fun line d => Document.ofLine number line = .ok d)
          (host.stream o file root).lines docs →
        (∃ d ∈ docs, d.unplaced? ≠ none) →
        (Invoker.diagnose (host.stream o) root uri).result = .ok groups →
        ∃ g ∈ groups, g.uri = uri ∧
          ((docs.filterMap Document.unplaced?).map fun e => (e.finding file).diagnostic).Sublist
            g.diagnostics := by
  obtain ⟨uri, huri⟩ := FilePath.exists_toUri_of_isScalar hpath
  have hread := FilePath.ofUri_of_noHost huri hhost
  refine ⟨uri, _, huri, hread, fun host o root number docs groups hlines hdocs hgroups => ?_⟩
  obtain ⟨-, i, g, -, -, hg, -, hguri, hsub⟩ :=
    Invoker.exists_group_of_kept hread (FilePath.toUri_restored huri hhost)
      (FilePath.resolvePath_restored root _) hlines hdocs (host.keepsProtocol_stream o _ root)
      hgroups
  exact ⟨g, List.mem_of_getElem? hg, hguri, hsub⟩

end ElmReport
