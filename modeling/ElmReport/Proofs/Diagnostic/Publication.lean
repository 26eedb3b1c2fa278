import ElmReport.Proofs.Diagnostic.Grouping
import ElmReport.Proofs.FileUri.Normal
import Mathlib.Data.List.Flatten
import Mathlib.Data.List.Nodup

/-!
# What an editor shows

An editor keeps the diagnostics that came last for each URI. Issues are grouped by their paths and
not by the URIs of these, so diagnostics are lost exactly when two paths that differ have the same
URI: then the diagnostics of the first one are replaced by those of the second.

## Main definitions

* `Editor.publish`, `Editor.shown`: what an editor shows after some files.

## Main results

* `Editor.shown_eq_self_iff`: nothing is replaced exactly when the URIs differ.
* `Editor.shown_ofIssues_iff`: which issues are all shown.
-/

namespace ElmReport

/-- Every file is spelled in one way: paths of issues that name the same host and the same rooted
path are equal. -/
def Issues.SpelledAlike (root : Text) (issues : List Issue) : Prop :=
  ∀ i ∈ issues, ∀ j ∈ issues,
    FilePath.hostAndPath (resolvePath root i.file) =
        FilePath.hostAndPath (resolvePath root j.file) →
      resolvePath root i.file = resolvePath root j.file

instance (root : Text) (issues : List Issue) : Decidable (Issues.SpelledAlike root issues) :=
  inferInstanceAs (Decidable (∀ i ∈ issues, ∀ j ∈ issues, _ → _))

namespace Editor

/-- What an editor shows after the diagnostics of one more file, which replace those with the same
URI. -/
def publish (view : List FileDiagnostics) (f : FileDiagnostics) : List FileDiagnostics :=
  view.filter (fun g => g.uri ≠ f.uri) ++ [f]

/-- What an editor shows after the diagnostics of some files, one file after the other. -/
def shown (files : List FileDiagnostics) : List FileDiagnostics := files.foldl publish []

theorem shown_append_singleton (files : List FileDiagnostics) (f : FileDiagnostics) :
    shown (files ++ [f]) = publish (shown files) f := by
  simp [shown]

/-- Nothing is shown that was not published. -/
theorem shown_sublist (files : List FileDiagnostics) : (shown files).Sublist files := by
  induction files using List.reverseRecOn with
  | nil => exact .refl []
  | append_singleton files f ih =>
    rw [shown_append_singleton, publish]
    exact (List.filter_sublist.trans ih).append_right [f]

/-- Nothing is shown twice at a URI. -/
theorem nodup_uri_shown (files : List FileDiagnostics) :
    ((shown files).map FileDiagnostics.uri).Nodup := by
  induction files using List.reverseRecOn with
  | nil => exact List.nodup_nil
  | append_singleton files f ih =>
    rw [shown_append_singleton, publish, List.map_append, List.nodup_append]
    refine ⟨ih.sublist (List.filter_sublist.map _), by simp, ?_⟩
    rintro _ hu _ hf rfl
    obtain ⟨g, hg, hgf⟩ := List.mem_map.1 hu
    rw [List.map_singleton, List.mem_singleton] at hf
    have hne := (List.mem_filter.1 hg).2
    simp [hgf, hf] at hne

/-- Nothing is replaced exactly when the URIs differ. -/
theorem shown_eq_self_iff {files : List FileDiagnostics} :
    shown files = files ↔ (files.map FileDiagnostics.uri).Nodup := by
  constructor
  · intro h
    rw [← h]
    exact nodup_uri_shown files
  · intro h
    induction files using List.reverseRecOn with
    | nil => rfl
    | append_singleton files f ih =>
      rw [List.map_append, List.nodup_append] at h
      obtain ⟨hfiles, -, hf⟩ := h
      rw [shown_append_singleton, publish, ih hfiles]
      congr 1
      refine List.filter_eq_self.2 fun g hg => ?_
      have hne := hf g.uri (List.mem_map_of_mem hg) f.uri (by simp)
      simpa using hne

/-- Of files with diagnostics none is left out without a diagnostic being lost. -/
theorem eq_of_sublist_of_length {shown files : List FileDiagnostics} (h : shown.Sublist files)
    (hne : ∀ f ∈ files, f.diagnostics ≠ [])
    (hlength : (files.flatMap FileDiagnostics.diagnostics).length ≤
      (shown.flatMap FileDiagnostics.diagnostics).length) : shown = files := by
  induction h with
  | slnil => rfl
  | @cons shown files f hsub ih =>
    obtain ⟨hf, hne⟩ := List.forall_mem_cons.1 hne
    have hpos := List.length_pos_iff.2 hf
    have hle : (shown.flatMap FileDiagnostics.diagnostics).length ≤
        (files.flatMap FileDiagnostics.diagnostics).length :=
      (hsub.flatMap FileDiagnostics.diagnostics).length_le
    rw [List.flatMap_cons, List.length_append] at hlength
    omega
  | @cons_cons shown files f hsub ih =>
    obtain ⟨-, hne⟩ := List.forall_mem_cons.1 hne
    rw [List.flatMap_cons, List.flatMap_cons, List.length_append, List.length_append] at hlength
    rw [ih hne (by omega)]

end Editor

namespace FileDiagnostics

/-- The URIs of the files of issues, and their diagnostics, each as a list. -/
theorem map_eq_of_ofIssues {root : Text} {issues : List Issue} {files : List FileDiagnostics}
    (h : ofIssues root issues = .ok files) :
    files.map (fun f => .ok f.uri) =
        (Issues.files (issues.map (Issue.resolve root))).map FilePath.toUri ∧
      files.map FileDiagnostics.diagnostics =
        (Issues.files (issues.map (Issue.resolve root))).map fun file =>
          (Issues.within file (issues.map (Issue.resolve root))).map Issue.diagnostic := by
  have hfiles := (ofIssues_eq_ok_iff.1 h).flip
  constructor
  · rw [← List.forall₂_eq_eq_eq, List.forall₂_map_left_iff, List.forall₂_map_right_iff]
    exact hfiles.imp fun _ _ hf => hf.1.symm
  · rw [← List.forall₂_eq_eq_eq, List.forall₂_map_left_iff, List.forall₂_map_right_iff]
    exact hfiles.imp fun _ _ hf => hf.2

theorem diagnostics_ne_nil {root : Text} {issues : List Issue} {files : List FileDiagnostics}
    (h : ofIssues root issues = .ok files) : ∀ f ∈ files, f.diagnostics ≠ [] := by
  intro f hf
  have hmem : f.diagnostics ∈ files.map FileDiagnostics.diagnostics := List.mem_map_of_mem hf
  rw [(map_eq_of_ofIssues h).2] at hmem
  obtain ⟨file, hfile, hdiagnostics⟩ := List.mem_map.1 hmem
  obtain ⟨i, hi, rfl⟩ := Issues.mem_files.1 hfile
  have hwithin : i ∈ Issues.within i.file (issues.map (Issue.resolve root)) := by
    rw [Issues.within, List.mem_filter]
    exact ⟨hi, by simp⟩
  rw [← hdiagnostics]
  exact List.ne_nil_of_mem (List.mem_map_of_mem hwithin)

theorem exists_toUri_eq_ok {root : Text} {issues : List Issue} {files : List FileDiagnostics}
    (h : ofIssues root issues = .ok files) {file : Text}
    (hfile : file ∈ Issues.files (issues.map (Issue.resolve root))) :
    ∃ uri, FilePath.toUri file = .ok uri := by
  have hmem : FilePath.toUri file ∈
      (Issues.files (issues.map (Issue.resolve root))).map FilePath.toUri :=
    List.mem_map_of_mem hfile
  rw [← (map_eq_of_ofIssues h).1] at hmem
  obtain ⟨f, -, hf⟩ := List.mem_map.1 hmem
  exact ⟨f.uri, hf.symm⟩

/-- The URIs of the files of issues differ exactly when every file is spelled in one way. -/
theorem nodup_uri_iff {root : Text} {issues : List Issue} {files : List FileDiagnostics}
    (h : ofIssues root issues = .ok files) :
    (files.map FileDiagnostics.uri).Nodup ↔ Issues.SpelledAlike root issues := by
  have hmem {file : Text} : file ∈ Issues.files (issues.map (Issue.resolve root)) ↔
      ∃ i ∈ issues, resolvePath root i.file = file := by
    rw [Issues.mem_files]
    simp [Issue.resolve]
  have hsame {file file' : Text} (hfile : file ∈ Issues.files (issues.map (Issue.resolve root)))
      (hfile' : file' ∈ Issues.files (issues.map (Issue.resolve root))) :
      FilePath.toUri file = FilePath.toUri file' ↔
        FilePath.hostAndPath file = FilePath.hostAndPath file' := by
    obtain ⟨uri, huri⟩ := exists_toUri_eq_ok h hfile
    obtain ⟨uri', huri'⟩ := exists_toUri_eq_ok h hfile'
    rw [← FilePath.uri_eq_iff huri huri', huri, huri', Except.ok.injEq]
  have hok : Function.Injective (.ok : Text → Except LoneSurrogates Text) :=
    fun _ _ => Except.ok.inj
  have huris : (files.map FileDiagnostics.uri).map .ok =
      (Issues.files (issues.map (Issue.resolve root))).map FilePath.toUri := by
    rw [List.map_map]
    exact (map_eq_of_ofIssues h).1
  rw [← List.nodup_map_iff hok, huris, List.nodup_map_iff_inj_on (Issues.nodup_files _)]
  constructor
  · intro hinj i hi j hj hij
    have hfile := hmem.2 ⟨i, hi, rfl⟩
    have hfile' := hmem.2 ⟨j, hj, rfl⟩
    exact hinj _ hfile _ hfile' ((hsame hfile hfile').2 hij)
  · intro halike file hfile file' hfile' huri
    obtain ⟨i, hi, rfl⟩ := hmem.1 hfile
    obtain ⟨j, hj, rfl⟩ := hmem.1 hfile'
    exact halike i hi j hj ((hsame hfile hfile').1 huri)

end FileDiagnostics

namespace Editor

/-- **Grouping by path loses diagnostics exactly when a file is spelled in two ways.** The URIs of
the files differ exactly when every file is spelled in one way, and then and only then an editor
that takes the files one after the other shows the diagnostics of all issues. -/
theorem shown_ofIssues_iff {root : Text} {issues : List Issue} {files : List FileDiagnostics}
    (h : FileDiagnostics.ofIssues root issues = .ok files) :
    ((files.map FileDiagnostics.uri).Nodup ↔ Issues.SpelledAlike root issues) ∧
      (((shown files).flatMap FileDiagnostics.diagnostics).Perm
          ((issues.map (Issue.resolve root)).map Issue.diagnostic) ↔
        Issues.SpelledAlike root issues) := by
  have hperm := FileDiagnostics.flatMap_diagnostics_perm h
  have huris := FileDiagnostics.nodup_uri_iff h
  refine ⟨huris, ?_⟩
  rw [← huris, ← shown_eq_self_iff]
  constructor
  · intro hshown
    refine eq_of_sublist_of_length (shown_sublist files) (FileDiagnostics.diagnostics_ne_nil h) ?_
    exact (hperm.trans hshown.symm).length_eq.le
  · intro hshown
    rw [hshown]
    exact hperm

/-- Two files of a drive whose letter is spelled in two ways are both shown. -/
theorem shown_ofIssues_iff_drive :
    ((shown [⟨"file:///c%3A/w/A.elm", [⟨⟨⟨0, 0⟩, ⟨0, 0⟩⟩, "a - x", .error, "Elm"⟩]⟩,
        ⟨"file:///c%3A/w/B.elm", [⟨⟨⟨0, 0⟩, ⟨0, 0⟩⟩, "b - y", .error, "Elm"⟩]⟩]).flatMap
      FileDiagnostics.diagnostics).Perm
        [⟨⟨⟨0, 0⟩, ⟨0, 0⟩⟩, "a - x", .error, "Elm"⟩,
          ⟨⟨⟨0, 0⟩, ⟨0, 0⟩⟩, "b - y", .error, "Elm"⟩] := by
  have hfiles : FileDiagnostics.ofIssues "c:/w"
      [{ file := "./A.elm", region := .fileStart, overview := "a", details := "x" },
        { file := "C:/w/B.elm", region := .fileStart, overview := "b", details := "y" }] =
      .ok [⟨"file:///c%3A/w/A.elm", [⟨⟨⟨0, 0⟩, ⟨0, 0⟩⟩, "a - x", .error, "Elm"⟩]⟩,
        ⟨"file:///c%3A/w/B.elm", [⟨⟨⟨0, 0⟩, ⟨0, 0⟩⟩, "b - y", .error, "Elm"⟩]⟩] := rfl
  exact (shown_ofIssues_iff hfiles).2.2 (by decide)

/-- A file of a drive that is spelled in two ways has two entries with one URI. -/
theorem not_nodup_uri_drive :
    ¬ ∀ (root : Text) (issues : List Issue) (files : List FileDiagnostics),
      FileDiagnostics.ofIssues root issues = .ok files →
        (files.map FileDiagnostics.uri).Nodup := by
  intro h
  have hnodup := h "c:/w"
    [{ file := "C:\\w\\A.elm", region := .fileStart, overview := "a", details := "x" },
      { file := "c:/w/A.elm", region := .fileStart, overview := "b", details := "y" }] _ rfl
  exact absurd hnodup (by decide)

end Editor

end ElmReport
