import ElmReport.Diagnostic.Group
import ElmReport.Proofs.Outcome
import Mathlib.Data.List.Induction

/-!
# Groups of issues

Grouping is described without going through the issues one by one: there is a group for every file
that occurs, in the order of the first occurrences, and it holds the issues of its file in their
order. No issue gets lost and none is doubled.

## Main definitions

* `Issues.files`: the files of issues, in the order of their first occurrence.
* `Issues.within`: the issues of a file.

## Main results

* `Issues.group_eq`: the groups of some issues.
* `Issues.flatMap_group_perm`: the issues of all groups together.
* `FileDiagnostics.ofIssues_eq_ok_iff`: the diagnostics of issues, file by file.
* `FileDiagnostics.exists_of_mem_issues`: where the diagnostics of an issue stand.
* `FileDiagnostics.flatMap_diagnostics_perm`: the diagnostics of all files together.
-/

namespace ElmReport

namespace Issues

/-- The files of issues, in the order of their first occurrence. -/
def files (issues : List Issue) : List Text := (issues.map Issue.file).eraseDups

/-- The issues of a file, in their order. -/
def within (file : Text) (issues : List Issue) : List Issue :=
  issues.filter fun i => i.file = file

theorem mem_files {issues : List Issue} {file : Text} :
    file ∈ files issues ↔ ∃ i ∈ issues, i.file = file := by
  rw [files, List.mem_eraseDups, List.mem_map]

theorem files_append_singleton (issues : List Issue) (i : Issue) :
    files (issues ++ [i]) = files issues ++ if i.file ∈ files issues then [] else [i.file] := by
  have hmem : i.file ∈ files issues ↔ i.file ∈ issues.map Issue.file := List.mem_eraseDups
  rw [files, List.map_append, List.eraseDups_append, List.map_singleton, List.removeAll,
    List.filter_cons, List.filter_nil]
  by_cases h : i.file ∈ issues.map Issue.file
  · rw [if_pos (hmem.2 h), if_neg (by simpa using h)]
    rfl
  · rw [if_neg (mt hmem.1 h), if_pos (by simpa using h)]
    rfl

theorem within_append_singleton (file : Text) (issues : List Issue) (i : Issue) :
    within file (issues ++ [i]) = within file issues ++ if i.file = file then [i] else [] := by
  by_cases h : i.file = file <;> simp [within, h]

theorem within_append (file : Text) (issues more : List Issue) :
    within file (issues ++ more) = within file issues ++ within file more :=
  List.filter_append issues more

theorem within_eq_nil {file : Text} {issues : List Issue} (h : ∀ i ∈ issues, i.file ≠ file) :
    within file issues = [] := by
  rw [within, List.filter_eq_nil_iff]
  intro i hi
  simpa using h i hi

theorem nodup_files (issues : List Issue) : (files issues).Nodup := by
  induction issues using List.reverseRecOn with
  | nil => exact List.nodup_nil
  | append_singleton issues i ih =>
    rw [files_append_singleton]
    split_ifs with h
    · rwa [List.append_nil]
    · refine List.nodup_append.2 ⟨ih, by simp, ?_⟩
      rintro file hfile _ hi rfl
      rw [List.mem_singleton] at hi
      exact h (hi ▸ hfile)

/-- One more issue goes to the end of the group of its file, or into a group of its own. -/
private theorem add_map {keys : List Text} (hkeys : keys.Nodup) (i : Issue)
    (content : Text → List Issue) :
    add i (keys.map fun key => (key, content key)) =
      (keys.map fun key => (key, content key ++ if i.file = key then [i] else [])) ++
        if i.file ∈ keys then [] else [(i.file, [i])] := by
  induction keys with
  | nil => rfl
  | cons key keys ih =>
    obtain ⟨hnot, hkeys⟩ := List.nodup_cons.1 hkeys
    rw [List.map_cons, List.map_cons, add]
    by_cases h : key = i.file
    · subst h
      have hrest : (keys.map fun key => (key, content key ++ if i.file = key then [i] else [])) =
          keys.map fun key => (key, content key) := by
        refine List.map_congr_left fun key hkey => ?_
        have hne : i.file ≠ key := fun h => hnot (h ▸ hkey)
        rw [if_neg hne, List.append_nil]
      simp [hrest]
    · have hne : i.file ≠ key := Ne.symm h
      rw [if_neg h, ih hkeys, if_neg hne, List.append_nil, List.cons_append]
      simp only [List.mem_cons, hne, false_or]

/-- There is a group for every file that occurs, and it holds the issues of its file. -/
theorem group_eq (issues : List Issue) :
    group issues = (files issues).map fun file => (file, within file issues) := by
  induction issues using List.reverseRecOn with
  | nil => rfl
  | append_singleton issues i ih =>
    rw [group_append_singleton, ih, add_map (nodup_files issues), files_append_singleton,
      List.map_append]
    congr 1
    · exact List.map_congr_left fun file _ => by rw [within_append_singleton]
    · split_ifs with h
      · rfl
      · have hnone : within i.file issues = [] :=
          within_eq_nil fun j hj heq => h (mem_files.2 ⟨j, hj, heq⟩)
        simp [within_append_singleton, hnone]

/-- The files of the groups of issues. -/
theorem map_fst_group (issues : List Issue) : (group issues).map Prod.fst = files issues := by
  rw [group_eq, List.map_map]
  exact List.map_id _

/-- The groups together hold every issue as often as it occurs. -/
theorem flatMap_group_perm (issues : List Issue) :
    ((group issues).flatMap Prod.snd).Perm issues := by
  have hadd (i : Issue) (groups : List (Text × List Issue)) :
      ((add i groups).flatMap Prod.snd).Perm (groups.flatMap Prod.snd ++ [i]) := by
    induction groups with
    | nil => exact .refl _
    | cons g gs ih =>
      rw [add]
      split_ifs
      · have hcomm : ([i] ++ gs.flatMap Prod.snd).Perm (gs.flatMap Prod.snd ++ [i]) :=
          List.perm_append_comm
        simpa using hcomm.append_left g.2
      · simpa using ih.append_left g.2
  induction issues using List.reverseRecOn with
  | nil => exact .refl _
  | append_singleton issues i ih =>
    rw [group_append_singleton]
    exact (hadd i _).trans (ih.append_right [i])

end Issues

namespace FileDiagnostics

open Outcome

theorem ofGroup_eq_ok_iff {g : Text × List Issue} {f : FileDiagnostics} :
    ofGroup g = .ok f ↔
      FilePath.toUri g.1 = .ok f.uri ∧ f.diagnostics = g.2.map Issue.diagnostic := by
  obtain ⟨uri, diagnostics⟩ := f
  rw [ofGroup, bind_eq_ok_iff]
  simp only [pure_eq_ok_iff, FileDiagnostics.mk.injEq]
  constructor
  · rintro ⟨uri, huri, rfl, rfl⟩
    exact ⟨huri, rfl⟩
  · rintro ⟨huri, rfl⟩
    exact ⟨uri, huri, rfl, rfl⟩

/-- The diagnostics of issues are made file by file. -/
theorem ofIssues_eq_ok_iff {root : Text} {issues : List Issue} {fs : List FileDiagnostics} :
    ofIssues root issues = .ok fs ↔
      List.Forall₂ (fun file f => FilePath.toUri file = .ok f.uri ∧
          f.diagnostics =
            (Issues.within file (issues.map (Issue.resolve root))).map Issue.diagnostic)
        (Issues.files (issues.map (Issue.resolve root))) fs := by
  rw [ofIssues, mapM_eq_ok_iff, Issues.group_eq, List.forall₂_map_left_iff]
  simp only [ofGroup_eq_ok_iff]

/-- The diagnostics of an issue stand with the URI of its path, among those of all issues with this
path. -/
theorem exists_of_mem_issues {root : Text} {issues : List Issue} {fs : List FileDiagnostics}
    (h : ofIssues root issues = .ok fs) {i : Issue} (hi : i ∈ issues) :
    ∃ f ∈ fs, FilePath.toUri (resolvePath root i.file) = .ok f.uri ∧ f.diagnostics =
      (Issues.within (resolvePath root i.file) (issues.map (Issue.resolve root))).map
        Issue.diagnostic := by
  have hpath : resolvePath root i.file ∈ Issues.files (issues.map (Issue.resolve root)) :=
    Issues.mem_files.2 ⟨i.resolve root, List.mem_map_of_mem hi, rfl⟩
  exact exists_mem_of_forall₂ (ofIssues_eq_ok_iff.1 h) hpath

/-- The diagnostics of a file are those of the issues with the path of one of them. -/
theorem exists_issue_of_mem {root : Text} {issues : List Issue} {fs : List FileDiagnostics}
    (h : ofIssues root issues = .ok fs) {f : FileDiagnostics} (hf : f ∈ fs) :
    ∃ i ∈ issues, f.diagnostics =
      (Issues.within (resolvePath root i.file) (issues.map (Issue.resolve root))).map
        Issue.diagnostic := by
  obtain ⟨path, hpath, -, hshown⟩ := exists_mem_of_forall₂ (ofIssues_eq_ok_iff.1 h).flip hf
  obtain ⟨_, hresolved, rfl⟩ := Issues.mem_files.1 hpath
  obtain ⟨i, hi, rfl⟩ := List.mem_map.1 hresolved
  exact ⟨i, hi, hshown⟩

/-- The diagnostics of all files together are those of the issues. -/
theorem flatMap_diagnostics_perm {root : Text} {issues : List Issue} {fs : List FileDiagnostics}
    (h : ofIssues root issues = .ok fs) :
    (fs.flatMap FileDiagnostics.diagnostics).Perm
      ((issues.map (Issue.resolve root)).map Issue.diagnostic) := by
  have hgroups {gs : List (Text × List Issue)} {fs : List FileDiagnostics}
      (hgs : List.Forall₂ (fun g f => ofGroup g = .ok f) gs fs) :
      fs.flatMap FileDiagnostics.diagnostics = (gs.flatMap Prod.snd).map Issue.diagnostic := by
    induction hgs with
    | nil => rfl
    | cons hg _ ih =>
      rw [List.flatMap_cons, List.flatMap_cons, List.map_append, ih, (ofGroup_eq_ok_iff.1 hg).2]
  rw [hgroups (mapM_eq_ok_iff.1 h)]
  exact (Issues.flatMap_group_perm _).map Issue.diagnostic

end FileDiagnostics

end ElmReport
