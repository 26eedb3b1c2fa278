import ElmReport.Proofs.Diagnostic.Grouping
import Mathlib.Data.List.Perm.Basic

/-!
# Grouping as a stable partition

The groups of some issues are told from the issues alone, without the order in which a map is
filled: their files are those that occur, the one that occurs first comes first, and a group holds
the issues of its file as they follow each other. There is only one such list of groups. Groups of
their own files that stand one after the other are such a list for their issues, so grouping what
has been grouped gives the same groups again.

## Main definitions

* `Issues.place`: where a file first occurs.
* `Issues.IsPartition`: the groups that part issues by their files.

## Main results

* `Issues.pairwise_files`: the files of issues stand by their first places.
* `Issues.IsPartition.eq`: issues are parted in one way only.
* `Issues.isPartition_flatMap`: groups part their issues, one group after the other.
* `Issues.group_stable`: grouping parts issues, and once more in the same way.
-/

namespace ElmReport.Issues

/-- The place of the first issue of a file; of a file that does not occur, the number of issues. -/
def place (issues : List Issue) (file : Text) : Nat := (issues.map Issue.file).idxOf file

/-- Groups that part issues by their files: there is a group for every file that occurs, the groups
stand by the first places of their files, and each of them holds the issues of its file in their
order. -/
structure IsPartition (issues : List Issue) (groups : List (Text × List Issue)) : Prop where
  occurs : ∀ file, file ∈ groups.map Prod.fst ↔ ∃ i ∈ issues, i.file = file
  ordered : (groups.map Prod.fst).Pairwise fun a b => place issues a < place issues b
  content : ∀ g ∈ groups, g.2 = within g.1 issues

/-! ### The groups of some issues -/

/-- The files of issues stand by their first places. -/
theorem pairwise_files (issues : List Issue) :
    (files issues).Pairwise fun a b => place issues a < place issues b := by
  induction issues using List.reverseRecOn with
  | nil => exact .nil
  | append_singleton issues i ih =>
    have hold {file : Text} (h : file ∈ files issues) :
        place (issues ++ [i]) file = place issues file ∧ place issues file < issues.length := by
      have hmem : file ∈ issues.map Issue.file := List.mem_map.2 (mem_files.1 h)
      have hlt := List.idxOf_lt_length_iff.2 hmem
      rw [List.length_map] at hlt
      rw [place, List.map_append, List.idxOf_append_of_mem hmem]
      exact ⟨rfl, hlt⟩
    have hpairs : (files issues).Pairwise fun a b =>
        place (issues ++ [i]) a < place (issues ++ [i]) b := by
      refine ih.imp_of_mem fun ha hb hlt => ?_
      rwa [(hold ha).1, (hold hb).1]
    rw [files_append_singleton]
    split_ifs with h
    · rwa [List.append_nil]
    · refine List.pairwise_append.2 ⟨hpairs, List.pairwise_singleton _ _, fun a ha b hb => ?_⟩
      obtain rfl := List.mem_singleton.1 hb
      have hnew : i.file ∉ issues.map Issue.file := fun hmem =>
        h (mem_files.2 (List.mem_map.1 hmem))
      have hplace : issues.length ≤ place (issues ++ [i]) i.file := by
        rw [place, List.map_append, List.idxOf_append_of_notMem hnew, List.length_map]
        exact Nat.le_add_right _ _
      rw [(hold ha).1]
      exact Nat.lt_of_lt_of_le (hold ha).2 hplace

theorem isPartition_group (issues : List Issue) : IsPartition issues (group issues) where
  occurs file := by rw [map_fst_group, mem_files]
  ordered := by
    rw [map_fst_group]
    exact pairwise_files issues
  content g hg := by
    rw [group_eq] at hg
    obtain ⟨file, -, rfl⟩ := List.mem_map.1 hg
    rfl

namespace IsPartition

variable {issues : List Issue} {groups groups' : List (Text × List Issue)}

theorem nodup (h : IsPartition issues groups) : (groups.map Prod.fst).Nodup :=
  h.ordered.imp fun hlt heq => Nat.ne_of_lt hlt (congrArg (place issues) heq)

theorem ne_nil (h : IsPartition issues groups) {g : Text × List Issue} (hg : g ∈ groups) :
    g.2 ≠ [] := by
  obtain ⟨i, hi, hfile⟩ := (h.occurs g.1).1 (List.mem_map_of_mem hg)
  rw [h.content g hg]
  refine List.ne_nil_of_mem (a := i) (List.mem_filter.2 ⟨hi, ?_⟩)
  simpa using hfile

/-- Issues are parted in one way only. -/
theorem eq (h : IsPartition issues groups) (h' : IsPartition issues groups') :
    groups = groups' := by
  have hperm : (groups.map Prod.fst).Perm (groups'.map Prod.fst) := by
    rw [List.perm_ext_iff_of_nodup h.nodup h'.nodup]
    exact fun file => (h.occurs file).trans (h'.occurs file).symm
  have hfiles : groups.map Prod.fst = groups'.map Prod.fst :=
    hperm.eq_of_pairwise (fun a b _ _ hab hba => absurd hab (Nat.lt_asymm hba)) h.ordered h'.ordered
  have hgroups {gs : List (Text × List Issue)} (h : IsPartition issues gs) :
      gs = (gs.map Prod.fst).map fun file => (file, within file issues) := by
    rw [List.map_map]
    refine (List.map_id gs).symm.trans (List.map_congr_left fun g hg => ?_)
    exact Prod.ext rfl (h.content g hg)
  rw [hgroups h, hgroups h', hfiles]

end IsPartition

/-! ### Grouping once more -/

/-- The places of files that do not occur in front move by the number of issues there. -/
theorem place_append {front : List Issue} {file : Text} (h : ∀ i ∈ front, i.file ≠ file)
    (issues : List Issue) : place (front ++ issues) file = front.length + place issues file := by
  have hnot : file ∉ front.map Issue.file := by
    intro hmem
    obtain ⟨i, hi, rfl⟩ := List.mem_map.1 hmem
    exact h i hi rfl
  rw [place, List.map_append, List.idxOf_append_of_notMem hnot, List.length_map, place]

/-- Groups part their issues, one group after the other, when every group holds issues of its file
and no file has two groups. -/
theorem isPartition_flatMap {groups : List (Text × List Issue)}
    (hnodup : (groups.map Prod.fst).Nodup)
    (hgroups : ∀ g ∈ groups, g.2 ≠ [] ∧ ∀ i ∈ g.2, i.file = g.1) :
    IsPartition (groups.flatMap Prod.snd) groups := by
  induction groups with
  | nil => exact ⟨by simp, .nil, by simp⟩
  | cons g groups ih =>
    obtain ⟨hnot, hnodup⟩ := List.nodup_cons.1 hnodup
    obtain ⟨⟨hne, hown⟩, hgroups⟩ := List.forall_mem_cons.1 hgroups
    have hrest := ih hnodup hgroups
    obtain ⟨i, is, his⟩ := List.exists_cons_of_ne_nil hne
    have hi : i ∈ g.2 := his ▸ List.mem_cons_self
    -- The first group holds no issue of another group's file.
    have hother {file : Text} (h : file ∈ groups.map Prod.fst) : ∀ j ∈ g.2, j.file ≠ file :=
      fun j hj heq => hnot (hown j hj ▸ heq ▸ h)
    refine ⟨fun file => ?_, ?_, ?_⟩
    · rw [List.map_cons, List.mem_cons, hrest.occurs, List.flatMap_cons]
      constructor
      · rintro (rfl | ⟨j, hj, rfl⟩)
        · exact ⟨i, List.mem_append_left _ hi, hown i hi⟩
        · exact ⟨j, List.mem_append_right _ hj, rfl⟩
      · rintro ⟨j, hj, rfl⟩
        rcases List.mem_append.1 hj with hj | hj
        · exact .inl (hown j hj)
        · exact .inr ⟨j, hj, rfl⟩
    · rw [List.map_cons, List.flatMap_cons]
      refine List.pairwise_cons.2 ⟨fun file hfile => ?_, ?_⟩
      · have hfirst : place (g.2 ++ groups.flatMap Prod.snd) g.1 = 0 := by
          rw [place, his, List.cons_append, List.map_cons, List.idxOf_cons_eq _ (hown i hi)]
        rw [hfirst, place_append (hother hfile)]
        exact Nat.add_pos_left (List.length_pos_of_ne_nil hne) _
      · refine hrest.ordered.imp_of_mem fun ha hb hlt => ?_
        rw [place_append (hother ha), place_append (hother hb)]
        exact Nat.add_lt_add_left hlt _
    · rw [List.flatMap_cons]
      refine List.forall_mem_cons.2 ⟨?_, fun g' hg' => ?_⟩
      · have hall : within g.1 g.2 = g.2 := by
          rw [within, List.filter_eq_self]
          simpa using hown
        have hnone : within g.1 (groups.flatMap Prod.snd) = [] :=
          within_eq_nil fun j hj heq => hnot ((hrest.occurs _).2 ⟨j, hj, heq⟩)
        rw [within_append, hall, hnone, List.append_nil]
      · rw [within_append, within_eq_nil (hother (List.mem_map_of_mem hg')), List.nil_append]
        exact hrest.content g' hg'

/-- **Grouping is a stable partition.** Grouping gives the one list of groups that parts the issues
by their files: no two groups are of the same file, their files are those that occur, in the order
in which they first do, and each group holds the issues of its file in their order, of which there
is at least one. So the groups hold every issue as often as it occurs, and when their issues are
grouped once more, one group after the other, the groups are the same. -/
theorem group_stable (issues : List Issue) :
    (∀ groups, IsPartition issues groups ↔ groups = group issues) ∧
      ((group issues).map Prod.fst).Nodup ∧
      (∀ g ∈ group issues, g.2 ≠ []) ∧
      ((group issues).flatMap Prod.snd).Perm issues ∧
      group ((group issues).flatMap Prod.snd) = group issues := by
  have hparts := isPartition_group issues
  refine ⟨fun groups => ⟨fun h => h.eq hparts, ?_⟩, hparts.nodup, fun g => hparts.ne_nil,
    flatMap_group_perm issues, ?_⟩
  · rintro rfl
    exact hparts
  · refine (isPartition_group _).eq (isPartition_flatMap hparts.nodup fun g hg => ?_)
    refine ⟨hparts.ne_nil hg, fun i hi => ?_⟩
    rw [hparts.content g hg] at hi
    simpa using (List.mem_filter.1 hi).2

end ElmReport.Issues
