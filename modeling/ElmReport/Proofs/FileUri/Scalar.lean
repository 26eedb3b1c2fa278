import ElmReport.Proofs.FileUri.Written

/-!
# Lone surrogates in paths

A URI cannot be written for a lone surrogate, and writing neither drops one nor makes one: a path
has a URI exactly when it has no lone surrogates. Reading brings none into the path either.

## Main results

* `FilePath.exists_toUri_iff`: which paths have a URI.
* `FilePath.isScalar_of_ofUri`: the path of a URI without lone surrogates.
-/

namespace ElmReport

theorem CodePoint.isScalar_of_isAsciiLetter {p : CodePoint} (h : p.isAsciiLetter = true) :
    p.IsScalar := by
  have hascii : p.val < 0x80 := by
    simp only [isAsciiLetter, Bool.or_eq_true, Bool.and_eq_true, decide_eq_true_eq] at h
    omega
  cases p with
  | scalar c => exact ⟨c, rfl⟩
  | surrogate s =>
    rw [val_surrogate] at hascii
    omega

/-- A cut drops nothing but the slash that it is made at. -/
theorem Text.isScalar_of_cut {t : Text} (hbefore : (cut (.scalar '/') t).1.IsScalar)
    (hafter : ((cut (.scalar '/') t).2.getD []).IsScalar) : t.IsScalar := by
  by_cases hslash : .scalar '/' ∈ t
  · obtain ⟨before, after, rfl, hnot⟩ := List.eq_append_cons_of_mem hslash
    rw [cut_append_cons hnot] at hbefore hafter
    exact isScalar_append.2 ⟨hbefore, isScalar_cons.2 ⟨⟨'/', rfl⟩, hafter⟩⟩
  · rwa [cut_of_not_mem hslash] at hbefore

/-! ### Decoding -/

namespace Percent

theorem isScalar_map_scalar (cs : List Char) : Text.IsScalar (cs.map CodePoint.scalar) :=
  Text.isScalar_iff.2 ⟨cs, rfl⟩

/-- What is decoded has no lone surrogates when the encoding has none. -/
theorem isScalar_decodeFrom {t : Text} (s : Utf8.State) (h : t.IsScalar) :
    (decodeFrom s t).IsScalar := by
  fun_induction decodeFrom s t with
  | case1 s => exact isScalar_map_scalar _
  | case2 s a b t byte _ ih =>
    have ht := (Text.isScalar_cons.1 (Text.isScalar_cons.1 (Text.isScalar_cons.1 h).2).2).2
    exact Text.isScalar_append.2 ⟨isScalar_map_scalar _, ih ht⟩
  | case3 s a b t _ ih =>
    exact Text.isScalar_append.2 ⟨isScalar_map_scalar _, ih (Text.isScalar_cons.1 h).2⟩
  | case4 s p t _ _ ih =>
    exact Text.isScalar_append.2 ⟨isScalar_map_scalar _, ih (Text.isScalar_cons.1 h).2⟩
  | case5 s p t _ _ ih =>
    obtain ⟨hp, ht⟩ := Text.isScalar_cons.1 h
    exact Text.isScalar_append.2 ⟨isScalar_map_scalar _, Text.isScalar_cons.2 ⟨hp, ih ht⟩⟩

end Percent

namespace UriParts

theorem sublist_stripped (t : Text) : (stripped t).Sublist t :=
  List.filter_sublist.trans (List.dropWhile_sublist _)

theorem sublist_splitScheme (t : Text) : (splitScheme t).2.Sublist t := by
  have hcut := (Text.sublist_cut (.scalar ':') t).2
  rw [splitScheme]
  split
  · next scheme rest h =>
    rw [h, Option.getD_some] at hcut
    split
    · exact hcut
    · exact List.Sublist.refl t
  · exact List.Sublist.refl t

theorem sublist_splitAuthority (t : Text) :
    (splitAuthority t).1.Sublist t ∧ (splitAuthority t).2.Sublist t := by
  rw [splitAuthority.eq_def]
  split
  · next t =>
    have ht := (List.sublist_cons_self (.scalar '/') t).trans
      (List.sublist_cons_self (.scalar '/') (.scalar '/' :: t))
    exact ⟨(List.takeWhile_sublist _).trans ht, (List.dropWhile_sublist _).trans ht⟩
  · exact ⟨List.nil_sublist _, List.Sublist.refl _⟩

theorem sublist_pathOf (t : Text) : (pathOf t).Sublist t :=
  (Text.sublist_cut _ _).1.trans (Text.sublist_cut _ _).1

/-- The authority and the path of a URI are parts of it. -/
theorem sublist_of_ofText {t : Text} {parts : UriParts} (h : ofText t = .ok parts) :
    parts.authority.Sublist t ∧ parts.path.Sublist t := by
  have hrest := (sublist_splitScheme (stripped t)).trans (sublist_stripped t)
  obtain ⟨hauthority, hpath⟩ := sublist_splitAuthority (splitScheme (stripped t)).2
  obtain ⟨-, -, h⟩ := Outcome.bind_eq_ok_iff.1 h
  obtain ⟨-, -, h⟩ := Outcome.bind_eq_ok_iff.1 h
  obtain rfl := Outcome.pure_eq_ok_iff.1 h
  exact ⟨hauthority.trans hrest, (sublist_pathOf _).trans (hpath.trans hrest)⟩

end UriParts

namespace FilePath

open Percent

/-! ### Reading -/

theorem isScalar_ofParts_of_isScalar {authority path : Text} (hauthority : authority.IsScalar)
    (hpath : path.IsScalar) : (ofParts authority path).IsScalar := by
  unfold ofParts
  split_ifs
  · exact Text.isScalar_append.2
      ⟨Text.isScalar_append.2 ⟨Text.isScalar_ofString _, hauthority⟩, hpath⟩
  · exact fun p hp => hpath p (List.mem_of_mem_drop hp)
  · exact hpath

/-- The path of a URI has no lone surrogates when the URI has none. -/
theorem isScalar_of_ofUri {uri path : Text} (h : ofUri uri = .ok path) (huri : uri.IsScalar) :
    path.IsScalar := by
  obtain ⟨parts, hparts, h⟩ := Outcome.bind_eq_ok_iff.1 h
  obtain ⟨hauthority, hpath⟩ := UriParts.sublist_of_ofText hparts
  split_ifs at h
  obtain rfl := Outcome.pure_eq_ok_iff.1 h
  exact isScalar_ofParts_of_isScalar (fun p hp => huri p (hauthority.subset hp))
    (isScalar_decodeFrom _ fun p hp => huri p (hpath.subset hp))

/-! ### Writing -/

theorem isScalar_of_normalize {path : Text} (h : (normalize path).IsScalar) : path.IsScalar := by
  intro p hp
  by_cases hback : p = .scalar '\x5c'
  · exact ⟨'\x5c', hback⟩
  · have hmem : p ∈ normalize path := List.mem_map.2 ⟨p, hp, if_neg hback⟩
    exact h p hmem

theorem isScalar_of_rooted {t : Text} (h : (rooted t).IsScalar) : t.IsScalar := by
  unfold rooted at h
  split at h
  · exact h
  · exact (Text.isScalar_cons.1 h).2

theorem isScalar_of_lowerDrive {t : Text} (h : (lowerDrive t).IsScalar) : t.IsScalar := by
  rw [lowerDrive] at h
  split at h
  · next letter rest hdrive =>
    have hcolon : Text.IsScalar (.scalar ':' :: rest) :=
      (Text.isScalar_cons.1 (Text.isScalar_cons.1 h).2).2
    obtain ⟨hletter, hpath⟩ := drive?_eq_some_iff.1 hdrive
    have hdriveScalar : Text.IsScalar (letter :: .scalar ':' :: rest) :=
      Text.isScalar_cons.2 ⟨CodePoint.isScalar_of_isAsciiLetter hletter, hcolon⟩
    rcases hpath with rfl | rfl
    · exact Text.isScalar_cons.2 ⟨⟨'/', rfl⟩, hdriveScalar⟩
    · exact hdriveScalar
  · exact h

theorem isScalar_of_hostAndPath {path : Text} (hhost : (hostAndPath path).1.IsScalar)
    (hpath : (hostAndPath path).2.IsScalar) : path.IsScalar := by
  apply isScalar_of_normalize
  revert hhost hpath
  rw [hostAndPath]
  generalize normalize path = normal
  rw [hostAndPathOfNormal.eq_def]
  split <;> intro hhost hpath
  · next t =>
    have ht := Text.isScalar_of_cut (Text.isScalar_lower_iff.1 hhost) (Text.isScalar_cons.1 hpath).2
    exact Text.isScalar_cons.2 ⟨⟨'/', rfl⟩, Text.isScalar_cons.2 ⟨⟨'/', rfl⟩, ht⟩⟩
  · exact isScalar_of_rooted (isScalar_of_lowerDrive hpath)

/-- A path has a URI exactly when it has no lone surrogates. -/
theorem exists_toUri_iff {path : Text} : (∃ u, toUri path = .ok u) ↔ path.IsScalar := by
  refine ⟨?_, exists_toUri_of_isScalar⟩
  rintro ⟨u, hu⟩
  obtain ⟨host, rest, hhost, hrest, -⟩ := toUri_eq_ok_iff.1 hu
  exact isScalar_of_hostAndPath (isScalar_of_encode hhost) (isScalar_of_encode hrest)

end FilePath

end ElmReport
