import ElmReport.FileUri.Basic
import ElmReport.Proofs.FileUri.Percent
import ElmReport.Proofs.Text.Casing
import Mathlib.Data.List.TakeWhile

/-!
# What the URI of a path keeps

A URI does not tell backslashes from slashes, a relative path from a rooted one, nor capitals from
small letters in a host and in a drive. Nothing else is lost: two paths have the same URI exactly
when they name the same host and, with a small drive letter, the same rooted path.

## Main definitions

* `FilePath.OpensWithDrive`: a letter and a colon at the head of a text.
* `FilePath.hostAndPath`: the host that a path names, and the rooted path on it.

## Main results

* `FilePath.toUri_eq_ok_iff`: a URI is made of the host and the path.
* `FilePath.uri_eq_iff`: which paths have the same URI.
-/

namespace ElmReport

namespace Text

theorem cut_append_cons {p : CodePoint} {before : Text} (h : p ∉ before) (after : Text) :
    cut p (before ++ p :: after) = (before, some after) := by
  have hne : ∀ q ∈ before, (q != p) = true := by
    intro q hq
    rw [bne_iff_ne]
    rintro rfl
    exact h hq
  rw [cut, List.dropWhile_append_of_pos hne, List.takeWhile_append_of_pos hne]
  simp

/-- What a cut leaves before it. -/
theorem fst_cut (p : CodePoint) (t : Text) : (cut p t).1 = t.takeWhile (· != p) := by
  rw [cut]
  split
  · next h => exact (List.takeWhile_eq_self_iff.2 (by simpa using h)).symm
  · rfl

theorem not_mem_cut (p : CodePoint) (t : Text) : p ∉ (cut p t).1 := by
  rw [fst_cut]
  intro hp
  have hne := List.mem_takeWhile_imp hp
  simp at hne

end Text

namespace FilePath

open Outcome

/-! ### Drives -/

/-- A letter and a colon at the head of a text. -/
def OpensWithDrive (t : Text) : Prop :=
  ∃ letter rest, letter.isAsciiLetter = true ∧ t = letter :: .scalar ':' :: rest

theorem drive?_eq_some_iff {path rest : Text} {letter : CodePoint} :
    drive? path = some (letter, rest) ↔ letter.isAsciiLetter = true ∧
      (path = .scalar '/' :: letter :: .scalar ':' :: rest ∨
        path = letter :: .scalar ':' :: rest) := by
  have hslash : (CodePoint.scalar '/').isAsciiLetter = false := by decide
  rw [drive?.eq_def]
  split
  · next l t =>
    -- A slash is no letter, so a path with a slash in front of a drive is not one without.
    have hexclusive : CodePoint.scalar '/' :: l :: .scalar ':' :: t ≠
        letter :: .scalar ':' :: rest ∨ letter.isAsciiLetter = false := by
      by_cases hl : letter = .scalar '/'
      · exact .inr (hl ▸ hslash)
      · exact .inl fun h => hl (List.cons.inj h).1.symm
    grind
  · next l t _ => grind
  · next hrooted hplain => grind

theorem not_opensWithDrive_slash (t : Text) : ¬ OpensWithDrive (.scalar '/' :: t) := by
  rintro ⟨letter, rest, hletter, heq⟩
  exact CodePoint.ne_slash_of_isAsciiLetter hletter (List.cons.inj heq).1.symm

theorem drive?_slash_of_noDrive {t : Text} (h : ¬ OpensWithDrive t) :
    drive? (.scalar '/' :: t) = none := by
  rw [Option.eq_none_iff_forall_ne_some]
  rintro ⟨letter, rest⟩ hsome
  obtain ⟨hletter, heq | heq⟩ := drive?_eq_some_iff.1 hsome
  · exact h ⟨letter, rest, hletter, (List.cons.inj heq).2⟩
  · exact not_opensWithDrive_slash t ⟨letter, rest, hletter, heq⟩

theorem lowerDrive_of_drive {letter : CodePoint} (h : letter.isAsciiLetter = true) (rest : Text) :
    lowerDrive (.scalar '/' :: letter :: .scalar ':' :: rest) =
      .scalar '/' :: letter.asciiLower :: .scalar ':' :: rest := by
  rw [lowerDrive, drive?_slash h]

theorem lowerDrive_of_noDrive {t : Text} (h : ¬ OpensWithDrive t) :
    lowerDrive (.scalar '/' :: t) = .scalar '/' :: t := by
  rw [lowerDrive, drive?_slash_of_noDrive h]

/-! ### Hosts and rooted paths -/

theorem rooted_of_head?_ne {t : Text} (h : t.head? ≠ some (.scalar '/')) :
    rooted t = .scalar '/' :: t := by
  unfold rooted
  split
  · exact absurd rfl h
  · rfl

/-- The host that a path with slashes only names, and the rooted path on it. -/
def hostAndPathOfNormal : Text → Text × Text
  | .scalar '/' :: .scalar '/' :: t =>
    let (host, rest) := Text.cut (.scalar '/') t
    (host.lower, .scalar '/' :: rest.getD [])
  | t => ([], lowerDrive (rooted t))

/-- The host that a path names in small letters, empty when it names none, and the rooted path on
it. -/
def hostAndPath (path : Text) : Text × Text := hostAndPathOfNormal (normalize path)

theorem slash_not_mem_host (path : Text) : .scalar '/' ∉ (hostAndPath path).1 := by
  rw [hostAndPath, hostAndPathOfNormal.eq_def]
  split
  · exact Text.slash_not_mem_lower (Text.not_mem_cut _ _)
  · simp

theorem exists_rooted_eq (t : Text) : ∃ rest, rooted t = .scalar '/' :: rest := by
  unfold rooted
  split
  · exact ⟨_, rfl⟩
  · exact ⟨t, rfl⟩

theorem exists_slash_path (path : Text) : ∃ rest, (hostAndPath path).2 = .scalar '/' :: rest := by
  rw [hostAndPath, hostAndPathOfNormal.eq_def]
  split
  · exact ⟨_, rfl⟩
  · rw [lowerDrive]
    split
    · exact ⟨_, rfl⟩
    · exact exists_rooted_eq _

/-- The URI of a path is made of its host and its rooted path. -/
theorem toUri_eq_ok_iff {path u : Text} : toUri path = .ok u ↔
    ∃ host rest, Percent.encode (hostAndPath path).1 = .ok host ∧
      Percent.encode (hostAndPath path).2 = .ok rest ∧
        u = ("file://" : Text) ++ (host ++ rest) := by
  rw [toUri, hostAndPath]
  generalize normalize path = normal
  rw [uriOfNormal.eq_def, hostAndPathOfNormal.eq_def]
  split
  · simp only [bind_eq_ok_iff, pure_eq_ok_iff, Percent.encode_slash_eq_ok_iff]
    constructor
    · rintro ⟨host, hhost, rest, hrest, rfl⟩
      exact ⟨host, _, hhost, ⟨rest, hrest, rfl⟩, by simp⟩
    · rintro ⟨host, _, hhost, ⟨rest, hrest, rfl⟩, rfl⟩
      exact ⟨host, hhost, rest, hrest, by simp⟩
  · simp only [bind_eq_ok_iff, pure_eq_ok_iff, Percent.encode_nil_eq_ok_iff]
    constructor
    · rintro ⟨rest, hrest, rfl⟩
      exact ⟨[], rest, rfl, hrest, by simp⟩
    · rintro ⟨_, rest, rfl, hrest, rfl⟩
      exact ⟨rest, hrest, by simp⟩

/-- Two paths have the same URI exactly when they name the same host and the same rooted path. -/
theorem uri_eq_iff {p q u v : Text} (hp : toUri p = .ok u) (hq : toUri q = .ok v) :
    u = v ↔ hostAndPath p = hostAndPath q := by
  obtain ⟨host, rest, hhost, hrest, rfl⟩ := toUri_eq_ok_iff.1 hp
  obtain ⟨host', rest', hhost', hrest', rfl⟩ := toUri_eq_ok_iff.1 hq
  obtain ⟨t, ht⟩ := exists_slash_path p
  obtain ⟨t', ht'⟩ := exists_slash_path q
  constructor
  · intro huri
    have hslash := (Percent.encodes_of_encode hhost).slash_not_mem (slash_not_mem_host p)
    have hslash' := (Percent.encodes_of_encode hhost').slash_not_mem (slash_not_mem_host q)
    obtain ⟨e, he, rfl⟩ := Percent.encode_slash_eq_ok_iff.1 (ht ▸ hrest)
    obtain ⟨e', he', rfl⟩ := Percent.encode_slash_eq_ok_iff.1 (ht' ▸ hrest')
    -- The host ends at the first slash, so the URI can be cut apart again.
    have hcut := congrArg (Text.cut (.scalar '/')) (List.append_cancel_left huri)
    rw [Text.cut_append_cons hslash, Text.cut_append_cons hslash'] at hcut
    obtain ⟨rfl, htail⟩ := Prod.mk.inj hcut
    obtain rfl := Option.some.inj htail
    exact Prod.ext (Percent.encode_injective hhost hhost') (Percent.encode_injective hrest hrest')
  · intro h
    rw [h] at hhost hrest
    rw [Except.ok.inj (hhost.symm.trans hhost'), Except.ok.inj (hrest.symm.trans hrest')]

end FilePath

end ElmReport
