import ElmReport.FileUri.Parts
import ElmReport.Proofs.FileUri.Normal

/-!
# Taking apart a URI that was written

In an encoding stand unreserved code points and percent signs only. So nothing in the URI of a path
is stripped or cut off, and no check of its authority fails: it falls apart into the scheme of
files, the encoded host and the encoded path, and the path of the URI is that which was encoded.

## Main definitions

* `Percent.IsWritten`: the code points that stand in an encoding.
* `UriParts.BreaksPath`: the code points that cannot stand in a path as they are.

## Main results

* `UriParts.ofText_file`: the parts of a URI in which nothing needs an escape.
* `FilePath.ofUri_of_toUri`: the path of the URI of a path, by its host and its rooted path.
-/

namespace ElmReport

theorem Text.isScalar_iff {t : Text} :
    t.IsScalar ↔ ∃ cs : List Char, t = cs.map CodePoint.scalar := by
  constructor
  · intro h
    induction t with
    | nil => exact ⟨[], rfl⟩
    | cons p t ih =>
      obtain ⟨⟨c, rfl⟩, ht⟩ := isScalar_cons.1 h
      obtain ⟨cs, rfl⟩ := ih ht
      exact ⟨c :: cs, rfl⟩
  · rintro ⟨cs, rfl⟩ p hp
    obtain ⟨c, -, rfl⟩ := List.mem_map.1 hp
    exact ⟨c, rfl⟩

namespace Percent

/-! ### What stands in an encoding -/

/-- The code points that stand in an encoding. -/
def IsWritten (p : CodePoint) : Prop := isUnreserved p = true ∨ p = .scalar '%'

instance (p : CodePoint) : Decidable (IsWritten p) := inferInstanceAs (Decidable (_ ∨ _))

theorem IsWritten.val_lt {p : CodePoint} (h : IsWritten p) : p.val < 0x80 := by
  rcases h with h | rfl
  · exact isAscii_of_isUnreserved h
  · decide

theorem isUnreserved_capitalDigit {n : Nat} (h : n < 16) :
    isUnreserved (capitalDigit n) = true := by
  have hall : ∀ i : Fin 16, isUnreserved (capitalDigit i) = true := by decide
  exact hall ⟨n, h⟩

theorem isWritten_of_mem_encodeByte {b : UInt8} {p : CodePoint} (h : p ∈ encodeByte b) :
    IsWritten p := by
  have hb : b.toNat < 256 := b.toNat_lt
  by_cases hself : isUnreserved (.ofNat b.toNat) = true
  · rw [encodeByte, if_pos hself, List.mem_singleton] at h
    exact .inl (h ▸ hself)
  · rw [encodeByte_of_reserved (by simpa using hself)] at h
    simp only [List.mem_cons, List.not_mem_nil, or_false] at h
    rcases h with rfl | rfl | rfl
    · exact .inr rfl
    · exact .inl (isUnreserved_capitalDigit (by omega))
    · exact .inl (isUnreserved_capitalDigit (by omega))

/-- Only unreserved code points and percent signs stand in an encoding. -/
theorem isWritten_of_encode {t e : Text} (h : encode t = .ok e) : ∀ p ∈ e, IsWritten p := by
  obtain ⟨bytes, -, rfl⟩ := Outcome.map_eq_ok_iff.1 h
  intro p hp
  obtain ⟨b, -, hb⟩ := List.mem_flatMap.1 hp
  exact isWritten_of_mem_encodeByte hb

theorem encode_map_scalar (cs : List Char) : encode (cs.map CodePoint.scalar) =
    .ok (cs.flatMap fun c => (Utf8.encode c).flatMap encodeByte) := by
  rw [encode, Text.utf8_eq_ok_iff.2 ⟨cs, rfl, rfl⟩, Except.map, List.flatMap_assoc]

theorem isScalar_of_encode {t e : Text} (h : encode t = .ok e) : t.IsScalar := by
  obtain ⟨bytes, hbytes, -⟩ := Outcome.map_eq_ok_iff.1 h
  obtain ⟨cs, rfl, -⟩ := Text.utf8_eq_ok_iff.1 hbytes
  exact Text.isScalar_iff.2 ⟨cs, rfl⟩

/-- A text without lone surrogates has an encoding. -/
theorem exists_encode_eq_ok {t : Text} (h : t.IsScalar) : ∃ e, encode t = .ok e := by
  obtain ⟨cs, rfl⟩ := Text.isScalar_iff.1 h
  exact ⟨_, encode_map_scalar cs⟩

/-- Unreserved code points are written as they are. -/
theorem encode_of_isUnreserved {t : Text} (h : ∀ p ∈ t, isUnreserved p = true) :
    encode t = .ok t := by
  have hscalar : t.IsScalar := Text.isScalar_of_ascii fun p hp => isAscii_of_isUnreserved (h p hp)
  obtain ⟨cs, rfl⟩ := Text.isScalar_iff.1 hscalar
  have hself (c : Char) (hc : c ∈ cs) : (Utf8.encode c).flatMap encodeByte = [.scalar c] :=
    flatMap_encodeByte_of_isUnreserved (h _ (List.mem_map_of_mem hc))
  rw [encode_map_scalar, List.flatMap_congr hself, ← List.map_eq_flatMap]

end Percent

namespace Text

theorem cut_of_not_mem {p : CodePoint} {t : Text} (h : p ∉ t) : cut p t = (t, none) := by
  have hdrop : t.dropWhile (· != p) = [] := by
    rw [List.dropWhile_eq_nil_iff]
    intro q hq
    rw [bne_iff_ne]
    rintro rfl
    exact h hq
  rw [cut, hdrop]

/-- What a cut gives are parts of the text. -/
theorem sublist_cut (p : CodePoint) (t : Text) :
    (cut p t).1.Sublist t ∧ ((cut p t).2.getD []).Sublist t := by
  by_cases hp : p ∈ t
  · obtain ⟨before, after, rfl, hbefore⟩ := List.eq_append_cons_of_mem hp
    rw [cut_append_cons hbefore]
    exact ⟨List.sublist_append_left .., (List.sublist_cons_self ..).trans
      (List.sublist_append_right ..)⟩
  · rw [cut_of_not_mem hp]
    exact ⟨List.Sublist.refl t, List.nil_sublist t⟩

theorem isScalar_cut {p : CodePoint} {t : Text} (h : t.IsScalar) :
    (cut p t).1.IsScalar ∧ ((cut p t).2.getD []).IsScalar :=
  ⟨fun q hq => h q ((sublist_cut p t).1.subset hq),
    fun q hq => h q ((sublist_cut p t).2.subset hq)⟩

end Text

namespace UriParts

open Percent

/-! ### The parts of a URI of a file -/

/-- The code points that cannot stand as they are in the path of a URI: tabs and line breaks are
stripped, and a question mark or a number sign ends the path. -/
def BreaksPath (p : CodePoint) : Prop :=
  p = .scalar '\t' ∨ p = .scalar '\r' ∨ p = .scalar '\n' ∨ p = .scalar '?' ∨ p = .scalar '#'

instance (p : CodePoint) : Decidable (BreaksPath p) := inferInstanceAs (Decidable (_ ∨ _))

theorem ne_of_isWritten {p q : CodePoint} (h : IsWritten p) (hq : ¬ IsWritten q) : p ≠ q := by
  rintro rfl
  exact hq h

theorem not_breaksPath_of_isWritten {p : CodePoint} (h : IsWritten p) : ¬ BreaksPath p := by
  rintro (rfl | rfl | rfl | rfl | rfl) <;> exact absurd h (by decide)

theorem not_breaksPath_of_isAsciiLetter {p : CodePoint} (h : p.isAsciiLetter = true) :
    ¬ BreaksPath p := by
  rintro (rfl | rfl | rfl | rfl | rfl) <;> exact absurd h (by decide)

/-- Nothing is stripped from a URI that opens with a letter and holds no tabs and line breaks. -/
theorem stripped_eq_self {p : CodePoint} {t : Text} (hletter : p.isAsciiLetter = true)
    (h : ∀ q ∈ p :: t, ¬ BreaksPath q) : stripped (p :: t) = p :: t := by
  have hval : ¬ p.val ≤ 0x20 := by
    simp only [CodePoint.isAsciiLetter, Bool.or_eq_true, Bool.and_eq_true,
      decide_eq_true_eq] at hletter
    omega
  rw [stripped, List.dropWhile_cons_of_neg (by simpa using hval), List.filter_eq_self]
  intro q hq
  have hbreaks := h q hq
  simp only [BreaksPath, not_or] at hbreaks
  simp [hbreaks]

section

variable {scheme : Text} (hscheme : scheme.map CodePoint.asciiLower = ("file" : Text))

include hscheme

theorem isAsciiLetter_of_mem_scheme : ∀ p ∈ scheme, p.isAsciiLetter = true := by
  have hfile : ∀ p ∈ ("file" : Text), p.isAsciiLetter = true := by decide
  intro p hp
  exact CodePoint.isAsciiLetter_of_asciiLower
    (hfile _ (hscheme ▸ List.mem_map_of_mem (f := CodePoint.asciiLower) hp))

theorem exists_scheme_eq_cons : ∃ p t, scheme = p :: t := by
  refine List.exists_cons_of_ne_nil ?_
  rintro rfl
  exact nomatch hscheme

/-- The scheme of files is recognized in letters of either case. -/
theorem splitScheme_file (t : Text) :
    splitScheme (scheme ++ .scalar ':' :: t) = (("file" : Text), t) := by
  have hletters := isAsciiLetter_of_mem_scheme hscheme
  have hcolon : .scalar ':' ∉ scheme := fun h => absurd (hletters _ h) (by decide)
  have hall : scheme.all isSchemePart = true := by
    rw [List.all_eq_true]
    intro p hp
    simp [isSchemePart, hletters p hp]
  have hhead : scheme.head?.any CodePoint.isAsciiLetter = true := by
    obtain ⟨p, rest, rfl⟩ := exists_scheme_eq_cons hscheme
    exact hletters p List.mem_cons_self
  rw [splitScheme, Text.cut_append_cons hcolon]
  simp only [hhead, hall, Bool.and_self, if_true, hscheme]

end

/-- An authority in which nothing ends it reaches to the slash after it. -/
theorem splitAuthority_slashes {host : Text} (h : ∀ p ∈ host, endsAuthority p = false)
    (path : Text) : splitAuthority (("//" : Text) ++ (host ++ .scalar '/' :: path)) =
      (host, .scalar '/' :: path) := by
  have hhost : ∀ p ∈ host, (!endsAuthority p) = true := by simpa using h
  have hsplit (t : Text) : splitAuthority (("//" : Text) ++ t) =
      (t.takeWhile (fun p => !endsAuthority p), t.dropWhile fun p => !endsAuthority p) := rfl
  rw [hsplit, List.takeWhile_append_of_pos hhost, List.dropWhile_append_of_pos hhost]
  simp [endsAuthority]

theorem checkBrackets_of_not_mem {host : Text} (hleft : .scalar '[' ∉ host)
    (hright : .scalar ']' ∉ host) : checkBrackets host = .ok () := by
  have hl : host.contains (.scalar '[') = false := by simpa using hleft
  have hr : host.contains (.scalar ']') = false := by simpa using hright
  rw [checkBrackets, hl, hr]

theorem checkCompatibility_of_ascii {host : Text} (h : ∀ p ∈ host, p.val < 0x80) :
    checkCompatibility host = .ok () := by
  have hany : host.any hidesDelimiter = false := by
    rw [List.any_eq_false]
    intro p hp
    have hp := h p hp
    simp only [hidesDelimiter, List.contains_eq_mem, List.mem_cons, List.not_mem_nil, or_false,
      decide_eq_true_eq]
    omega
  rw [checkCompatibility, hany]
  rfl

theorem pathOf_of_not_mem {t : Text} (hnumber : .scalar '#' ∉ t) (hquestion : .scalar '?' ∉ t) :
    pathOf t = t := by
  rw [pathOf, Text.cut_of_not_mem hnumber, Text.cut_of_not_mem hquestion]

/-- **The URI of a file falls apart into what it was made of**, in letters of either case for its
scheme, when its authority was written and nothing in its path breaks it. -/
theorem ofText_file {scheme host path : Text}
    (hscheme : scheme.map CodePoint.asciiLower = ("file" : Text))
    (hhost : ∀ p ∈ host, IsWritten p) (hslash : .scalar '/' ∉ host)
    (hpath : ∀ p ∈ path, ¬ BreaksPath p) :
    ofText (scheme ++ (("://" : Text) ++ (host ++ .scalar '/' :: path))) =
      .ok ⟨"file", host, .scalar '/' :: path⟩ := by
  have hrooted : ∀ p ∈ CodePoint.scalar '/' :: path, ¬ BreaksPath p :=
    List.forall_mem_cons.2 ⟨by decide, hpath⟩
  have hstripped : stripped (scheme ++ (("://" : Text) ++ (host ++ .scalar '/' :: path))) =
      scheme ++ (("://" : Text) ++ (host ++ .scalar '/' :: path)) := by
    have hmarks : ∀ p ∈ ("://" : Text), ¬ BreaksPath p := by decide
    have hletters := isAsciiLetter_of_mem_scheme hscheme
    have hall : ∀ p ∈ scheme ++ (("://" : Text) ++ (host ++ .scalar '/' :: path)),
        ¬ BreaksPath p := by
      simp only [List.forall_mem_append]
      exact ⟨fun p hp => not_breaksPath_of_isAsciiLetter (hletters p hp), hmarks,
        fun p hp => not_breaksPath_of_isWritten (hhost p hp), hrooted⟩
    obtain ⟨p, rest, rfl⟩ := exists_scheme_eq_cons hscheme
    exact stripped_eq_self (hletters p List.mem_cons_self) hall
  have hends : ∀ p ∈ host, endsAuthority p = false := by
    intro p hp
    have hquestion := ne_of_isWritten (q := .scalar '?') (hhost p hp) (by decide)
    have hnumber := ne_of_isWritten (q := .scalar '#') (hhost p hp) (by decide)
    have hne : p ≠ .scalar '/' := fun h => hslash (h ▸ hp)
    simp [endsAuthority, hne, hquestion, hnumber]
  have hleft : .scalar '[' ∉ host := fun hp => ne_of_isWritten (hhost _ hp) (by decide) rfl
  have hright : .scalar ']' ∉ host := fun hp => ne_of_isWritten (hhost _ hp) (by decide) rfl
  have hnumber : .scalar '#' ∉ CodePoint.scalar '/' :: path :=
    fun hp => hrooted _ hp (by decide)
  have hquestion : .scalar '?' ∉ CodePoint.scalar '/' :: path :=
    fun hp => hrooted _ hp (by decide)
  have hascii : ∀ p ∈ host, p.val < 0x80 := fun p hp => (hhost p hp).val_lt
  have hscheme' := splitScheme_file hscheme (("//" : Text) ++ (host ++ .scalar '/' :: path))
  change splitScheme (scheme ++ (("://" : Text) ++ (host ++ .scalar '/' :: path))) = _ at hscheme'
  simp only [ofText, hstripped, hscheme', splitAuthority_slashes hends,
    checkBrackets_of_not_mem hleft hright, checkCompatibility_of_ascii hascii,
    pathOf_of_not_mem hnumber hquestion]
  rfl

end UriParts

namespace FilePath

open Percent

/-- The URI of a path falls apart into the encoding of its host and of its rooted path. -/
theorem exists_ofText_of_toUri {path u : Text} (h : toUri path = .ok u) :
    ∃ host written, encode (hostAndPath path).1 = .ok host ∧
      encode (hostAndPath path).2 = .ok written ∧
        UriParts.ofText u = .ok ⟨"file", host, written⟩ := by
  obtain ⟨host, written, hhost, hwritten, rfl⟩ := toUri_eq_ok_iff.1 h
  obtain ⟨rest, hrest⟩ := exists_slash_path path
  obtain ⟨tail, htail, rfl⟩ := encode_slash_eq_ok_iff.1 (hrest ▸ hwritten)
  have hscheme : ("file" : Text).map CodePoint.asciiLower = ("file" : Text) := rfl
  have hparts := UriParts.ofText_file hscheme (isWritten_of_encode hhost)
    ((encodes_of_encode hhost).slash_not_mem (slash_not_mem_host path))
    fun p hp => UriParts.not_breaksPath_of_isWritten (isWritten_of_encode htail p hp)
  exact ⟨host, _, hhost, hwritten, hparts⟩

/-- **The path of the URI of a path** is made of the encoding of its host and of its rooted path. -/
theorem ofUri_of_toUri {path u : Text} (h : toUri path = .ok u) :
    ∃ host, encode (hostAndPath path).1 = .ok host ∧
      ofUri u = .ok (ofParts host (hostAndPath path).2) := by
  obtain ⟨host, written, hhost, hwritten, hparts⟩ := exists_ofText_of_toUri h
  refine ⟨host, hhost, ?_⟩
  rw [ofUri, hparts]
  change Except.ok _ = _
  rw [(encodes_of_encode hwritten).decode_eq]

/-! ### Which paths have a URI -/

theorem isScalar_normalize {path : Text} (h : path.IsScalar) : (normalize path).IsScalar := by
  intro p hp
  obtain ⟨q, hq, rfl⟩ := List.mem_map.1 hp
  split
  · exact ⟨'/', rfl⟩
  · exact h q hq

theorem isScalar_rooted {t : Text} (h : t.IsScalar) : (rooted t).IsScalar := by
  unfold rooted
  split
  · exact h
  · exact Text.isScalar_cons.2 ⟨⟨'/', rfl⟩, h⟩

theorem isScalar_lowerDrive {t : Text} (h : t.IsScalar) : (lowerDrive t).IsScalar := by
  rw [lowerDrive]
  split
  · next letter rest hdrive =>
    have hplain : Text.IsScalar (letter :: .scalar ':' :: rest) := by
      obtain ⟨-, rfl | rfl⟩ := drive?_eq_some_iff.1 hdrive
      · exact (Text.isScalar_cons.1 h).2
      · exact h
    obtain ⟨hletter, hrest⟩ := Text.isScalar_cons.1 hplain
    have hlower := CodePoint.isScalar_asciiLower hletter
    exact Text.isScalar_cons.2 ⟨⟨'/', rfl⟩, Text.isScalar_cons.2 ⟨hlower, hrest⟩⟩
  · exact h

theorem isScalar_hostAndPath {path : Text} (h : path.IsScalar) :
    (hostAndPath path).1.IsScalar ∧ (hostAndPath path).2.IsScalar := by
  have hnormal := isScalar_normalize h
  rw [hostAndPath]
  generalize normalize path = normal at hnormal
  rw [hostAndPathOfNormal.eq_def]
  split
  · next t =>
    have ht := (Text.isScalar_cons.1 (Text.isScalar_cons.1 hnormal).2).2
    obtain ⟨hhost, hrest⟩ := Text.isScalar_cut (p := .scalar '/') ht
    exact ⟨Text.isScalar_lower hhost, Text.isScalar_cons.2 ⟨⟨'/', rfl⟩, hrest⟩⟩
  · exact ⟨Text.isScalar_nil, isScalar_lowerDrive (isScalar_rooted hnormal)⟩

/-- A path without lone surrogates has a URI. -/
theorem exists_toUri_of_isScalar {path : Text} (h : path.IsScalar) : ∃ u, toUri path = .ok u := by
  obtain ⟨hhost, hpath⟩ := isScalar_hostAndPath h
  obtain ⟨host, hhost⟩ := exists_encode_eq_ok hhost
  obtain ⟨written, hwritten⟩ := exists_encode_eq_ok hpath
  exact ⟨_, toUri_eq_ok_iff.2 ⟨host, written, hhost, hwritten, rfl⟩⟩

end FilePath

end ElmReport
