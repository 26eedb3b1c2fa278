import ElmReport.Proofs.FileUri.Written

/-!
# Reading the URIs of others

An editor writes the URI of a path in its own way: it may leave a code point as it is or encode it,
in digits of either case, and write the scheme in capitals. All these URIs are read as the same
path. A drive loses the slash in front of it on the way, and nothing else is dropped from a path,
unless the URI has no slash in front of the drive: then its letter is dropped in place of the slash.

## Main definitions

* `FilePath.Spells`: the spellings of a text in a URI.

## Main results

* `FilePath.ofParts_keeps_iff`: what is kept of a path when there is no host.
* `FilePath.ofUri_of_spells`: every spelling of a path names the same file.
* `FilePath.ofUri_keeps_iff`: what is dropped from the path of a URI.
-/

namespace ElmReport.FilePath

open Outcome Percent

/-! ### The slash in front of a drive -/

section

variable {t : Text}

theorem ofParts_slash_of_drive (h : OpensWithDrive t) : ofParts [] (.scalar '/' :: t) = t := by
  obtain ⟨letter, rest, hletter, rfl⟩ := h
  simp [ofParts, drive?_slash hletter]

theorem ofParts_slash_of_noDrive (h : ¬ OpensWithDrive t) :
    ofParts [] (.scalar '/' :: t) = .scalar '/' :: t := by
  simp [ofParts, drive?_slash_of_noDrive h]

/-- A drive without a slash in front of it loses its letter. -/
theorem ofParts_of_drive {letter : CodePoint} (h : letter.isAsciiLetter = true) (rest : Text) :
    ofParts [] (letter :: .scalar ':' :: rest) = .scalar ':' :: rest := by
  have hdrive := drive?_eq_some_iff.2 ⟨h, .inr (Eq.refl (letter :: .scalar ':' :: rest))⟩
  simp [ofParts, hdrive]

/-- Without a host reading keeps a path, but for a slash in front, exactly when the path does not
open with a drive. -/
theorem ofParts_keeps_iff :
    ofParts [] t = t ∨ t = .scalar '/' :: ofParts [] t ↔ ¬ OpensWithDrive t := by
  constructor
  · rintro hkeeps ⟨letter, rest, hletter, rfl⟩
    rw [ofParts_of_drive hletter] at hkeeps
    rcases hkeeps with heq | heq
    · exact absurd (congrArg List.length heq) (by simp)
    · exact CodePoint.ne_slash_of_isAsciiLetter hletter (List.cons.inj heq).1
  · intro h
    rcases hdrive : drive? t with _ | ⟨letter, rest⟩
    · exact .inl (by simp [ofParts, hdrive])
    · obtain ⟨hletter, rfl | rfl⟩ := drive?_eq_some_iff.1 hdrive
      · exact .inr (by rw [ofParts_slash_of_drive ⟨letter, rest, hletter, rfl⟩])
      · exact absurd ⟨letter, rest, hletter, rfl⟩ h

end

/-- The path of a URI that names a file, by its parts. -/
theorem ofUri_of_ofText {uri : Text} {parts : UriParts} (h : UriParts.ofText uri = .ok parts)
    (hscheme : parts.scheme = ("file" : Text)) :
    ofUri uri = .ok (ofParts parts.authority (decode parts.path)) := by
  rw [ofUri, bind_eq_ok_iff]
  exact ⟨parts, h, by rw [if_pos hscheme]; rfl⟩

/-! ### Spellings of a path -/

/-- The spellings of a text in a URI: each code point stands for itself, unless it is a percent sign
or breaks a path, or is written as its bytes in hexadecimal digits of either case. -/
inductive Spells : Text → Text → Prop
  | nil : Spells [] []
  | plain {p : CodePoint} {e t : Text} (hpercent : p ≠ .scalar '%')
      (hbreaks : ¬ UriParts.BreaksPath p) (h : Spells e t) : Spells (p :: e) (p :: t)
  | escaped {c : Char} {x e t : Text} (hx : Escapes x (Utf8.encode c)) (h : Spells e t) :
      Spells (x ++ e) (.scalar c :: t)

theorem Spells.encodes {e t : Text} (h : Spells e t) : Encodes e t := by
  induction h with
  | nil => exact .nil
  | plain hpercent _ _ ih => exact .plain hpercent ih
  | escaped hx _ ih => exact .escaped hx ih

/-- Nothing in a spelling breaks a path. -/
theorem Spells.not_breaksPath {e t : Text} (h : Spells e t) :
    ∀ p ∈ e, ¬ UriParts.BreaksPath p := by
  induction h with
  | nil => exact List.forall_mem_nil _
  | plain _ hbreaks _ ih => exact List.forall_mem_cons.2 ⟨hbreaks, ih⟩
  | escaped hx _ ih =>
    refine List.forall_mem_append.2 ⟨fun p hp => ?_, ih⟩
    have hmem := hx.eq_percent_or_isDigit p hp
    rintro (rfl | rfl | rfl | rfl | rfl) <;> exact absurd hmem (by decide)

section

variable {scheme e t : Text} (hscheme : scheme.map CodePoint.asciiLower = ("file" : Text))
  (h : Spells e t)

include hscheme h

/-- A spelling of a rooted path is decoded to the path before a drive is looked for. -/
theorem ofUri_eq_ofParts_of_spells :
    ofUri (scheme ++ (("://" : Text) ++ .scalar '/' :: e)) =
      .ok (ofParts [] (.scalar '/' :: t)) := by
  have hparts := UriParts.ofText_file hscheme (List.forall_mem_nil _) List.not_mem_nil
    h.not_breaksPath
  have hrooted : Encodes (.scalar '/' :: e) (.scalar '/' :: t) := .plain (by decide) h.encodes
  have hread := ofUri_of_ofText hparts rfl
  rwa [hrooted.decode_eq] at hread

/-- **Every spelling names the same file.** The URI of a rooted path, with each code point after the
first slash as it is or encoded and the scheme in letters of either case, is read as the path, and
as the path without its slash when a drive follows the slash. Any other spelling of the path is
read as the same. -/
theorem ofUri_of_spells :
    (OpensWithDrive t → ofUri (scheme ++ (("://" : Text) ++ .scalar '/' :: e)) = .ok t) ∧
    (¬ OpensWithDrive t →
      ofUri (scheme ++ (("://" : Text) ++ .scalar '/' :: e)) = .ok (.scalar '/' :: t)) ∧
    ∀ scheme' e', scheme'.map CodePoint.asciiLower = ("file" : Text) → Spells e' t →
      ofUri (scheme' ++ (("://" : Text) ++ .scalar '/' :: e')) =
        ofUri (scheme ++ (("://" : Text) ++ .scalar '/' :: e)) := by
  have hread := ofUri_eq_ofParts_of_spells hscheme h
  refine ⟨fun hdrive => ?_, fun hdrive => ?_, fun scheme' e' hscheme' h' => ?_⟩
  · rw [hread, ofParts_slash_of_drive hdrive]
  · rw [hread, ofParts_slash_of_noDrive hdrive]
  · rw [hread, ofUri_eq_ofParts_of_spells hscheme' h']

end

/-- A drive with its letter and its colon encoded, and two spellings of one path. -/
theorem ofUri_of_spells_drive :
    ofUri "FiLe:///%63%3a/é%C3%a9%25" = .ok "c:/éé%" ∧
      ofUri "FILE:///a b%3f" = .ok "/a b?" ∧
      ofUri "file:///%61%20b%3F" = ofUri "FILE:///a b%3f" := by
  have hmixed : ("FiLe" : Text).map CodePoint.asciiLower = ("file" : Text) := rfl
  have hcapital : ("FILE" : Text).map CodePoint.asciiLower = ("file" : Text) := rfl
  have hdrive : Spells "%63%3a/é%C3%a9%25" "c:/éé%" :=
    .escaped (c := 'c') (x := "%63") (.cons rfl .nil) <|
    .escaped (c := ':') (x := "%3a") (.cons rfl .nil) <|
    .plain (p := .scalar '/') (by decide) (by decide) <|
    .plain (p := .scalar 'é') (by decide) (by decide) <|
    .escaped (c := 'é') (x := "%C3%a9") (.cons rfl (.cons rfl .nil)) <|
    .escaped (c := '%') (x := "%25") (.cons rfl .nil) .nil
  have hraw : Spells "a b%3f" "a b?" :=
    .plain (p := .scalar 'a') (by decide) (by decide) <|
    .plain (p := .scalar ' ') (by decide) (by decide) <|
    .plain (p := .scalar 'b') (by decide) (by decide) <|
    .escaped (c := '?') (x := "%3f") (.cons rfl .nil) .nil
  have hencoded : Spells "%61%20b%3F" "a b?" :=
    .escaped (c := 'a') (x := "%61") (.cons rfl .nil) <|
    .escaped (c := ' ') (x := "%20") (.cons rfl .nil) <|
    .plain (p := .scalar 'b') (by decide) (by decide) <|
    .escaped (c := '?') (x := "%3F") (.cons rfl .nil) .nil
  have hopens : OpensWithDrive "c:/éé%" := ⟨.scalar 'c', "/éé%", rfl, rfl⟩
  have hplain : ¬ OpensWithDrive "a b?" := by
    rintro ⟨letter, rest, -, heq⟩
    exact absurd (List.cons.inj (List.cons.inj heq).2).1 (by decide)
  have huri : ("FiLe:///%63%3a/é%C3%a9%25" : Text) = ("FiLe" : Text) ++
      (("://" : Text) ++ .scalar '/' :: ("%63%3a/é%C3%a9%25" : Text)) := by
    simp [Text.ofString]
  rw [huri]
  exact ⟨(ofUri_of_spells hmixed hdrive).1 hopens, (ofUri_of_spells hcapital hraw).2.1 hplain,
    (ofUri_of_spells hcapital hraw).2.2 "file" _ rfl hencoded⟩

/-! ### What reading drops -/

/-- **What is dropped from a path.** A URI of a file without an authority is read as its decoded
path, with or without the slash in front, exactly when the decoded path does not open with a drive.
If it does, the letter of the drive is dropped. -/
theorem ofUri_keeps_iff {uri : Text} {parts : UriParts} (hparts : UriParts.ofText uri = .ok parts)
    (hscheme : parts.scheme = ("file" : Text)) (hauthority : parts.authority = []) :
    ∃ path, ofUri uri = .ok path ∧
      ((path = decode parts.path ∨ decode parts.path = .scalar '/' :: path) ↔
        ¬ OpensWithDrive (decode parts.path)) ∧
      ∀ letter rest, letter.isAsciiLetter = true →
        decode parts.path = letter :: .scalar ':' :: rest → path = .scalar ':' :: rest := by
  have hread := ofUri_of_ofText hparts hscheme
  rw [hauthority] at hread
  refine ⟨_, hread, ofParts_keeps_iff, fun letter rest hletter hpath => ?_⟩
  rw [hpath, ofParts_of_drive hletter]

/-- An encoded drive behind a slash, and one without a slash. -/
theorem ofUri_keeps_iff_drive :
    (∃ path, ofUri "file:///%43:/x" = .ok path ∧
      (path = "/C:/x" ∨ ("/C:/x" : Text) = .scalar '/' :: path)) ∧
      ofUri "file:C%3A/x" = .ok ":/x" := by
  have hslash : UriParts.ofText "file:///%43:/x" = .ok ⟨"file", [], "/%43:/x"⟩ := rfl
  have hbare : UriParts.ofText "file:C%3A/x" = .ok ⟨"file", [], "C%3A/x"⟩ := rfl
  obtain ⟨path, hread, hkeeps, -⟩ := ofUri_keeps_iff hslash rfl rfl
  obtain ⟨lost, hlost, -, hdrop⟩ := ofUri_keeps_iff hbare rfl rfl
  obtain rfl := hdrop (.scalar 'C') "/x" rfl rfl
  exact ⟨⟨path, hread, hkeeps.2 (not_opensWithDrive_slash "C:/x")⟩, hlost⟩

/-- The letter of a drive without a slash in front is dropped. -/
theorem not_ofUri_keeps_drive :
    ¬ ∀ (uri path : Text) (parts : UriParts), UriParts.ofText uri = .ok parts →
      parts.authority = [] → ofUri uri = .ok path →
        path = decode parts.path ∨ decode parts.path = .scalar '/' :: path := by
  intro h
  have hparts : UriParts.ofText "file:c:/x" = .ok ⟨"file", [], "c:/x"⟩ := rfl
  have hread : ofUri "file:c:/x" = .ok ":/x" := rfl
  exact absurd (h _ _ _ hparts rfl hread) (by decide)

end ElmReport.FilePath
