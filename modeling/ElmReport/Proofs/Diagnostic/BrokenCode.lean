import ElmReport.Proofs.Diagnostic.StyleCode
import Mathlib.Data.List.Infix

/-!
# Codes that deleting brings about

Deleting a code joins the texts on both sides of it, and what is joined may be a code itself. A text
is cleaned only once, so such a code is kept. It comes of a broken code: a code between whose digits
others stand. Broken codes are the only source of codes in a cleaned text, and every one of them
leaves a code behind.

## Main definitions

* `WithCodes`: a text with codes put into it.
* `IsBroken`: a code with others between its bracket and its letter.

## Main results

* `strip_eq_self_iff`: cleaning changes exactly the texts that hold a code.
* `exists_isBroken_of_isCode`: a code in a cleaned text comes of a broken code.
* `exists_isCode_of_isBroken`: a broken code leaves a code behind.
* `cleaned_iff_no_broken`: which texts are free of codes after cleaning.
-/

namespace ElmReport.StyleCode

/-- The first text is the second one with codes put in, before, between and after its code
points. -/
inductive WithCodes : Text → Text → Prop
  | nil : WithCodes [] []
  | plain (p : CodePoint) {s t : Text} (h : WithCodes s t) : WithCodes (p :: s) (p :: t)
  | code {c s t : Text} (hc : IsCode c) (h : WithCodes s t) : WithCodes (c ++ s) t

/-- A broken code: a bracket, one or more digits and the letter m, with one or more codes before,
between and after the digits. -/
inductive IsBroken : Text → Prop
  | intro {body digits : Text} (hne : digits ≠ []) (hdigits : ∀ p ∈ digits, p.isDigit = true)
      (hbody : WithCodes body digits) (hbroken : body ≠ digits) :
      IsBroken (.scalar '[' :: (body ++ [.scalar 'm']))

variable {b c s t : Text}

/-! ### Texts without codes -/

/-- A code is deleted wherever it stands, and what stands before it is cleaned apart. -/
theorem strip_append_isCode_append (b : Text) (hc : IsCode c) (a : Text) :
    strip (b ++ (c ++ a)) = strip b ++ strip a := by
  have huncrossed : Uncrossed b (c ++ a) := by
    obtain ⟨-, -⟩ := hc
    exact uncrossed_bracket b _
  rw [strip_append huncrossed, strip_append_of_isCode hc]

/-- Cleaning changes exactly the texts that hold a code. -/
theorem strip_eq_self_iff : strip t = t ↔ ∀ c, IsCode c → ¬ c <:+: t := by
  constructor
  · rintro h c hc ⟨b, a, rfl⟩
    rw [List.append_assoc, strip_append_isCode_append b hc a] at h
    have hb := (sublist_strip b).length_le
    have ha := (sublist_strip a).length_le
    have hlength := congrArg List.length h
    have hpos : 0 < c.length := by cases hc; simp
    simp only [List.length_append] at hlength
    omega
  · intro h
    induction t using induction_codes with
    | nil => rfl
    | code c t hc => exact absurd (List.infix_append' [] c t) (h c hc)
    | plain p t hopens ih =>
      rw [strip_cons_of_not_opensCode hopens,
        ih fun c hc hpart => h c hc (hpart.trans (List.suffix_cons p t).isInfix)]

/-! ### Codes come of broken codes -/

/-- What stands before a code point of a cleaned text is what stood before it, without the codes. -/
theorem exists_withCodes_of_strip {u rest : Text} {p : CodePoint} (h : strip t = u ++ p :: rest) :
    ∃ s t', t = s ++ p :: t' ∧ WithCodes s u := by
  induction t using induction_codes generalizing u with
  | nil => simp at h
  | code c t hc ih =>
    rw [strip_append_of_isCode hc] at h
    obtain ⟨s, t', rfl, hs⟩ := ih h
    exact ⟨c ++ s, t', (List.append_assoc ..).symm, .code hc hs⟩
  | plain q t hopens ih =>
    rw [strip_cons_of_not_opensCode hopens] at h
    cases u with
    | nil => exact ⟨[], t, by rw [(List.cons.inj h).1, List.nil_append], .nil⟩
    | cons r u =>
      obtain ⟨rfl, htail⟩ := List.cons.inj h
      obtain ⟨s, t', rfl, hs⟩ := ih htail
      exact ⟨q :: s, t', rfl, .plain q hs⟩

/-- A code in a cleaned text comes of a broken code. -/
theorem exists_isBroken_of_isCode (hc : IsCode c) (h : c <:+: strip t) :
    ∃ s, IsBroken s ∧ s <:+: t := by
  obtain ⟨b, a, h⟩ := h
  rw [List.append_assoc] at h
  induction t using induction_codes generalizing b with
  | nil =>
    have hnil : c = [] := by simp_all
    exact absurd hc (hnil ▸ nofun)
  | code c' t hc' ih =>
    rw [strip_append_of_isCode hc'] at h
    obtain ⟨s, hs, hpart⟩ := ih b h
    exact ⟨s, hs, hpart.trans (List.suffix_append c' t).isInfix⟩
  | plain p t hopens ih =>
    rw [strip_cons_of_not_opensCode hopens] at h
    cases b with
    | nil =>
      -- The code opens by the code point that is kept here, so its digits are parted in the text.
      obtain ⟨hne, hdigits⟩ := hc
      rename_i digits
      obtain ⟨rfl, htail⟩ := List.cons.inj h
      have hstrip : strip t = digits ++ .scalar 'm' :: a := by simpa using htail.symm
      obtain ⟨body, t', rfl, hbody⟩ := exists_withCodes_of_strip hstrip
      refine ⟨_, .intro hne hdigits hbody ?_, [], t', by simp⟩
      rintro rfl
      exact hopens ⟨_, t', .intro hne hdigits, by simp⟩
    | cons q b =>
      obtain ⟨s, hs, hpart⟩ := ih b (List.cons.inj h).2
      exact ⟨s, hs, hpart.trans (List.suffix_cons p t).isInfix⟩

/-! ### Broken codes leave codes -/

theorem not_opensCode_of_ne {p : CodePoint} (hp : p ≠ .scalar '[') : ¬ OpensCode (p :: t) := by
  rintro ⟨_, rest, ⟨-, -⟩, h⟩
  exact hp (List.cons.inj h).1

section

variable {body digits : Text} (hdigits : ∀ p ∈ digits, p.isDigit = true)
  (hbody : WithCodes body digits)

include hdigits hbody

/-- Digits are what is left of them with codes put in. -/
theorem strip_append_of_withCodes (rest : Text) : strip (body ++ rest) = digits ++ strip rest := by
  induction hbody with
  | nil => rfl
  | plain p _ ih =>
    obtain ⟨hp, hdigits⟩ := List.forall_mem_cons.1 hdigits
    have hbracket : p ≠ .scalar '[' := by
      rintro rfl
      simp [bracket_not_isDigit] at hp
    rw [List.cons_append, strip_cons_of_not_opensCode (not_opensCode_of_ne hbracket), ih hdigits,
      List.cons_append]
  | code hc _ ih => rw [List.append_assoc, strip_append_of_isCode hc, ih hdigits]

/-- Digits with codes put in are followed by the letter m only, when they open like a code. -/
theorem eq_of_withCodes {digits' rest rest' : Text} (hdigits' : ∀ p ∈ digits', p.isDigit = true)
    (h : body ++ .scalar 'm' :: rest = digits' ++ .scalar 'm' :: rest') : body = digits := by
  induction hbody generalizing digits' with
  | nil => rfl
  | plain p _ ih =>
    cases digits' with
    | nil =>
      have hp := (List.forall_mem_cons.1 hdigits).1
      rw [(List.cons.inj h).1, letter_not_isDigit] at hp
      exact nomatch hp
    | cons q digits' =>
      rw [ih (List.forall_mem_cons.1 hdigits).2 (List.forall_mem_cons.1 hdigits').2
        (List.cons.inj h).2]
  | code hc _ =>
    obtain ⟨-, -⟩ := hc
    cases digits' with
    | nil => exact absurd (List.cons.inj h).1 (by simp)
    | cons q digits' =>
      have hq := (List.forall_mem_cons.1 hdigits').1
      rw [← (List.cons.inj h).1, bracket_not_isDigit] at hq
      exact nomatch hq

end

/-- A broken code leaves a code behind. -/
theorem exists_isCode_of_isBroken (hs : IsBroken s) (h : s <:+: t) :
    ∃ c, IsCode c ∧ c <:+: strip t := by
  obtain ⟨b, a, rfl⟩ := h
  obtain ⟨hne, hdigits, hbody, hbroken⟩ := hs
  rename_i body digits
  have hopens : ¬ OpensCode (.scalar '[' :: (body ++ .scalar 'm' :: a)) := by
    rintro ⟨_, rest, ⟨-, hdigits'⟩, h⟩
    exact hbroken (eq_of_withCodes hdigits hbody hdigits' (by simpa using h))
  have hletter : strip (.scalar 'm' :: a) = .scalar 'm' :: strip a :=
    strip_cons_of_not_opensCode (not_opensCode_of_ne (by simp))
  refine ⟨_, .intro hne hdigits, strip b, strip a, ?_⟩
  calc strip b ++ .scalar '[' :: (digits ++ [.scalar 'm']) ++ strip a
      = strip b ++ .scalar '[' :: strip (body ++ .scalar 'm' :: a) := by
        rw [strip_append_of_withCodes hdigits hbody, hletter]
        simp
    _ = strip (b ++ .scalar '[' :: (body ++ .scalar 'm' :: a)) := by
        rw [strip_append (uncrossed_bracket b _), strip_cons_of_not_opensCode hopens]
    _ = strip (b ++ .scalar '[' :: (body ++ [.scalar 'm']) ++ a) := by simp

/-- **Which texts are free of codes after cleaning.** A cleaned text holds no code exactly when
cleaning it once more changes nothing, and exactly when the text itself holds no broken code. -/
theorem cleaned_iff_no_broken (t : Text) :
    ((∀ c, IsCode c → ¬ c <:+: strip t) ↔ strip (strip t) = strip t) ∧
      ((∀ c, IsCode c → ¬ c <:+: strip t) ↔ ∀ s, IsBroken s → ¬ s <:+: t) := by
  refine ⟨strip_eq_self_iff.symm, fun h s hs hpart => ?_, fun h c hc hpart => ?_⟩
  · obtain ⟨c, hc, hcode⟩ := exists_isCode_of_isBroken hs hpart
    exact h c hc hcode
  · obtain ⟨s, hs, hbroken⟩ := exists_isBroken_of_isCode hc hpart
    exact h s hs hbroken

/-- The code for a color with the code for another one behind its first digit: what is left is a
code, which cleaning once more would delete. -/
theorem code_in_cleaned_broken :
    IsCode "[13m" ∧ ("[13m" : Text) <:+: strip "[1[2m3m" ∧
      strip (strip "[1[2m3m") ≠ strip "[1[2m3m" :=
  ⟨by decide, by decide, by decide⟩

end ElmReport.StyleCode
