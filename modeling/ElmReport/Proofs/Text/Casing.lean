import ElmReport.Text.Casing

/-!
# Small letters

Small letters are letters, so making a text small brings no slash into it. In ASCII it changes the
capital letters one by one.

## Main results

* `Text.slash_not_mem_lower`: a text without slashes has none in small letters.
* `Text.lower_of_ascii`: the small form of an ASCII text.
* `Text.map_asciiLower_lower`: no capital of ASCII stands in a small form.
* `Text.isScalar_lower_iff`: a lone surrogate stays in the small form.
-/

namespace ElmReport

theorem CodePoint.eq_of_ofNat_eq_slash {n : Nat} (h : ofNat n = .scalar '/') : n = 0x2F := by
  by_cases hvalid : n.isValidChar
  · rw [ofNat, dif_pos hvalid] at h
    exact congrArg val h
  · rw [ofNat, dif_neg hvalid] at h
    split at h
    · cases h
    · exact absurd h (by decide)

/-- Every small letter comes after the capitals of ASCII. -/
theorem CodePoint.lt_small_of_mem : ∀ r ∈ letterRuns, 0x5A < (r.first : Int) + r.shift := by
  decide +kernel

theorem LetterRun.lt_small_of_find? {n : Nat} {r : LetterRun}
    (h : letterRuns.find? (·.covers n) = some r) : 0x5A < r.small n := by
  have hlarge := CodePoint.lt_small_of_mem r (List.mem_of_find?_eq_some h)
  have hcovers := List.find?_some h
  simp only [covers, Bool.and_eq_true, decide_eq_true_eq] at hcovers
  simp only [small]
  omega

theorem CodePoint.eq_slash_of_toLower {p : CodePoint} (h : p.toLower = .scalar '/') :
    p = .scalar '/' := by
  rw [toLower] at h
  split at h
  · next r hr =>
    have hlarge := LetterRun.lt_small_of_find? hr
    have hsmall := eq_of_ofNat_eq_slash h
    omega
  · exact h

theorem Text.slash_not_mem_lowerAfter {t : Text} (before : Text) (h : .scalar '/' ∉ t) :
    .scalar '/' ∉ lowerAfter before t := by
  induction t generalizing before with
  | nil => exact h
  | cons p t ih =>
    obtain ⟨hp, ht⟩ := not_or.1 (mt List.mem_cons.2 h)
    rw [lowerAfter, List.mem_append]
    rintro (hmem | hmem)
    · split at hmem
      · exact absurd hmem (by decide)
      · rw [CodePoint.small] at hmem
        split at hmem
        · exact absurd hmem (by decide)
        · exact hp (CodePoint.eq_slash_of_toLower (List.mem_singleton.1 hmem).symm).symm
    · exact ih (p :: before) ht hmem

/-- A text without slashes has none in small letters. -/
theorem Text.slash_not_mem_lower {t : Text} (h : .scalar '/' ∉ t) : .scalar '/' ∉ lower t :=
  slash_not_mem_lowerAfter [] h

/-- A slash is no letter. -/
theorem CodePoint.ne_slash_of_isAsciiLetter {p : CodePoint} (h : p.isAsciiLetter = true) :
    p ≠ .scalar '/' := by
  rintro rfl
  exact absurd h (by decide)

/-! ### ASCII -/

/-- What holds of the numbers below U+0080 holds of every ASCII code point. -/
theorem CodePoint.of_forall_ascii {P : CodePoint → Prop} (h : ∀ i : Fin 128, P (ofNat i))
    {p : CodePoint} (hp : p.val < 0x80) : P p := by
  rw [← ofNat_val p]
  exact h ⟨p.val, hp⟩

theorem Text.isScalar_of_ascii {t : Text} (h : ∀ p ∈ t, p.val < 0x80) : t.IsScalar := by
  intro p hp
  have hval := h p hp
  cases p with
  | scalar c => exact ⟨c, rfl⟩
  | surrogate s =>
    rw [CodePoint.val_surrogate] at hval
    omega

theorem CodePoint.isScalar_asciiLower {p : CodePoint} (h : p.IsScalar) :
    p.asciiLower.IsScalar := by
  rw [asciiLower]
  split
  · exact isScalar_ofNat (by omega)
  · exact h

theorem CodePoint.isAsciiLetter_asciiLower {p : CodePoint} (h : p.isAsciiLetter = true) :
    p.asciiLower.isAsciiLetter = true := by
  have hascii : p.val < 0x80 := by
    simp only [isAsciiLetter, Bool.or_eq_true, Bool.and_eq_true, decide_eq_true_eq] at h
    omega
  exact of_forall_ascii
    (P := fun p => p.isAsciiLetter = true → p.asciiLower.isAsciiLetter = true) (by decide +kernel)
    hascii h

theorem CodePoint.toLower_of_ascii {p : CodePoint} (hp : p.val < 0x80) :
    p.toLower = p.asciiLower :=
  of_forall_ascii (P := fun p => p.toLower = p.asciiLower) (by decide +kernel) hp

theorem Text.lowerAfter_of_ascii {t : Text} (before : Text) (h : ∀ p ∈ t, p.val < 0x80) :
    lowerAfter before t = t.map CodePoint.asciiLower := by
  induction t generalizing before with
  | nil => rfl
  | cons p t ih =>
    obtain ⟨hp, ht⟩ := List.forall_mem_cons.1 h
    have hsigma : ¬ (p.val = 0x3A3 ∧ meetsCased before ∧ ¬ meetsCased t) := by omega
    have hdotted : ¬ p.val = 0x130 := by omega
    rw [lowerAfter, if_neg hsigma, CodePoint.small, if_neg hdotted, ih _ ht,
      CodePoint.toLower_of_ascii hp]
    rfl

/-- In ASCII the capital letters are made small one by one. -/
theorem Text.lower_of_ascii {t : Text} (h : ∀ p ∈ t, p.val < 0x80) :
    lower t = t.map CodePoint.asciiLower :=
  lowerAfter_of_ascii [] h

/-! ### Small letters stay small -/

theorem CodePoint.lt_val_ofNat {m n : Nat} (hm : m < 0xD800) (h : m < n) : m < (ofNat n).val := by
  by_cases hvalid : n.isValidChar
  · rw [ofNat, dif_pos hvalid]
    exact h
  · rw [ofNat, dif_neg hvalid]
    split
    · rw [val_surrogate]
      omega
    · exact Nat.lt_trans hm (by decide)

theorem CodePoint.asciiLower_of_lt {p : CodePoint} (h : 0x5A < p.val) : p.asciiLower = p := by
  rw [asciiLower, if_neg (by omega)]

/-- What becomes a letter in small letters is one. -/
theorem CodePoint.isAsciiLetter_of_asciiLower {p : CodePoint}
    (h : p.asciiLower.isAsciiLetter = true) : p.isAsciiLetter = true := by
  by_cases hascii : p.val < 0x80
  · exact of_forall_ascii
      (P := fun p => p.asciiLower.isAsciiLetter = true → p.isAsciiLetter = true)
      (by decide +kernel) hascii h
  · rwa [asciiLower_of_lt (by omega)] at h

theorem CodePoint.asciiLower_asciiLower (p : CodePoint) :
    p.asciiLower.asciiLower = p.asciiLower := by
  by_cases hascii : p.val < 0x80
  · exact of_forall_ascii (P := fun p => p.asciiLower.asciiLower = p.asciiLower)
      (by decide +kernel) hascii
  · rw [asciiLower_of_lt (p := p) (by omega), asciiLower_of_lt (by omega)]

/-- No small letter is a capital of ASCII. -/
theorem CodePoint.asciiLower_toLower (p : CodePoint) : p.toLower.asciiLower = p.toLower := by
  by_cases hascii : p.val < 0x80
  · rw [toLower_of_ascii hascii, asciiLower_asciiLower]
  · rw [toLower]
    split
    · next r hr =>
      have hlarge := LetterRun.lt_small_of_find? hr
      exact asciiLower_of_lt (lt_val_ofNat (by decide) hlarge)
    · exact asciiLower_of_lt (by omega)

theorem Text.map_asciiLower_lowerAfter (before t : Text) :
    (lowerAfter before t).map CodePoint.asciiLower = lowerAfter before t := by
  induction t generalizing before with
  | nil => rfl
  | cons p t ih =>
    rw [lowerAfter, List.map_append, ih]
    congr 1
    split
    · rfl
    · rw [CodePoint.small]
      split
      · rfl
      · rw [List.map_singleton, CodePoint.asciiLower_toLower]

/-- Making small letters small in ASCII changes nothing. -/
theorem Text.map_asciiLower_lower (t : Text) : (lower t).map CodePoint.asciiLower = lower t :=
  map_asciiLower_lowerAfter [] t

/-! ### Nothing gets lost -/

/-- Every code point has a small form. -/
theorem Text.lower_ne_nil {t : Text} (h : t ≠ []) : lower t ≠ [] := by
  obtain ⟨p, t, rfl⟩ := List.exists_cons_of_ne_nil h
  rw [lower, lowerAfter, CodePoint.small]
  split
  · simp
  · split <;> simp

/-- No surrogate is a capital. -/
theorem CodePoint.not_covers_surrogate :
    ∀ r ∈ letterRuns, r.last < 0xD800 ∨ 0xE000 ≤ r.first := by
  decide +kernel

theorem CodePoint.small_surrogate (s : Fin 2048) : (surrogate s).small = [surrogate s] := by
  have hs := s.isLt
  have hlower : (surrogate s).toLower = surrogate s := by
    rw [toLower]
    split
    · next r hr =>
      have hrange := not_covers_surrogate r (List.mem_of_find?_eq_some hr)
      have hcovers := List.find?_some hr
      simp only [LetterRun.covers, Bool.and_eq_true, decide_eq_true_eq] at hcovers
      rw [val_surrogate] at hcovers
      omega
    · rfl
  have hdotted : ¬ (surrogate s).val = 0x130 := by
    rw [val_surrogate]
    omega
  rw [small, if_neg hdotted, hlower]

theorem Text.isScalar_of_isScalar_lowerAfter {t : Text} (before : Text)
    (h : (lowerAfter before t).IsScalar) : t.IsScalar := by
  induction t generalizing before with
  | nil => exact isScalar_nil
  | cons p t ih =>
    rw [lowerAfter] at h
    obtain ⟨hp, ht⟩ := isScalar_append.1 h
    refine isScalar_cons.2 ⟨?_, ih _ ht⟩
    cases p with
    | scalar c => exact ⟨c, rfl⟩
    | surrogate s =>
      have hsigma : ¬ ((CodePoint.surrogate s).val = 0x3A3 ∧ meetsCased before ∧
          ¬ meetsCased t) := by
        rw [CodePoint.val_surrogate]
        omega
      rw [if_neg hsigma, CodePoint.small_surrogate] at hp
      exact (isScalar_cons.1 hp).1

/-- The small form of a text has lone surrogates exactly when the text has some. -/
theorem Text.isScalar_lower_iff {t : Text} : (lower t).IsScalar ↔ t.IsScalar :=
  ⟨isScalar_of_isScalar_lowerAfter [], isScalar_lower⟩

end ElmReport
