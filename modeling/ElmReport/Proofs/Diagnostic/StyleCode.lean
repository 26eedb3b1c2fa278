import ElmReport.Diagnostic.StyleCode
import Mathlib.Data.List.Basic
import Mathlib.Data.List.Range
import Mathlib.Data.List.TakeWhile

/-!
# Which code points are deleted

The scanner that deletes style codes goes over a text once, from left to right. Its result does not
depend on that. No two codes in a text overlap, since the bracket by which a code opens stands
nowhere else in it, and neither does the letter by which it ends. So the code points that are kept
are those that lie in no code, wherever the codes stand, and the parts of a text can be cleaned
apart whenever no code crosses from one into the other.

## Main definitions

* `IsCode`: the style codes.
* `Occurs`, `Covered`: the places where a code stands in a text, and those that lie in one.
* `outside`: the code points of a text that lie in no code.
* `Uncrossed`: two parts of a text between which no code stands.

## Main results

* `Occurs.disjoint`: codes in a text do not overlap.
* `induction_codes`: a text is made of codes and of code points by which no code opens.
* `strip_eq_outside`: the code points in no code are kept.
* `strip_append`: two parts are cleaned apart.
* `kept_outside_codes`: all of this together.
-/

namespace ElmReport.StyleCode

/-! ### Codes -/

/-- A style code: a bracket, one or more digits, and the letter m. -/
inductive IsCode : Text → Prop
  | intro {digits : Text} (hne : digits ≠ []) (hdigits : ∀ p ∈ digits, p.isDigit = true) :
      IsCode (.scalar '[' :: (digits ++ [.scalar 'm']))

instance (c : Text) : Decidable (IsCode c) :=
  decidable_of_iff (c = .scalar '[' :: (c.tail.dropLast ++ [.scalar 'm']) ∧
      c.tail.dropLast ≠ [] ∧ ∀ p ∈ c.tail.dropLast, p.isDigit = true) <| by
    constructor
    · rintro ⟨hc, hne, hdigits⟩
      rw [hc]
      exact .intro hne hdigits
    · rintro ⟨hne, hdigits⟩
      simpa using ⟨hne, hdigits⟩

/-- A code stands at the head of a text. -/
def OpensCode (t : Text) : Prop := ∃ c rest, IsCode c ∧ t = c ++ rest

theorem bracket_not_isDigit : (CodePoint.scalar '[').isDigit = false := by decide

theorem letter_not_isDigit : (CodePoint.scalar 'm').isDigit = false := by decide

/-- After a bracket a code has the width of its digits and its letter. -/
theorem width?_eq_some_iff {t : Text} {width : Nat} :
    width? t = some width ↔ ∃ digits rest, digits ≠ [] ∧ (∀ p ∈ digits, p.isDigit = true) ∧
      t = digits ++ .scalar 'm' :: rest ∧ width = digits.length + 1 := by
  constructor
  · intro h
    simp only [width?, List.isEmpty_iff] at h
    split_ifs at h with hne hm
    obtain ⟨rest, hrest⟩ : ∃ rest, t.drop (t.takeWhile CodePoint.isDigit).length =
        .scalar 'm' :: rest := by
      rcases hdrop : t.drop (t.takeWhile CodePoint.isDigit).length with _ | ⟨p, rest⟩
      · simp [hdrop] at hm
      · rw [hdrop] at hm
        exact ⟨rest, by rw [Option.some.inj hm]⟩
    refine ⟨t.takeWhile CodePoint.isDigit, rest, hne, fun p hp => List.mem_takeWhile_imp hp, ?_,
      (Option.some.inj h).symm⟩
    have hsplit := List.take_append_drop (t.takeWhile CodePoint.isDigit).length t
    rwa [← List.prefix_iff_eq_take.1 (List.takeWhile_prefix _), hrest, eq_comm] at hsplit
  · rintro ⟨digits, rest, hne, hdigits, rfl, rfl⟩
    have htake : (digits ++ .scalar 'm' :: rest).takeWhile CodePoint.isDigit = digits := by
      rw [List.takeWhile_append_of_pos hdigits, List.takeWhile_cons_of_neg
        (by simp [letter_not_isDigit]), List.append_nil]
    simp [width?, htake, hne]

/-- A code is deleted. -/
theorem strip_append_of_isCode {c : Text} (hc : IsCode c) (t : Text) :
    strip (c ++ t) = strip t := by
  obtain ⟨hne, hdigits⟩ := hc
  rename_i digits
  have hwidth : width? ((digits ++ [.scalar 'm']) ++ t) = some (digits.length + 1) :=
    width?_eq_some_iff.2 ⟨digits, t, hne, hdigits, by simp, rfl⟩
  rw [List.cons_append, strip_code hwidth]
  congr 1
  exact List.drop_left' (by simp)

/-- A code point that opens no code is kept. -/
theorem strip_cons_of_not_opensCode {p : CodePoint} {t : Text} (h : ¬ OpensCode (p :: t)) :
    strip (p :: t) = p :: strip t := by
  refine strip_cons fun hp => Option.eq_none_iff_forall_ne_some.2 fun width hwidth => h ?_
  obtain ⟨digits, rest, hne, hdigits, rfl, -⟩ := width?_eq_some_iff.1 hwidth
  exact ⟨_, rest, .intro hne hdigits, by simp [hp]⟩

/-- A text is made of codes and of code points by which no code opens. -/
@[elab_as_elim]
theorem induction_codes {motive : Text → Prop} (nil : motive [])
    (code : ∀ c t, IsCode c → motive t → motive (c ++ t))
    (plain : ∀ p t, ¬ OpensCode (p :: t) → motive t → motive (p :: t)) (t : Text) : motive t := by
  induction hlength : t.length using Nat.strong_induction_on generalizing t with
  | h n ih =>
    by_cases hopens : OpensCode t
    · obtain ⟨c, rest, hc, rfl⟩ := hopens
      have hpos : 0 < c.length := by cases hc; simp
      exact code c rest hc (ih rest.length (by simp at hlength; omega) rest rfl)
    · cases t with
      | nil => exact nil
      | cons p t => exact plain p t hopens (ih t.length (by simp at hlength; omega) t rfl)

/-- Cleaning leaves out code points, and changes neither the others nor their order. -/
theorem sublist_strip (t : Text) : (strip t).Sublist t := by
  induction t using induction_codes with
  | nil => exact List.Sublist.refl _
  | code c t hc ih =>
    rw [strip_append_of_isCode hc]
    exact ih.trans (List.sublist_append_right c t)
  | plain p t hopens ih =>
    rw [strip_cons_of_not_opensCode hopens]
    exact ih.cons_cons p

/-! ### Where codes stand -/

/-- A code stands in a text from the place `i` to before the place `j`. -/
structure Occurs (t : Text) (i j : Nat) : Prop where
  within : j ≤ t.length
  code : IsCode (t.extract i j)

instance (t : Text) (i j : Nat) : Decidable (Occurs t i j) :=
  decidable_of_iff (j ≤ t.length ∧ IsCode (t.extract i j))
    ⟨fun h => ⟨h.1, h.2⟩, fun h => ⟨h.within, h.code⟩⟩

/-- A place that lies in a code. -/
def Covered (t : Text) (k : Nat) : Prop := ∃ i j, Occurs t i j ∧ i ≤ k ∧ k < j

instance (t : Text) (k : Nat) : Decidable (Covered t k) :=
  decidable_of_iff (∃ i < k + 1, ∃ j < t.length + 1, Occurs t i j ∧ i ≤ k ∧ k < j) <| by
    constructor
    · rintro ⟨i, -, j, -, h⟩
      exact ⟨i, j, h⟩
    · rintro ⟨i, j, h, hi, hj⟩
      exact ⟨i, Nat.lt_succ_of_le hi, j, Nat.lt_succ_of_le h.within, h, hi, hj⟩

/-- The code points of a text that lie in no code, in their order. -/
def outside (t : Text) : Text :=
  (List.range t.length).filterMap fun k => if Covered t k then none else t[k]?

/-- No code stands partly in `a` and partly in the text `b` after it. -/
def Uncrossed (a b : Text) : Prop :=
  ∀ i j, Occurs (a ++ b) i j → j ≤ a.length ∨ a.length ≤ i

/-! ### Occurrences -/

section

variable {c t a b : Text} {i j k : Nat}

/-- A code between two texts occurs after the first. -/
theorem occurs_append (before : Text) (hc : IsCode c) (after : Text) :
    Occurs (before ++ (c ++ after)) before.length (before.length + c.length) :=
  ⟨by simp, by simpa using hc⟩

namespace Occurs

/-- The parts of a text around the digits of a code. -/
theorem exists_eq (h : Occurs t i j) : ∃ before digits after, digits ≠ [] ∧
    (∀ p ∈ digits, p.isDigit = true) ∧
    t = before ++ .scalar '[' :: (digits ++ .scalar 'm' :: after) ∧
    i = before.length ∧ j = before.length + digits.length + 2 := by
  obtain ⟨hj, hc⟩ := h
  have hlength : (t.extract i j).length = j - i := by
    simp
    omega
  have hsplit : t = t.take i ++ (t.extract i j ++ t.drop j) := by
    have hij : i ≤ j := by
      by_contra hij
      rw [List.length_eq_zero_iff.1 (by omega : (t.extract i j).length = 0)] at hc
      exact nomatch hc
    have hdrop : t.drop j = (t.drop i).drop (j - i) := by
      rw [List.drop_drop, Nat.add_sub_cancel' hij]
    rw [hdrop, List.extract_eq_take_drop, List.take_append_drop, List.take_append_drop]
  generalize t.extract i j = c at hc hlength hsplit
  obtain ⟨hne, hdigits⟩ := hc
  rename_i digits
  rw [List.length_cons, List.length_append, List.length_singleton] at hlength
  refine ⟨t.take i, digits, t.drop j, hne, hdigits, by simpa using hsplit, ?_, ?_⟩
  · rw [List.length_take]
    omega
  · rw [List.length_take]
    omega

theorem two_lt (h : Occurs t i j) : i + 2 < j := by
  obtain ⟨before, digits, after, hne, -, -, rfl, rfl⟩ := h.exists_eq
  have hpos := List.length_pos_iff.2 hne
  omega

/-- A code opens by a bracket. -/
theorem getElem?_open (h : Occurs t i j) : t[i]? = some (.scalar '[') := by
  obtain ⟨before, digits, after, -, -, rfl, rfl, -⟩ := h.exists_eq
  simp

/-- A code ends by the letter m. -/
theorem getElem?_last (h : Occurs t i j) : t[j - 1]? = some (.scalar 'm') := by
  obtain ⟨before, digits, after, -, -, rfl, -, rfl⟩ := h.exists_eq
  have hlast : before.length + digits.length + 2 - 1 = before.length + (digits.length + 1) := by
    omega
  rw [hlast, List.getElem?_append_right (Nat.le_add_right _ _), Nat.add_sub_cancel_left,
    List.getElem?_cons_succ, List.getElem?_append_right (Nat.le_refl _), Nat.sub_self]
  rfl

/-- Between its bracket and its letter a code has digits only. -/
theorem isDigit_of_getElem? (h : Occurs t i j) (hi : i < k) (hj : k + 1 < j) {p : CodePoint}
    (hp : t[k]? = some p) : p.isDigit = true := by
  obtain ⟨before, digits, after, -, hdigits, rfl, rfl, rfl⟩ := h.exists_eq
  obtain ⟨n, rfl⟩ := Nat.exists_eq_add_of_lt hi
  rw [Nat.add_assoc, List.getElem?_append_right (Nat.le_add_right _ _), Nat.add_sub_cancel_left,
    List.getElem?_cons_succ, List.getElem?_append_left (by omega)] at hp
  exact hdigits p (List.mem_of_getElem? hp)

/-- A bracket after the first place of a code stands after the code. -/
theorem le_of_bracket (h : Occurs t i j) (hi : i < k) (hk : t[k]? = some (.scalar '[')) :
    j ≤ k := by
  by_contra hj
  rcases Nat.lt_or_ge (k + 1) j with hlt | hge
  · exact absurd (h.isDigit_of_getElem? hi hlt hk) (by simp [bracket_not_isDigit])
  · obtain rfl : j = k + 1 := by omega
    exact absurd (hk.symm.trans h.getElem?_last) (by simp)

/-- A code is not the beginning of a longer one. -/
theorem le_of_same (h : Occurs t i j) {j' : Nat} (h' : Occurs t i j') : j' ≤ j := by
  by_contra hlt
  have htwo := h.two_lt
  have hinside : i < j - 1 ∧ j - 1 + 1 < j' := by omega
  exact absurd (h'.isDigit_of_getElem? hinside.1 hinside.2 h.getElem?_last)
    (by simp [letter_not_isDigit])

/-- Codes in a text do not overlap. -/
theorem disjoint {i' j' : Nat} (h : Occurs t i j) (h' : Occurs t i' j') :
    (i = i' ∧ j = j') ∨ j ≤ i' ∨ j' ≤ i := by
  rcases Nat.lt_trichotomy i i' with hlt | rfl | hgt
  · exact .inr (.inl (h.le_of_bracket hlt h'.getElem?_open))
  · exact .inl ⟨rfl, Nat.le_antisymm (h'.le_of_same h) (h.le_of_same h')⟩
  · exact .inr (.inr (h'.le_of_bracket hgt h.getElem?_open))

end Occurs

/-! ### Parts of a text -/

/-- No code crosses over to a bracket. -/
theorem uncrossed_bracket (a b : Text) : Uncrossed a (.scalar '[' :: b) := by
  intro i j h
  by_contra hcross
  rw [not_or, Nat.not_le, Nat.not_le] at hcross
  exact absurd (h.le_of_bracket hcross.2 (by simp)) (Nat.not_le.2 hcross.1)

/-- A code ends where it ends, whatever follows it. -/
theorem uncrossed_of_isCode (hc : IsCode c) (t : Text) : Uncrossed c t := by
  intro i j h
  have hcode : Occurs (c ++ t) 0 c.length := by simpa using occurs_append [] hc t
  rcases hcode.disjoint h with ⟨-, rfl⟩ | hi | hj
  · exact .inl (Nat.le_refl _)
  · exact .inr hi
  · have hlt := h.two_lt
    omega

/-- A code point that opens no code stands for itself. -/
theorem uncrossed_of_not_opensCode {p : CodePoint} (hopens : ¬ OpensCode (p :: t)) :
    Uncrossed [p] t := by
  intro i j h
  by_contra hcross
  rw [not_or, Nat.not_le, Nat.not_le] at hcross
  obtain rfl : i = 0 := by simpa using hcross.2
  exact hopens ⟨_, _, h.code, (List.take_append_drop j (p :: t)).symm⟩

theorem occurs_append_left (hj : j ≤ a.length) : Occurs (a ++ b) i j ↔ Occurs a i j := by
  have hextract : (a ++ b).extract i j = a.extract i j := by
    simp only [List.extract_eq_take_drop, List.drop_append, List.take_append, List.length_drop]
    rw [show j - i - (a.length - i) = 0 by omega, List.take_zero, List.append_nil]
  constructor
  · rintro ⟨-, hc⟩
    exact ⟨hj, hextract ▸ hc⟩
  · rintro ⟨-, hc⟩
    exact ⟨by simp; omega, hextract ▸ hc⟩

theorem occurs_append_right : Occurs (a ++ b) (a.length + i) (a.length + j) ↔ Occurs b i j := by
  have hextract : (a ++ b).extract (a.length + i) (a.length + j) = b.extract i j := by
    simp [List.extract_eq_take_drop, Nat.add_sub_add_left]
  constructor
  · rintro ⟨hj, hc⟩
    exact ⟨by simpa using hj, hextract ▸ hc⟩
  · rintro ⟨hj, hc⟩
    exact ⟨by simpa using hj, hextract ▸ hc⟩

theorem covered_append_left (h : Uncrossed a b) (hk : k < a.length) :
    Covered (a ++ b) k ↔ Covered a k := by
  constructor
  · rintro ⟨i, j, hocc, hi, hj⟩
    rcases h i j hocc with hle | hge
    · exact ⟨i, j, (occurs_append_left hle).1 hocc, hi, hj⟩
    · omega
  · rintro ⟨i, j, hocc, hi, hj⟩
    exact ⟨i, j, (occurs_append_left hocc.within).2 hocc, hi, hj⟩

theorem covered_append_right (h : Uncrossed a b) :
    Covered (a ++ b) (a.length + k) ↔ Covered b k := by
  constructor
  · rintro ⟨i, j, hocc, hi, hj⟩
    rcases h i j hocc with hle | hge
    · omega
    · obtain ⟨i, rfl⟩ := Nat.exists_eq_add_of_le hge
      obtain ⟨j, rfl⟩ := Nat.exists_eq_add_of_le (by omega : a.length ≤ j)
      exact ⟨i, j, occurs_append_right.1 hocc, by omega, by omega⟩
  · rintro ⟨i, j, hocc, hi, hj⟩
    exact ⟨a.length + i, a.length + j, occurs_append_right.2 hocc, by omega, by omega⟩

/-- What lies in no code is found in two parts apart. -/
theorem outside_append (h : Uncrossed a b) : outside (a ++ b) = outside a ++ outside b := by
  rw [outside, List.length_append, List.range_add, List.filterMap_append, List.filterMap_map]
  congr 1
  · refine List.filterMap_congr fun k hk => ?_
    rw [List.mem_range] at hk
    simp only [covered_append_left h hk, List.getElem?_append_left hk]
  · refine List.filterMap_congr fun k _ => ?_
    simp only [Function.comp_apply, covered_append_right h,
      List.getElem?_append_right (Nat.le_add_right _ _), Nat.add_sub_cancel_left]

theorem outside_of_isCode (hc : IsCode c) : outside c = [] := by
  have hcode : Occurs c 0 c.length := by simpa using occurs_append [] hc []
  rw [outside, List.filterMap_eq_nil_iff]
  intro k hk
  rw [if_pos ⟨0, c.length, hcode, Nat.zero_le k, List.mem_range.1 hk⟩]

theorem outside_singleton (p : CodePoint) : outside [p] = [p] := by
  have hfree : ¬ Covered [p] 0 := by
    rintro ⟨i, j, h, -, -⟩
    have hlt := h.two_lt
    have hj := h.within
    simp only [List.length_singleton] at hj
    omega
  simp [outside, hfree]

/-! ### What is kept -/

/-- The code points that lie in no code are kept, and no others. -/
theorem strip_eq_outside (t : Text) : strip t = outside t := by
  induction t using induction_codes with
  | nil => rfl
  | code c t hc ih =>
    rw [strip_append_of_isCode hc, outside_append (uncrossed_of_isCode hc t), outside_of_isCode hc,
      List.nil_append, ih]
  | plain p t hopens ih =>
    calc strip (p :: t) = p :: strip t := strip_cons_of_not_opensCode hopens
      _ = outside [p] ++ outside t := by rw [outside_singleton, ih, List.singleton_append]
      _ = outside (p :: t) := (outside_append (uncrossed_of_not_opensCode hopens)).symm

/-- Two parts of a text are cleaned apart when no code crosses from one into the other. -/
theorem strip_append (h : Uncrossed a b) : strip (a ++ b) = strip a ++ strip b := by
  simp only [strip_eq_outside, outside_append h]

end

/-- **Exactly the codes of a text are deleted.** Codes in a text do not overlap, the code points
that lie in none are kept in their order, and the parts of a text are cleaned apart when no code
crosses from one into the other. -/
theorem kept_outside_codes (t : Text) :
    (∀ i j i' j', Occurs t i j → Occurs t i' j' → (i = i' ∧ j = j') ∨ j ≤ i' ∨ j' ≤ i) ∧
      strip t = outside t ∧
      ∀ a b, t = a ++ b → Uncrossed a b → strip t = strip a ++ strip b := by
  refine ⟨fun i j i' j' h h' => h.disjoint h', strip_eq_outside t, ?_⟩
  rintro a b rfl h
  exact strip_append h

/-- Two codes, one of them with a digit of another script, behind the beginning of a code and before
the end of one. -/
theorem kept_outside_codes_scripts :
    Occurs "[1[31mx[٣m٤m" 2 6 ∧ Occurs "[1[31mx[٣m٤m" 7 10 ∧
      strip "[1[31mx[٣m٤m" = "[1x٤m" ∧ Uncrossed "[1[31mx" "[٣m٤m" ∧
      strip "[1[31mx[٣m٤m" = strip "[1[31mx" ++ strip "[٣m٤m" := by
  obtain ⟨-, hkept, happend⟩ := kept_outside_codes "[1[31mx[٣m٤m"
  have huncrossed : Uncrossed "[1[31mx" "[٣m٤m" := uncrossed_bracket "[1[31mx" "٣m٤m"
  exact ⟨by decide, by decide, hkept.trans (by decide), huncrossed, happend _ _ rfl huncrossed⟩

end ElmReport.StyleCode
