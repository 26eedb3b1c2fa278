/-!
# Code points

A report line may escape one half of a surrogate pair on its own, so the characters of a text are
code points rather than scalar values: a code point is a scalar value, or a surrogate that stands
alone.

## Main definitions

* `CodePoint`: a scalar value or a lone surrogate.
* `CodePoint.val`: the number of a code point.
* `CodePoint.ofNat`: the code point of a number.
* `CodePoint.pair?`: the scalar value that two surrogates stand for.

## Main results

* `CodePoint.ofNat_val`: a code point is the code point of its number.
* `CodePoint.val_inj`: code points with the same number are equal.
-/

namespace ElmReport

/-- A Unicode code point: a scalar value, or a surrogate that stands alone, given by its distance
from U+D800. -/
inductive CodePoint where
  | scalar (c : Char)
  | surrogate (offset : Fin 2048)
  deriving DecidableEq, Repr

namespace CodePoint

instance : Coe Char CodePoint := ⟨scalar⟩

instance : Inhabited CodePoint := ⟨scalar ' '⟩

/-- The number of a code point. -/
def val : CodePoint → Nat
  | scalar c => c.toNat
  | surrogate s => 0xD800 + s.val

@[simp] theorem val_scalar (c : Char) : (scalar c).val = c.toNat := rfl

@[simp] theorem val_surrogate (s : Fin 2048) : (surrogate s).val = 0xD800 + s.val := rfl

/-- A code point that is a scalar value. -/
def IsScalar (p : CodePoint) : Prop := ∃ c, p = scalar c

@[simp] theorem isScalar_scalar (c : Char) : (scalar c).IsScalar := ⟨c, rfl⟩

@[simp] theorem not_isScalar_surrogate (s : Fin 2048) : ¬ (surrogate s).IsScalar := by
  rintro ⟨c, h⟩
  cases h

/-- The code point of a number; a number past U+10FFFF gives the replacement character. -/
def ofNat (n : Nat) : CodePoint :=
  if h : n.isValidChar then scalar (Char.ofNatAux n h)
  else if h : 0xD800 ≤ n ∧ n < 0xE000 then surrogate ⟨n - 0xD800, by omega⟩
  else scalar '\uFFFD'

theorem ofNat_toNat (c : Char) : ofNat c.toNat = scalar c := by
  have h : c.toNat.isValidChar := c.valid
  rw [ofNat, dif_pos h]
  congr 1

/-- A code point is the code point of its number. -/
@[simp] theorem ofNat_val (p : CodePoint) : ofNat p.val = p := by
  cases p with
  | scalar c => exact ofNat_toNat c
  | surrogate s =>
    have hs := s.isLt
    have h₁ : ¬ (0xD800 + s.val).isValidChar := by
      simp only [Nat.isValidChar]
      omega
    have h₂ : 0xD800 ≤ 0xD800 + s.val ∧ 0xD800 + s.val < 0xE000 := by omega
    simp [ofNat, val, h₁, h₂.2]

/-- Below the surrogates a code point has the number that it is made of. -/
theorem val_ofNat {n : Nat} (h : n < 0xD800) : (ofNat n).val = n := by
  rw [ofNat, dif_pos (Or.inl h)]
  rfl

/-- Code points with the same number are equal. -/
theorem val_inj {p q : CodePoint} (h : p.val = q.val) : p = q := by
  rw [← ofNat_val p, h, ofNat_val]

/-! ### Classes of code points -/

/-- A code point below U+0080. -/
def isAscii (p : CodePoint) : Bool := p.val < 0x80

/-- An ASCII letter. -/
def isAsciiLetter (p : CodePoint) : Bool :=
  (0x41 ≤ p.val && p.val ≤ 0x5A) || (0x61 ≤ p.val && p.val ≤ 0x7A)

/-- An ASCII decimal digit. -/
def isAsciiDigit (p : CodePoint) : Bool := 0x30 ≤ p.val && p.val ≤ 0x39

/-- The value of an ASCII hexadecimal digit of either case. -/
def hexValue? (p : CodePoint) : Option Nat :=
  let n := p.val
  if 0x30 ≤ n ∧ n ≤ 0x39 then some (n - 0x30)
  else if 0x41 ≤ n ∧ n ≤ 0x46 then some (n - 0x37)
  else if 0x61 ≤ n ∧ n ≤ 0x66 then some (n - 0x57)
  else none

/-- An ASCII capital letter becomes the small one; every other code point stays. -/
def asciiLower (p : CodePoint) : CodePoint :=
  if 0x41 ≤ p.val ∧ p.val ≤ 0x5A then ofNat (p.val + 0x20) else p

/-- A surrogate that opens a pair. -/
def isHigh (p : CodePoint) : Bool := 0xD800 ≤ p.val && p.val < 0xDC00

/-- A surrogate that closes a pair. -/
def isLow (p : CodePoint) : Bool := 0xDC00 ≤ p.val && p.val < 0xE000

/-- The scalar value that an opening and a closing surrogate stand for together. -/
def pair? (high low : CodePoint) : Option CodePoint :=
  if high.isHigh && low.isLow then
    some (ofNat (0x10000 + (high.val - 0xD800) * 0x400 + (low.val - 0xDC00)))
  else none

/-! ### Order -/

/-- Code points are ordered by their numbers. -/
def precedes (p q : CodePoint) : Bool := p.val < q.val

end CodePoint

end ElmReport
