/-!
# Binary64 numbers

The numbers that a decimal fraction of a report is read as: a whole multiple of a power of two with
at most 53 binary digits, an infinity, or no number at all. A decimal is rounded to the nearest of
them, a tie to the one with the even mantissa.

## Main definitions

* `Binary64`: the numbers.
* `roundHalfEven`: the whole number nearest to a quotient.
* `Binary64.ofQuotient`: the number nearest to a quotient.
* `Binary64.ofDecimal`: the number nearest to a decimal.
* `Binary64.isZero`: the two zeros.

## Main results

* `two_mul_roundHalfEven_le`, `le_two_mul_roundHalfEven`: rounding moves a quotient by at most half.
-/

namespace ElmReport

/-- The whole number nearest to `num / den`, the even one of two equally near. -/
def roundHalfEven (num den : Nat) : Nat :=
  let q := num / den
  let r := num % den
  if 2 * r < den ∨ (2 * r = den ∧ q % 2 = 0) then q else q + 1

/-- Rounding moves a quotient up by at most half. -/
theorem two_mul_roundHalfEven_le (num den : Nat) :
    2 * (den * roundHalfEven num den) ≤ 2 * num + den := by
  have h := Nat.div_add_mod num den
  simp only [roundHalfEven]
  split
  · omega
  · next hr =>
    have hr : den ≤ 2 * (num % den) := by omega
    rw [Nat.mul_add, Nat.mul_one]
    omega

/-- Rounding moves a quotient down by at most half. -/
theorem le_two_mul_roundHalfEven {num den : Nat} (h : 0 < den) :
    2 * num ≤ 2 * (den * roundHalfEven num den) + den := by
  have hd := Nat.div_add_mod num den
  have hm := Nat.mod_lt num h
  simp only [roundHalfEven]
  split
  · omega
  · rw [Nat.mul_add, Nat.mul_one]
    omega

/-- A binary64 number: `mantissa * 2 ^ exponent` with a sign, an infinity, or no number. -/
inductive Binary64 where
  | nan
  | infinite (negative : Bool)
  | finite (negative : Bool) (mantissa : Nat) (exponent : Int)
  deriving DecidableEq, Repr

namespace Binary64

/-- The least exponent of a number. -/
def minExponent : Int := -1074

/-- The greatest exponent of a number. -/
def maxExponent : Int := 971

/-- `num / den / 2 ^ e` as a quotient of two natural numbers. -/
def scale (num den : Nat) (e : Int) : Nat × Nat :=
  (num * Nat.pow 2 (-e).toNat, den * Nat.pow 2 e.toNat)

/-- The number nearest to `num / den`. The exponent is the least one for which the mantissa has at
most 53 binary digits; past the greatest exponent stands infinity. -/
def ofQuotient (negative : Bool) (num den : Nat) : Binary64 :=
  if num = 0 then finite negative 0 0
  else
    let guess : Int := max ((num.log2 : Int) - den.log2 - 53) minExponent
    let wide := scale num den guess
    let e := if Nat.pow 2 53 ≤ wide.1 / wide.2 then guess + 1 else guess
    let fine := scale num den e
    let m := roundHalfEven fine.1 fine.2
    let (m, e) := if m = Nat.pow 2 53 then (Nat.pow 2 52, e + 1) else (m, e)
    if maxExponent < e then infinite negative else finite negative m e

/-- The number nearest to `digits * 10 ^ exponent`. Past 10 ^ 400 every decimal is infinite and
below 10 ^ (-400) every decimal is zero, so that no greater power of ten is ever formed. -/
def ofDecimal (negative : Bool) (digits : Nat) (exponent : Int) : Binary64 :=
  if digits = 0 then finite negative 0 0
  else if 400 < exponent then infinite negative
  else if exponent + (digits.log2 / 3 + 1 : Nat) < -400 then finite negative 0 0
  else ofQuotient negative (digits * Nat.pow 10 exponent.toNat) (Nat.pow 10 (-exponent).toNat)

/-- The two zeros. -/
def isZero : Binary64 → Bool
  | finite _ m _ => m == 0
  | _ => false

end Binary64

end ElmReport
