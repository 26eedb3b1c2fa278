import ElmReport.Decimal.Binary64
import ElmReport.Text.Basic

/-!
# The shortest decimal of a binary64 number

A number is written with the fewest digits that read back as it. Of the decimals with that many
digits the nearest is taken, and the even one of two equally near.

The decimals that read back as `m * 2 ^ e` fill an interval around it, ends included when `m` is
even. Every grid `10 ^ k` that has a point in the interval has one of the two neighbours of the
number in it, so it is enough to try these two, from coarse grids to fine ones.

## Main definitions

* `Shortest.Grid`: the number and its interval, measured in steps of a decimal grid.
* `Shortest.Grid.pick?`: the neighbour of the number that reads back.
* `Shortest.find`: the digits and the exponent of the shortest decimal.
* `Binary64.text`: a number as text.

## Main results

* `Shortest.Grid.holds_of_pick?`: the decimal that is picked lies in the interval.
-/

namespace ElmReport

namespace Shortest

/-- A number and the interval of what reads back as it: a point `d` of the grid lies `d * step`
above zero, the number `mid`, and the ends of the interval `low` and `high`. -/
structure Grid where
  low : Nat
  mid : Nat
  high : Nat
  step : Nat
  closed : Bool

namespace Grid

/-- The grid `10 ^ k` with the interval of `m * 2 ^ e`, everything measured in a common unit. Below
a power of two the next number is only half as far away as above it. -/
def ofNumber (m : Nat) (e k : Int) : Grid :=
  let unit := Nat.pow 2 (e - 2).toNat * Nat.pow 10 (-k).toNat
  let below := if m = Nat.pow 2 52 ∧ Binary64.minExponent < e then 1 else 2
  { low := (4 * m - below) * unit
    mid := 4 * m * unit
    high := (4 * m + 2) * unit
    step := Nat.pow 2 (2 - e).toNat * Nat.pow 10 k.toNat
    closed := m % 2 == 0 }

/-- Whether the point `d` of the grid reads back as the number. -/
def holds (g : Grid) (d : Nat) : Bool :=
  if g.closed then g.low ≤ d * g.step && d * g.step ≤ g.high
  else g.low < d * g.step && d * g.step < g.high

/-- The neighbour of the number on the grid that reads back as it, the nearer one when both do, and
the even one when both are equally near. -/
def pick? (g : Grid) : Option Nat :=
  let d := g.mid / g.step
  let r := g.mid % g.step
  let up := g.step < 2 * r ∨ (g.step = 2 * r ∧ d % 2 = 1)
  match g.holds d, g.holds (d + 1) with
  | true, true => some (if up then d + 1 else d)
  | true, false => some d
  | false, true => some (d + 1)
  | false, false => none

/-- The decimal that is picked lies in the interval. -/
theorem holds_of_pick? {g : Grid} {d : Nat} (h : g.pick? = some d) : g.holds d = true := by
  simp only [pick?] at h
  split at h <;> simp only [Option.some.injEq, reduceCtorEq] at h
  · split at h <;> simp_all
  · simp_all
  · simp_all

end Grid

/-- The first decimal that reads back on the grids `10 ^ k`, `10 ^ (k - 1)` and so on. -/
def search (m : Nat) (e : Int) : Nat → Int → Nat × Int
  | 0, k => ((Grid.ofNumber m e k).mid / (Grid.ofNumber m e k).step, k)
  | n + 1, k =>
    match (Grid.ofNumber m e k).pick? with
    | some d => (d, k)
    | none => search m e n (k - 1)

/-- The digits and the exponent of the shortest decimal of `m * 2 ^ e`. The first grid is at least
as coarse as the leading digit, and some grid with seventeen digits always has a point. -/
def find (m : Nat) (e : Int) : Nat × Int :=
  search m e 25 (((m.log2 : Int) + 1 + e) * 30103 / 100000 + 1)

end Shortest

namespace Binary64

/-- Decimal text with the point in its place: `digits` with `leading` as the power of ten of the
first of them. -/
def positional (digits : Text) (leading : Int) : Text :=
  if leading < 0 then
    ("0." : Text) ++ List.replicate (-leading - 1).toNat (CodePoint.scalar '0') ++ digits
  else
    let whole := leading.toNat + 1
    if digits.length ≤ whole then
      digits ++ List.replicate (whole - digits.length) (CodePoint.scalar '0') ++ (".0" : Text)
    else digits.take whole ++ (CodePoint.scalar '.' :: digits.drop whole)

/-- Decimal text with one digit before the point and a signed power of ten of two digits or more. -/
def scientific (digits : Text) (leading : Int) : Text :=
  let fraction := if digits.length ≤ 1 then [] else CodePoint.scalar '.' :: digits.drop 1
  let sign : Text := if leading < 0 then "-" else "+"
  let power := Text.ofNat leading.natAbs
  digits.take 1 ++ fraction ++ ("e" : Text) ++ sign ++
    (if power.length < 2 then CodePoint.scalar '0' :: power else power)

/-- The text of a number without its sign: with the point in its place from `10 ^ (-4)` up to but
not including `10 ^ 16`, with a power of ten elsewhere. -/
def magnitudeText (m : Nat) (e : Int) : Text :=
  if m = 0 then "0.0"
  else
    let (d, k) := Shortest.find m e
    let digits := Text.ofNat d
    let leading := k + digits.length - 1
    if -4 ≤ leading ∧ leading < 16 then positional digits leading else scientific digits leading

/-- A minus sign for the negative numbers. -/
def signText (negative : Bool) : Text := if negative then "-" else ""

/-- The text of a number. -/
def text : Binary64 → Text
  | nan => "nan"
  | infinite negative => signText negative ++ ("inf" : Text)
  | finite negative m e => signText negative ++ magnitudeText m e

end Binary64

end ElmReport
