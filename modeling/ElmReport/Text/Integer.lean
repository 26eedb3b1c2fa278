import ElmReport.Text.Basic
import ElmReport.Text.Blank
import ElmReport.Text.Digit

/-!
# Reading integers

An integer is a run of decimal digits of any scripts after an optional sign, with blanks around it.
Single low lines may stand between two digits. A run of too many digits is refused.

## Main definitions

* `Text.trim`: a text without the blanks around it.
* `Text.digitRun?`: the values of the digits of a run.
* `Text.toNat?`, `Text.toInt?`: the number that a text stands for.

## Main results

* `Text.value_append_singleton`: one more digit shifts the others.
* `Text.digitRun?_cons_lowLine`: a low line opens no run.
-/

namespace ElmReport.Text

/-- A text without the blanks around it. -/
def trim (t : Text) : Text := trimEnd CodePoint.isBlank (t.dropWhile CodePoint.isBlank)

/-- The code point that may stand between two digits. -/
def lowLine : CodePoint := .scalar '_'

/-- The values of the digits of a run, in which single low lines stand between digits only. -/
def digitRun? : Text → Option (List Nat)
  | [] => none
  | [p] => p.digitValue?.map ([·])
  | p :: q :: t =>
    match p.digitValue? with
    | none => none
    | some d =>
      if q = lowLine then (digitRun? t).map (d :: ·) else (digitRun? (q :: t)).map (d :: ·)

/-- The number that the values of digits stand for. -/
def value (digits : List Nat) : Nat := digits.foldl (fun n d => 10 * n + d) 0

/-- One more digit shifts the others. -/
theorem value_append_singleton (digits : List Nat) (d : Nat) :
    value (digits ++ [d]) = 10 * value digits + d := by
  simp [value]

/-- A low line opens no run. -/
theorem digitRun?_cons_lowLine (t : Text) : digitRun? (lowLine :: t) = none := by
  have h : lowLine.digitValue? = none := by decide
  cases t with
  | nil => simp [digitRun?, h]
  | cons q t => simp [digitRun?, h]

/-- The number that a run of at most `limit` digits stands for. -/
def toNat? (limit : Nat) (t : Text) : Option Nat :=
  (digitRun? t).bind fun digits => if digits.length ≤ limit then some (value digits) else none

/-- The integer that a text stands for, given by at most `limit` digits. -/
def toInt? (limit : Nat) (t : Text) : Option Int :=
  match trim t with
  | .scalar '-' :: digits => (toNat? limit digits).map fun n => -(n : Int)
  | .scalar '+' :: digits => (toNat? limit digits).map Int.ofNat
  | digits => (toNat? limit digits).map Int.ofNat

end ElmReport.Text
