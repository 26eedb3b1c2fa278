import ElmReport.Text.Basic
import ElmReport.Text.Digit

/-!
# Style codes

The compiler leaves codes for the style of a terminal in its messages: an opening bracket, one or
more decimal digits of any script, and the letter m. They are deleted from the text of a diagnostic.

## Main definitions

* `StyleCode.width?`: the length of the code after a bracket.
* `StyleCode.strip`: a text without its style codes.

## Main results

* `StyleCode.strip_cons`: a code point that opens no code is kept.
* `StyleCode.strip_code`: a code is deleted.
-/

namespace ElmReport.StyleCode

/-- The number of code points that a code takes up after its bracket, given the text after it. -/
def width? (t : Text) : Option Nat :=
  let digits := t.takeWhile CodePoint.isDigit
  if digits.isEmpty then none
  else if (t.drop digits.length).head? = some (.scalar 'm') then some (digits.length + 1)
  else none

/-- A text without its style codes, after passing over `skip` code points. -/
def stripAfter : Nat → Text → Text
  | _, [] => []
  | skip + 1, _ :: t => stripAfter skip t
  | 0, p :: t =>
    if p = .scalar '[' then
      match width? t with
      | some width => stripAfter width t
      | none => p :: stripAfter 0 t
    else p :: stripAfter 0 t

/-- A text without its style codes. -/
def strip (t : Text) : Text := stripAfter 0 t

theorem stripAfter_eq (skip : Nat) (t : Text) : stripAfter skip t = strip (t.drop skip) := by
  induction skip generalizing t with
  | zero => rfl
  | succ n ih =>
    cases t with
    | nil => rfl
    | cons p t => exact ih t

@[simp] theorem strip_nil : strip [] = [] := rfl

/-- A code point that opens no code is kept. -/
theorem strip_cons {p : CodePoint} {t : Text} (h : p = .scalar '[' → width? t = none) :
    strip (p :: t) = p :: strip t := by
  rw [strip, stripAfter]
  split
  · next hp => simp [h hp, strip]
  · rfl

/-- A code is deleted. -/
theorem strip_code {t : Text} {width : Nat} (h : width? t = some width) :
    strip (.scalar '[' :: t) = strip (t.drop width) := by
  rw [strip, stripAfter, if_pos rfl, h]
  exact stripAfter_eq width t

end ElmReport.StyleCode
