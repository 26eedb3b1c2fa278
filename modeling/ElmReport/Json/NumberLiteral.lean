import ElmReport.Json.Basic
import ElmReport.Json.Fault

/-!
# Number literals

A number literal has a whole part without superfluous zeros, then at most one fraction and at most
one exponent. The longest literal at the head of a text is taken: a point or an exponent mark
without a digit after it is left to what follows. A literal that is only a whole part is an integer,
every other one a binary64 number.

## Main definitions

* `NumberLiteral`: the parts of a literal.
* `NumberLiteral.scan?`: the longest literal at the head of a text, and the rest.
* `NumberLiteral.value`: the value of a literal.

## Main results

* `digitsValue_append_singleton`: one more digit is ten times the value and the digit.
-/

namespace ElmReport.Json

/-- The value of a run of decimal digits. -/
def digitsValue (digits : Text) : Nat :=
  digits.foldl (fun n p => 10 * n + (p.val - 0x30)) 0

/-- One more digit is ten times the value and the digit. -/
theorem digitsValue_append_singleton (digits : Text) (p : CodePoint) :
    digitsValue (digits ++ [p]) = 10 * digitsValue digits + (p.val - 0x30) := by
  simp [digitsValue]

/-- The digits at the head of a text, and the rest. -/
def scanDigits (t : Text) : Text × Text :=
  (t.takeWhile CodePoint.isAsciiDigit, t.dropWhile CodePoint.isAsciiDigit)

/-- The parts of a number literal. An absent fraction has no digits. -/
structure NumberLiteral where
  negative : Bool
  whole : Text
  fraction : Text
  exponent : Option (Bool × Text)
  deriving DecidableEq, Repr

namespace NumberLiteral

/-- The whole part at the head of a text: a zero alone, or digits that do not start with zero. -/
def scanWhole? : Text → Option (Text × Text)
  | [] => none
  | p :: t =>
    if p = .scalar '0' then some ([p], t)
    else if p.isAsciiDigit then some (p :: (scanDigits t).1, (scanDigits t).2)
    else none

/-- The digits of the fraction at the head of a text, none when there is no fraction. -/
def scanFraction (t : Text) : Text × Text :=
  match t with
  | .scalar '.' :: rest => if (scanDigits rest).1.isEmpty then ([], t) else scanDigits rest
  | _ => ([], t)

/-- A sign at the head of a text, true for minus. -/
def scanSign : Text → Bool × Text
  | .scalar '-' :: t => (true, t)
  | .scalar '+' :: t => (false, t)
  | t => (false, t)

/-- The exponent at the head of a text, with its sign and its digits. -/
def scanExponent (t : Text) : Option (Bool × Text) × Text :=
  match t with
  | p :: rest =>
    if p = .scalar 'e' ∨ p = .scalar 'E' then
      let (negative, after) := scanSign rest
      let (digits, rest) := scanDigits after
      if digits.isEmpty then (none, t) else (some (negative, digits), rest)
    else (none, t)
  | [] => (none, t)

/-- The literal after its minus sign, if there is one. -/
def scanUnsigned? (negative : Bool) (t : Text) : Option (NumberLiteral × Text) :=
  match scanWhole? t with
  | none => none
  | some (whole, t) =>
    let (fraction, t) := scanFraction t
    let (exponent, t) := scanExponent t
    some (⟨negative, whole, fraction, exponent⟩, t)

/-- The longest literal at the head of a text, and the rest. -/
def scan? : Text → Option (NumberLiteral × Text)
  | .scalar '-' :: t => scanUnsigned? true t
  | t => scanUnsigned? false t

/-- The power of ten that an exponent stands for. -/
def exponentValue : Option (Bool × Text) → Int
  | none => 0
  | some (negative, digits) => if negative then -digitsValue digits else digitsValue digits

/-- Whether a literal is only a whole part. -/
def isInteger (n : NumberLiteral) : Bool := n.fraction.isEmpty && n.exponent.isNone

/-- The value of a literal; integers have at most `limits.digits` digits. -/
def value (limits : Limits) (n : NumberLiteral) : Except ReadError Json :=
  if n.isInteger then
    if limits.digits < n.whole.length then
      .error (.limit (.longInteger limits.digits n.whole.length))
    else .ok (.integer (if n.negative then -digitsValue n.whole else digitsValue n.whole))
  else
    .ok (.float (.ofDecimal n.negative (digitsValue (n.whole ++ n.fraction))
      (exponentValue n.exponent - n.fraction.length)))

end NumberLiteral

end ElmReport.Json
