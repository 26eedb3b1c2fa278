import ElmReport.Text.Utf8

/-!
# Percent encoding

A byte outside the unreserved set is written as a percent sign and two hexadecimal digits. In
reading, a percent sign without two such digits stands for itself, and the bytes between two code
points that are not ASCII are read as UTF-8, leniently.

## Main definitions

* `Percent.encode`: the encoding of a text.
* `Percent.decode`: the text that an encoding stands for.

## Main results

* `Percent.decodeFrom_byte`: an encoded byte is read as this byte.
-/

namespace ElmReport.Percent

/-- The code points that stand for themselves: letters, digits, the four marks and the slash. -/
def isUnreserved (p : CodePoint) : Bool :=
  p.isAsciiLetter || p.isAsciiDigit ||
    p == .scalar '_' || p == .scalar '.' || p == .scalar '-' || p == .scalar '~' ||
    p == .scalar '/'

/-- A hexadecimal digit in capitals. -/
def capitalDigit (n : Nat) : CodePoint := .ofNat (if n < 10 then 0x30 + n else 0x37 + n)

/-- A byte, encoded unless it stands for itself. -/
def encodeByte (b : UInt8) : Text :=
  let p := CodePoint.ofNat b.toNat
  if isUnreserved p then [p]
  else [.scalar '%', capitalDigit (b.toNat / 16), capitalDigit (b.toNat % 16)]

/-- The encoding of a text, or where its first lone surrogates stand. -/
def encode (t : Text) : Except LoneSurrogates Text :=
  t.utf8.map fun bytes => bytes.flatMap encodeByte

/-- The byte that two hexadecimal digits stand for. -/
def byte? (a b : CodePoint) : Option UInt8 :=
  match a.hexValue?, b.hexValue? with
  | some a, some b => some (.ofNat (16 * a + b))
  | _, _ => none

/-- The code points that a byte completes. -/
def completed (s : Utf8.State) (b : UInt8) : Text := (Utf8.step s b).1.map CodePoint.scalar

/-- The code points that the end of some bytes gives. -/
def closed (s : Utf8.State) : Text := (Utf8.finish s).map CodePoint.scalar

/-- What the rest of an encoding stands for when the bytes so far have led to a state. -/
def decodeFrom (s : Utf8.State) : Text → Text
  | [] => closed s
  | .scalar '%' :: a :: b :: t =>
    match byte? a b with
    | some byte => completed s byte ++ decodeFrom (Utf8.step s byte).2 t
    | none => completed s 0x25 ++ decodeFrom (Utf8.step s 0x25).2 (a :: b :: t)
  | p :: t =>
    if p.isAscii then
      completed s (.ofNat p.val) ++ decodeFrom (Utf8.step s (.ofNat p.val)).2 t
    else closed s ++ p :: decodeFrom .ground t

/-- The text that an encoding stands for. -/
def decode (t : Text) : Text := decodeFrom .ground t

/-- An encoded byte is read as this byte. -/
theorem decodeFrom_byte {s : Utf8.State} {a b : CodePoint} {byte : UInt8}
    (h : byte? a b = some byte) (t : Text) :
    decodeFrom s (.scalar '%' :: a :: b :: t) =
      completed s byte ++ decodeFrom (Utf8.step s byte).2 t := by
  rw [decodeFrom, h]

end ElmReport.Percent
