import ElmReport.Text.Basic

/-!
# Why a text is not read as JSON

A text is either no JSON at all, with a fault that is named for what stands in the wrong place, or
past one of the two limits of the reader.

## Main definitions

* `Json.Fault`: what is wrong with a text.
* `Json.Bracket`: the two brackets that nest.
* `Json.Limits`: how long a whole number and how deep a nesting the reader takes.
* `Json.LimitError`: a limit that is passed.
* `Json.ReadError`: a fault, or a limit that is passed.
-/

namespace ElmReport.Json

/-- What is wrong with a text that is no JSON. -/
inductive Fault where
  | byteOrderMark
  | noValue
  | noName
  | noColon
  | noComma
  | controlCharacter
  | unterminatedString
  | unknownEscape
  | badUnicodeEscape
  | extraData
  deriving DecidableEq, Repr

/-- The wording of a fault. -/
def Fault.message : Fault → Text
  | byteOrderMark => "Unexpected UTF-8 BOM (decode using utf-8-sig)"
  | noValue => "Expecting value"
  | noName => "Expecting property name enclosed in double quotes"
  | noColon => "Expecting \x27:\x27 delimiter"
  | noComma => "Expecting \x27,\x27 delimiter"
  | controlCharacter => "Invalid control character at"
  | unterminatedString => "Unterminated string starting at"
  | unknownEscape => "Invalid \\escape"
  | badUnicodeEscape => "Invalid \\uXXXX escape"
  | extraData => "Extra data"

/-- The two brackets that nest. -/
inductive Bracket where
  | list
  | object
  deriving DecidableEq, Repr

/-- What messages call the value that a bracket opens. -/
def Bracket.name : Bracket → Text
  | list => "array"
  | object => "object"

/-- The number of digits of a whole number and the number of open brackets that the reader takes. -/
structure Limits where
  digits : Nat
  depth : Nat

/-- The limits for the lines of a report. The number of digits is fixed. How deep the reader goes
depends on how much of the stack is in use where it is called, which a line does not tell: some
hundreds of brackets are always taken, some thousands never. One depth between them stands for all;
the facts on the reader hold for whatever limits it is given. -/
def Limits.ofReports : Limits := ⟨4300, 980⟩

/-- A limit of the reader that a text passes. -/
inductive LimitError where
  | longInteger (limit digits : Nat)
  | deepNesting (bracket : Bracket)
  deriving DecidableEq, Repr

/-- The wording of a limit that is passed. -/
def LimitError.message : LimitError → Text
  | longInteger limit digits =>
    ("Exceeds the limit (" : Text) ++ Text.ofNat limit ++
      (" digits) for integer string conversion: value has " : Text) ++ Text.ofNat digits ++
      (" digits; use sys.set_int_max_str_digits() to increase the limit" : Text)
  | deepNesting b =>
    ("maximum recursion depth exceeded while decoding a JSON " : Text) ++ b.name ++
      (" from a unicode string" : Text)

/-- Why a text is not read: it has a fault, or it passes a limit. -/
inductive ReadError where
  | fault (fault : Fault)
  | limit (error : LimitError)
  deriving DecidableEq, Repr

end ElmReport.Json
