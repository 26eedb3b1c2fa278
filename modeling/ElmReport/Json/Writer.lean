import ElmReport.Json.Basic

/-!
# Writing JSON

Values are written in ASCII alone: every other code point is escaped, one past U+FFFF as a pair of
surrogates. The compact form has no blanks; the indented form puts every item and every member on a
line of its own.

## Main definitions

* `Json.stringLiteral`: a text as a string literal.
* `Json.compact`: the form without blanks.
* `Json.indented`: the form with a line for every item and member.
* `Json.hasLongInteger`: whether a value holds an integer too long to be written.
-/

namespace ElmReport

/-- A code point as it stands in a string literal. -/
def CodePoint.jsonEscaped (p : CodePoint) : Text :=
  if p = .scalar '\x22' ∨ p = .scalar '\x5c' then [.scalar '\x5c', p]
  else if p = .scalar '\n' then "\\n"
  else if p = .scalar '\r' then "\\r"
  else if p = .scalar '\t' then "\\t"
  else if p = .scalar '\x0c' then "\\f"
  else if p = .scalar '\x08' then "\\b"
  else if 0x20 ≤ p.val ∧ p.val < 0x7F then [p]
  else if p.val < 0x10000 then ("\\u" : Text) ++ Text.hex 4 p.val
  else
    ("\\u" : Text) ++ Text.hex 4 (0xD800 + (p.val - 0x10000) / 0x400) ++
      (("\\u" : Text) ++ Text.hex 4 (0xDC00 + (p.val - 0x10000) % 0x400))

namespace Json

/-- A text as a string literal. -/
def stringLiteral (t : Text) : Text :=
  .scalar '\x22' :: (t.flatMap CodePoint.jsonEscaped ++ [.scalar '\x22'])

/-- A binary64 number as a number literal or as the word for it. -/
def floatLiteral : Binary64 → Text
  | .nan => "NaN"
  | .infinite false => "Infinity"
  | .infinite true => "-Infinity"
  | x => x.text

/-! ### The compact form -/

mutual

/-- A value without blanks. -/
def compact : Json → Text
  | null => "null"
  | boolean true => "true"
  | boolean false => "false"
  | integer n => Text.ofInt n
  | float x => floatLiteral x
  | string t => stringLiteral t
  | list items => ("[" : Text) ++ Text.join "," (compactItems items) ++ ("]" : Text)
  | object members =>
    ("\x7b" : Text) ++ Text.join "," (compactMembers members) ++ ("\x7d" : Text)

/-- The items of a list without blanks. -/
def compactItems : List Json → List Text
  | [] => []
  | v :: items => v.compact :: compactItems items

/-- The members of an object without blanks. -/
def compactMembers : List (Text × Json) → List Text
  | [] => []
  | (name, v) :: members =>
    (stringLiteral name ++ (.scalar ':' :: v.compact)) :: compactMembers members

end

/-! ### The indented form -/

/-- A line feed and the blanks of an indentation. -/
def newLine (width level : Nat) : Text :=
  .scalar '\n' :: List.replicate (width * level) (.scalar ' ')

/-- Pieces between brackets, each on a line of its own that is indented to `level + 1`. -/
def bracketed (left right : Text) (width level : Nat) (pieces : List Text) : Text :=
  if pieces.isEmpty then left ++ right
  else
    left ++ newLine width (level + 1) ++
      Text.join (.scalar ',' :: newLine width (level + 1)) pieces ++
      (newLine width level ++ right)

mutual

/-- A value with `width` blanks for every level of brackets, inside `level` of them. -/
def indented (width level : Nat) : Json → Text
  | list items => bracketed "[" "]" width level (indentedItems width (level + 1) items)
  | object members =>
    bracketed "\x7b" "\x7d" width level (indentedMembers width (level + 1) members)
  | null => "null"
  | boolean true => "true"
  | boolean false => "false"
  | integer n => Text.ofInt n
  | float x => floatLiteral x
  | string t => stringLiteral t

/-- The items of a list, indented. -/
def indentedItems (width level : Nat) : List Json → List Text
  | [] => []
  | v :: items => v.indented width level :: indentedItems width level items

/-- The members of an object, indented. -/
def indentedMembers (width level : Nat) : List (Text × Json) → List Text
  | [] => []
  | (name, v) :: members =>
    (stringLiteral name ++ ((": " : Text) ++ v.indented width level)) ::
      indentedMembers width level members

end

/-! ### Integers that are too long -/

mutual

/-- Whether a value holds an integer of more than `digits` digits. -/
def hasLongInteger (digits : Nat) : Json → Bool
  | integer n => 10 ^ digits ≤ n.natAbs
  | list items => anyLongItem digits items
  | object members => anyLongMember digits members
  | _ => false

/-- Whether an item holds an integer of more than `digits` digits. -/
def anyLongItem (digits : Nat) : List Json → Bool
  | [] => false
  | v :: items => v.hasLongInteger digits || anyLongItem digits items

/-- Whether a member holds an integer of more than `digits` digits. -/
def anyLongMember (digits : Nat) : List (Text × Json) → Bool
  | [] => false
  | (_, v) :: members => v.hasLongInteger digits || anyLongMember digits members

end

end Json

end ElmReport
