import ElmReport.Json.NumberLiteral
import ElmReport.Json.StringLiteral

/-!
# Reading JSON

A value is read from the head of a text, and the rest is handed on. Nesting uses up depth, and one
function reads the values at one depth with the function for the next one. The items of a list and
the members of an object use up fuel, one for each; as each takes up at least one code point, the
length of the whole text is always enough.

## Main definitions

* `Json.readAtom`: a value without brackets.
* `Json.readItems`, `Json.readMembers`: what stands between two brackets.
* `Json.readValue`: a value at a given depth.
* `Json.read`: the value that a whole text stands for.

## Main results

* `Json.skipBlanks_append`: blanks in front do not matter.
-/

namespace ElmReport.Json

/-- The code points that may stand between the parts of a value. -/
def isJsonBlank (p : CodePoint) : Bool :=
  p == .scalar ' ' || p == .scalar '\t' || p == .scalar '\n' || p == .scalar '\r'

/-- The text without the blanks at its head. -/
def skipBlanks (t : Text) : Text := t.dropWhile isJsonBlank

@[simp] theorem skipBlanks_nil : skipBlanks [] = [] := rfl

/-- Blanks in front do not matter. -/
theorem skipBlanks_append {blanks : Text} (h : ∀ p ∈ blanks, isJsonBlank p = true) (t : Text) :
    skipBlanks (blanks ++ t) = skipBlanks t := by
  induction blanks with
  | nil => rfl
  | cons p ps ih =>
    have hp : isJsonBlank p = true := h p (by simp)
    simpa [skipBlanks, List.dropWhile_cons, hp] using ih fun q hq => h q (by simp [hq])

/-! ### Values without brackets -/

/-- The rest of a text that opens with a word. -/
def after? : Text → Text → Option Text
  | [], t => some t
  | _ :: _, [] => none
  | w :: word, p :: t => if w = p then after? word t else none

theorem after?_append (word t : Text) : after? word (word ++ t) = some t := by
  induction word with
  | nil => rfl
  | cons w word ih => simp [after?, ih]

/-- The values that are written as a word. -/
def words : List (Text × Json) :=
  [("null", null), ("true", boolean true), ("false", boolean false), ("NaN", float .nan),
    ("Infinity", float (.infinite false)), ("-Infinity", float (.infinite true))]

/-- The value that is written as a word at the head of a text. -/
def readWord? (t : Text) : Option (Json × Text) :=
  words.findSome? fun w => (after? w.1 t).map fun rest => (w.2, rest)

/-- A string after its opening quote. -/
def readString (t : Text) : Except ReadError (Text × Text) :=
  match StringLiteral.scan t with
  | .error e => .error (.fault e)
  | .ok r => .ok r

/-- A value without brackets: a string, a word or a number. -/
def readAtom (limits : Limits) (t : Text) : Except ReadError (Json × Text) :=
  match t with
  | .scalar '\x22' :: rest => (readString rest).map fun r => (.string r.1, r.2)
  | _ =>
    match readWord? t with
    | some r => .ok r
    | none =>
      match NumberLiteral.scan? t with
      | some (n, rest) => (n.value limits).map fun v => (v, rest)
      | none => .error (.fault .noValue)

/-! ### Values with brackets -/

/-- Reads a value from the head of a text. -/
abbrev ValueReader := Text → Except ReadError (Json × Text)

/-- The items of a list from the first one to the closing bracket. -/
def readItems (value : ValueReader) : Nat → Text → Except ReadError (List Json × Text)
  | 0, _ => .error (.fault .noValue)
  | fuel + 1, t => do
    let (v, t) ← value t
    match skipBlanks t with
    | .scalar ']' :: t => return ([v], t)
    | .scalar ',' :: t =>
      let (vs, t) ← readItems value fuel (skipBlanks t)
      return (v :: vs, t)
    | _ => throw (.fault .noComma)

/-- The members of an object from the first one to the closing bracket, as they are written. -/
def readMembers (value : ValueReader) : Nat → Text → Except ReadError (List (Text × Json) × Text)
  | 0, _ => .error (.fault .noName)
  | fuel + 1, t => do
    match t with
    | .scalar '\x22' :: t =>
      let (name, t) ← readString t
      match skipBlanks t with
      | .scalar ':' :: t =>
        let (v, t) ← value (skipBlanks t)
        match skipBlanks t with
        | .scalar '\x7d' :: t => return ([(name, v)], t)
        | .scalar ',' :: t =>
          let (ms, t) ← readMembers value fuel (skipBlanks t)
          return ((name, v) :: ms, t)
        | _ => throw (.fault .noComma)
      | _ => throw (.fault .noColon)
    | _ => throw (.fault .noName)

/-- A list after its opening bracket. -/
def readList (value : ValueReader) (fuel : Nat) (t : Text) : Except ReadError (Json × Text) :=
  match skipBlanks t with
  | .scalar ']' :: t => .ok (.list [], t)
  | t => (readItems value fuel t).map fun r => (.list r.1, r.2)

/-- An object after its opening bracket. -/
def readObject (value : ValueReader) (fuel : Nat) (t : Text) : Except ReadError (Json × Text) :=
  match skipBlanks t with
  | .scalar '\x7d' :: t => .ok (.object [], t)
  | t => (readMembers value fuel t).map fun r => (.object (Members.ofPairs r.1), r.2)

/-- The opening bracket at the head of a text. -/
def opening? : Text → Option (Bracket × Text)
  | .scalar '[' :: t => some (.list, t)
  | .scalar '\x7b' :: t => some (.object, t)
  | _ => none

/-- What follows an opening bracket, with `value` for the values inside. -/
def readInside (value : ValueReader) (fuel : Nat) :
    Bracket → Text → Except ReadError (Json × Text)
  | .list, t => readList value fuel t
  | .object, t => readObject value fuel t

/-- A value inside which at most `depth` brackets are open at a time. -/
def readValue (limits : Limits) (fuel : Nat) : Nat → ValueReader
  | 0, t =>
    match opening? t with
    | some (b, _) => .error (.limit (.deepNesting b))
    | none => readAtom limits t
  | depth + 1, t =>
    match opening? t with
    | some (b, t) => readInside (readValue limits fuel depth) fuel b t
    | none => readAtom limits t

/-! ### Whole texts -/

/-- The value that a whole text stands for, blanks around it aside. -/
def readWhole (limits : Limits) (t : Text) : Except ReadError Json :=
  match readValue limits t.length limits.depth (skipBlanks t) with
  | .error e => .error e
  | .ok (v, rest) => if (skipBlanks rest).isEmpty then .ok v else .error (.fault .extraData)

/-- The value that a text stands for. A byte order mark at its head is a fault of its own. -/
def read (limits : Limits) (t : Text) : Except ReadError Json :=
  match t with
  | .scalar '\uFEFF' :: _ => .error (.fault .byteOrderMark)
  | _ => readWhole limits t

end ElmReport.Json
