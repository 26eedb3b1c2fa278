import ElmReport.Decimal.Shortest
import ElmReport.Text.Quoted

/-!
# JSON values

A JSON value keeps whole numbers and decimal fractions apart, and the members of an object in their
order of appearance. Of members with the same name the last value counts, at the place of the first.

## Main definitions

* `Json`: JSON values.
* `Json.Kind`, `Json.kind`: the kind of a value and its name in messages.
* `Members.insert`, `Members.ofPairs`, `Members.get?`: building and searching the members of an
  object.
* `Json.isTrue`: whether a value counts as true.
* `Json.display`: a value as messages show it.

## Main results

* `Members.get?_insert_self`, `Members.get?_insert_of_ne`: looking up after an insertion.
* `Members.get?_ofPairs`: a name has the value of its last pair.
-/

namespace ElmReport

/-- A JSON value. -/
inductive Json where
  | null
  | boolean (value : Bool)
  | integer (value : Int)
  | float (value : Binary64)
  | string (value : Text)
  | list (items : List Json)
  | object (members : List (Text × Json))
  deriving Inhabited

/-- The members of an object, in order of appearance. -/
abbrev Members := List (Text × Json)

/-! ### Members -/

namespace Members

/-- Gives a name a value: at its place when it has one already, at the end otherwise. -/
def insert (name : Text) (value : Json) : Members → Members
  | [] => [(name, value)]
  | m :: ms => if m.1 = name then (name, value) :: ms else m :: insert name value ms

/-- The members that pairs of names and values stand for. -/
def ofPairs (pairs : List (Text × Json)) : Members :=
  pairs.foldl (fun ms p => insert p.1 p.2 ms) []

/-- The value of a name. -/
def get? (name : Text) : Members → Option Json
  | [] => none
  | m :: ms => if m.1 = name then some m.2 else get? name ms

@[simp] theorem get?_nil (name : Text) : get? name [] = none := rfl

@[simp] theorem get?_insert_self (name : Text) (value : Json) (ms : Members) :
    get? name (insert name value ms) = some value := by
  induction ms with
  | nil => simp [insert, get?]
  | cons m ms ih =>
    rw [insert]
    split <;> simp_all [get?]

theorem get?_insert_of_ne {name other : Text} (h : other ≠ name) (value : Json) (ms : Members) :
    get? other (insert name value ms) = get? other ms := by
  induction ms with
  | nil => simp [insert, get?, h.symm]
  | cons m ms ih =>
    rw [insert]
    split
    · next hm => simp [get?, hm, h.symm]
    · simp [get?, ih]

theorem ofPairs_append_singleton (pairs : List (Text × Json)) (p : Text × Json) :
    ofPairs (pairs ++ [p]) = insert p.1 p.2 (ofPairs pairs) := by
  simp [ofPairs]

/-- A name has the value of its last pair. -/
theorem get?_ofPairs (name : Text) (pairs : List (Text × Json)) :
    get? name (ofPairs pairs) = get? name pairs.reverse := by
  rw [← pairs.reverse_reverse]
  generalize pairs.reverse = reversed
  rw [List.reverse_reverse]
  induction reversed with
  | nil => rfl
  | cons p ps ih =>
    rw [List.reverse_cons, ofPairs_append_singleton]
    by_cases h : p.1 = name
    · subst h
      simp [get?]
    · rw [get?_insert_of_ne (fun e => h e.symm), ih]
      simp [get?, h]

end Members

namespace Json

/-! ### Kinds -/

/-- The kinds of JSON values. -/
inductive Kind where
  | null | boolean | integer | float | string | list | object
  deriving DecidableEq, Repr

/-- What messages call a kind. -/
def Kind.name : Kind → Text
  | null => "NoneType"
  | boolean => "bool"
  | integer => "int"
  | float => "float"
  | string => "str"
  | list => "list"
  | object => "dict"

/-- The kind of a value. -/
def kind : Json → Kind
  | null => .null
  | boolean _ => .boolean
  | integer _ => .integer
  | float _ => .float
  | string _ => .string
  | list _ => .list
  | object _ => .object

/-- Whether a value counts as true: null, false, every zero and everything empty do not. -/
def isTrue : Json → Bool
  | null => false
  | boolean b => b
  | integer n => n != 0
  | float x => !x.isZero
  | string t => !t.isEmpty
  | list items => !items.isEmpty
  | object members => !members.isEmpty

/-! ### How messages show a value -/

mutual

/-- A value as messages show it. -/
def display : Json → Text
  | null => "None"
  | boolean true => "True"
  | boolean false => "False"
  | integer n => Text.ofInt n
  | float x => x.text
  | string t => t.quoted
  | list items => ("[" : Text) ++ Text.join ", " (displayItems items) ++ ("]" : Text)
  | object members =>
    ("\x7b" : Text) ++ Text.join ", " (displayMembers members) ++ ("\x7d" : Text)

/-- The items of a list as messages show them. -/
def displayItems : List Json → List Text
  | [] => []
  | v :: items => v.display :: displayItems items

/-- The members of an object as messages show them. -/
def displayMembers : List (Text × Json) → List Text
  | [] => []
  | (name, v) :: members => (name.quoted ++ ((": " : Text) ++ v.display)) :: displayMembers members

end

end Json

end ElmReport
