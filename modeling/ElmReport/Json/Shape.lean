import ElmReport.Json.Basic

/-!
# The shape of a JSON value

A decoder asks a value for its members and a member for its kind. What it misses is a shape error,
which names the member or says what was expected and what was found.

## Main definitions

* `ShapeError`: what a decoder misses in a value.
* `Json.asObject`, `Json.asList`, `Json.asText`, `Json.asInteger`: a value of an expected kind.
* `Members.require`: a member that has to be there.

## Main results

* `Members.require_eq_ok_iff`: a required member is found exactly when the name has a value.
* `Json.asList_eq_ok_iff`, `Json.asText_eq_ok_iff`, `Json.asInteger_eq_ok_iff`: what is taken.
-/

namespace ElmReport

/-- What a decoder misses in a value: a member, an object in some role, a member of some kind, or
an item that it knows. -/
inductive ShapeError where
  | missing (name : Text)
  | noObject (role : Text) (found : Json.Kind)
  | wrongKind (expected name : Text) (found : Json.Kind)
  | unknownItem (role : Text) (item : Json)

namespace ShapeError

/-- The wording of a shape error; a missing member is only named. -/
def message : ShapeError → Text
  | missing name => name.quoted
  | noObject role found =>
    ("Expected " : Text) ++ role ++ (" object, got " : Text) ++ found.name
  | wrongKind expected name found =>
    ("Expected " : Text) ++ expected ++ (" for " : Text) ++ name.quoted ++ (", got " : Text) ++
      found.name
  | unknownItem role item => ("Unsupported " : Text) ++ role ++ (": " : Text) ++ item.display

/-- A shape error as the reason of a message names it. -/
def display : ShapeError → Text
  | missing name => ("KeyError(" : Text) ++ name.quoted ++ (")" : Text)
  | e => ("TypeError(" : Text) ++ e.message.quoted ++ (")" : Text)

end ShapeError

namespace Json

/-- The members of an object that stands in a role. -/
def asObject (role : Text) : Json → Except ShapeError Members
  | object members => .ok members
  | v => .error (.noObject role v.kind)

/-- The items of the list that a member has to be. -/
def asList (name : Text) : Json → Except ShapeError (List Json)
  | list items => .ok items
  | v => .error (.wrongKind "list" name v.kind)

/-- The text that a member has to be. -/
def asText (name : Text) : Json → Except ShapeError Text
  | string t => .ok t
  | v => .error (.wrongKind "string" name v.kind)

/-- The integer that a member has to be; a truth value is none. -/
def asInteger (name : Text) : Json → Except ShapeError Int
  | integer n => .ok n
  | v => .error (.wrongKind "integer" name v.kind)

/-- The text that a value is, if it is one. -/
def text? : Json → Option Text
  | string t => some t
  | _ => none

theorem asObject_eq_ok_iff {role : Text} {v : Json} {members : Members} :
    v.asObject role = .ok members ↔ v = object members := by
  cases v <;> simp [asObject]

theorem asList_eq_ok_iff {name : Text} {v : Json} {items : List Json} :
    v.asList name = .ok items ↔ v = list items := by
  cases v <;> simp [asList]

theorem asText_eq_ok_iff {name : Text} {v : Json} {t : Text} :
    v.asText name = .ok t ↔ v = string t := by
  cases v <;> simp [asText]

theorem asInteger_eq_ok_iff {name : Text} {v : Json} {n : Int} :
    v.asInteger name = .ok n ↔ v = integer n := by
  cases v <;> simp [asInteger]

end Json

namespace Members

/-- The value of a member that has to be there. -/
def require (name : Text) (members : Members) : Except ShapeError Json :=
  match members.get? name with
  | some v => .ok v
  | none => .error (.missing name)

/-- A required member is found exactly when the name has a value. -/
theorem require_eq_ok_iff {name : Text} {members : Members} {v : Json} :
    members.require name = .ok v ↔ members.get? name = some v := by
  rw [require]
  split <;> simp_all

/-- The value of a member that may be absent; null stands for an absent one. -/
def optional (name : Text) (members : Members) : Option Json :=
  match members.get? name with
  | some .null => none
  | v => v

end Members

end ElmReport
