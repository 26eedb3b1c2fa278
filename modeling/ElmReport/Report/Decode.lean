import ElmReport.Json.Shape
import ElmReport.Report.Basic

/-!
# Reports from JSON documents

A document names its form in its member "type". Members are asked for in a fixed order, and the
first one that is missing or of the wrong kind is the error. A module name and a color are dropped
when they are no text; a truth value may be any value.

## Main definitions

* `Position.ofJson`, `Region.ofJson`, `Fragment.ofJson`: the parts of a document.
* `Document.Form`: the two forms.
* `Document`: a report, a document of another form, or no document at all.
* `Document.ofJson`: what a JSON value says.

## Main results

* `Document.ofJson_of_not_object`: every value but an object is no document.
-/

namespace ElmReport

/-- A position from an object with a line and a column. -/
def Position.ofJson (v : Json) : Except ShapeError Position := do
  let members ← v.asObject "position"
  let line ← (← members.require "line").asInteger "line"
  let column ← (← members.require "column").asInteger "column"
  return ⟨line, column⟩

/-- A region from an object with a start and an end. -/
def Region.ofJson (v : Json) : Except ShapeError Region := do
  let members ← v.asObject "region"
  let start ← Position.ofJson (← members.require "start")
  let stop ← Position.ofJson (← members.require "end")
  return ⟨start, stop⟩

/-- The style that the members of a piece say. -/
def Style.ofMembers (members : Members) : Style where
  bold := (members.get? "bold").any Json.isTrue
  underline := (members.get? "underline").any Json.isTrue
  color := (members.get? "color").bind Json.text?

/-- A styled piece of a message from its members. -/
def Fragment.ofMembers (members : Members) : Except ShapeError Fragment := do
  let t ← (← members.require "string").asText "string"
  return .styled t (.ofMembers members)

/-- A piece of a message from a text, or from an object with a text and a style. -/
def Fragment.ofJson : Json → Except ShapeError Fragment
  | .string t => .ok (.plain t)
  | .object members => Fragment.ofMembers members
  | item => .error (.unknownItem "message fragment" item)

/-- A message from a list of pieces. -/
def Fragment.messageOfJson (v : Json) : Except ShapeError (List Fragment) := do
  (← v.asList "message").mapM Fragment.ofJson

/-- A problem from an object. -/
def Problem.ofJson (v : Json) : Except ShapeError Problem := do
  let members ← v.asObject "problem"
  let title ← (← members.require "title").asText "title"
  let region ← Region.ofJson (← members.require "region")
  let message ← Fragment.messageOfJson (← members.require "message")
  return ⟨title, region, message⟩

/-- The problems of a file from an object. -/
def FileErrors.ofJson (v : Json) : Except ShapeError FileErrors := do
  let members ← v.asObject "error entry"
  let path ← (← members.require "path").asText "path"
  let problems ← (← (← members.require "problems").asList "problems").mapM Problem.ofJson
  return ⟨path, (members.get? "name").bind Json.text?, problems⟩

/-- A problem of the project from the members of a document. -/
def ProjectError.ofMembers (members : Members) : Except ShapeError ProjectError := do
  let path ← (members.optional "path").mapM (Json.asText "path")
  let title ← (← members.require "title").asText "title"
  let message ← Fragment.messageOfJson (← members.require "message")
  let region ← (members.optional "region").mapM Region.ofJson
  return ⟨path, title, region, message⟩

namespace Document

/-- The two forms of a document. -/
inductive Form where
  | compileErrors
  | projectError
  deriving DecidableEq, Repr

/-- The word by which a document names its form. -/
def Form.tag : Form → Text
  | .compileErrors => "compile-errors"
  | .projectError => "error"

/-- The form that the value of "type" names. -/
def form? : Option Json → Option Form
  | some (.string t) =>
    if t = Form.compileErrors.tag then some .compileErrors
    else if t = Form.projectError.tag then some .projectError
    else none
  | _ => none

end Document

/-- The report that the members of a document of a form say. -/
def Report.ofMembers (form : Document.Form) (members : Members) : Except ShapeError Report :=
  match form with
  | .compileErrors => do
    let entries ← (← members.require "errors").asList "errors"
    return .compileErrors (← entries.mapM FileErrors.ofJson)
  | .projectError => do return .projectError (← ProjectError.ofMembers members)

/-- What a JSON value says: a report, a document of another form, or no document at all. -/
inductive Document where
  | report (report : Report)
  | otherForm (kind : Option Json)
  | noDocument

namespace Document

/-- What an object says, or the form it claims to have and what is missing for it. -/
def ofMembers (members : Members) : Except (Form × ShapeError) Document :=
  match form? (members.get? "type") with
  | some form =>
    match Report.ofMembers form members with
    | .ok r => .ok (.report r)
    | .error e => .error (form, e)
  | none => .ok (.otherForm (members.get? "type"))

/-- What a JSON value says, or the form it claims to have and what is missing for it. -/
def ofJson : Json → Except (Form × ShapeError) Document
  | .object members => ofMembers members
  | _ => .ok .noDocument

/-- Every value but an object is no document. -/
theorem ofJson_of_not_object {v : Json} (h : ∀ members, v ≠ .object members) :
    ofJson v = .ok .noDocument := by
  cases v <;> first | rfl | exact absurd rfl (h _)

/-- The report of a document that has one. -/
def report? : Document → Option Report
  | report r => some r
  | _ => none

end Document

end ElmReport
