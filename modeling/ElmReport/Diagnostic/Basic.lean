import ElmReport.Diagnostic.StyleCode
import ElmReport.Issue.Basic
import ElmReport.Json.Basic

/-!
# Diagnostics

An issue becomes a diagnostic: its region is counted from zero, its overview and its cleaned details
make up the message, and its severity is an error unless it is the word for a warning.

## Main definitions

* `Severity`, `Severity.ofText`: errors and warnings.
* `Diagnostic`, `Issue.diagnostic`: what an editor shows of an issue.
* `countSeverity`, `hasErrors`: what is said of many diagnostics.
* `Diagnostic.toJson`: a diagnostic in the form that editors read.

## Main results

* `hasErrors_iff`: there are errors exactly when their count is positive.
-/

namespace ElmReport

/-- How severe a diagnostic is. -/
inductive Severity where
  | error
  | warning
  deriving DecidableEq, Repr

namespace Severity

/-- The number by which editors know a severity. -/
def code : Severity → Nat
  | error => 1
  | warning => 2

/-- What a severity is called. -/
def name : Severity → Text
  | error => "ERROR"
  | warning => "WARNING"

/-- The severity that a word stands for: every word but the one for a warning is an error. -/
def ofText (t : Text) : Severity := if t = ("warning" : Text) then warning else error

end Severity

/-- What an editor shows of an issue. -/
structure Diagnostic where
  range : Range
  message : Text
  severity : Severity := .error
  source : Text := "Elm"
  deriving DecidableEq, Repr

/-- The message of an issue. -/
def Issue.message (i : Issue) : Text :=
  i.overview ++ (" - " : Text) ++ StyleCode.strip i.details

/-- The diagnostic of an issue. -/
def Issue.diagnostic (i : Issue) : Diagnostic where
  range := i.region.toRange
  message := i.message
  severity := Severity.ofText i.severity

/-! ### Many diagnostics -/

/-- The number of diagnostics of a severity. -/
def countSeverity (s : Severity) (ds : List Diagnostic) : Nat :=
  ds.countP fun d => d.severity == s

/-- Whether one of the diagnostics is an error. -/
def hasErrors (ds : List Diagnostic) : Bool := ds.any fun d => d.severity == .error

/-- There are errors exactly when their count is positive. -/
theorem hasErrors_iff (ds : List Diagnostic) :
    hasErrors ds = true ↔ 0 < countSeverity .error ds := by
  simp [hasErrors, countSeverity, List.countP_pos_iff]

/-! ### The form that editors read -/

/-- A position as an object with a line and a character. -/
def Position.toJson (p : Position) : Json :=
  .object [("line", .integer p.line), ("character", .integer p.column)]

/-- A range as an object with a start and an end. -/
def Range.toJson (r : Range) : Json :=
  .object [("start", r.start.toJson), ("end", r.stop.toJson)]

/-- A diagnostic as an object. -/
def Diagnostic.toJson (d : Diagnostic) : Json :=
  .object [("range", d.range.toJson), ("message", .string d.message),
    ("severity", .integer d.severity.code), ("source", .string d.source)]

end ElmReport
