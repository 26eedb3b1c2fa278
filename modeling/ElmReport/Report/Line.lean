import ElmReport.Json.Reader
import ElmReport.Report.Decode

/-!
# Lines of a report

The compiler writes every document on a line of its own. A line that is no JSON, or whose document
lacks something, is malformed; a line that passes a limit of the reader fails in a way of its own.
Every line is read under the same limits, `Json.Limits.ofReports`, wherever it is read; the depth
among them stands for depths that vary with the caller.

## Main definitions

* `LineFault`: why a line is malformed.
* `MalformedLine`: a malformed line with its number.
* `LineError`: a malformed line, or a limit that is passed.
* `Document.ofLine`: what a line says.

## Main results

* `Document.line_of_malformed`: a malformed line is reported in full, with its number.
-/

namespace ElmReport

/-- Why a line is malformed. A reason may also be given in words by whoever hands out the lines. -/
inductive LineFault where
  | json (fault : Json.Fault)
  | document (form : Document.Form) (error : ShapeError)
  | overLimit (bytes : Int)
  | stated (words : Text)

/-- The wording of a fault. -/
def LineFault.message : LineFault → Text
  | json fault => ("invalid JSON (" : Text) ++ fault.message ++ (")" : Text)
  | document form error =>
    ("invalid " : Text) ++ form.tag.quoted ++ (" document (" : Text) ++ error.display ++
      (")" : Text)
  | overLimit bytes => ("line exceeds " : Text) ++ Text.ofInt bytes ++ (" bytes" : Text)
  | stated words => words

/-- A malformed line with its number, counted from one. -/
structure MalformedLine where
  number : Int
  line : Text
  fault : LineFault

namespace MalformedLine

/-- The head of a line that a message shows: the line itself up to 200 code points. -/
def preview (line : Text) : Text :=
  if line.length ≤ 200 then line else line.take 200 ++ ("..." : Text)

/-- The wording of a malformed line. -/
def message (m : MalformedLine) : Text :=
  ("Malformed report line " : Text) ++ Text.ofInt m.number ++ (": " : Text) ++ m.fault.message ++
    (": " : Text) ++ (preview m.line).quoted

end MalformedLine

/-- Why a line says nothing: it is malformed, or it passes a limit of the reader. -/
inductive LineError where
  | malformed (line : MalformedLine)
  | limit (error : Json.LimitError)

/-- The wording of an error. -/
def LineError.message : LineError → Text
  | malformed line => line.message
  | limit error => error.message

namespace Document

/-- What the line with a number says. -/
def ofLine (number : Int) (line : Text) : Except LineError Document :=
  match Json.read .ofReports line with
  | .error (.fault f) => .error (.malformed ⟨number, line, .json f⟩)
  | .error (.limit e) => .error (.limit e)
  | .ok v =>
    match ofJson v with
    | .error (form, e) => .error (.malformed ⟨number, line, .document form e⟩)
    | .ok d => .ok d

/-- A malformed line is reported in full, with its number. -/
theorem line_of_malformed {number : Int} {line : Text} {m : MalformedLine}
    (h : ofLine number line = .error (.malformed m)) : m.number = number ∧ m.line = line := by
  rw [ofLine] at h
  split at h
  · cases h
    exact ⟨rfl, rfl⟩
  · cases h
  · split at h
    · cases h
      exact ⟨rfl, rfl⟩
    · cases h

end Document

end ElmReport
