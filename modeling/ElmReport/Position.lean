import ElmReport.Text.Basic

/-!
# Positions, regions and ranges

A position is a line and a column. The compiler counts both from one and reports regions; an editor
counts both from zero and shows ranges. Coordinates are passed on as they come, so no bound is put
on them.

## Main definitions

* `Position`: a line and a column, ordered by the line first.
* `Region`: two positions counted from one.
* `Range`: two positions counted from zero.
* `Region.toRange`: the range of a region.

## Main results

* `Position.offset_offset`: shifts add up.
* `Region.toRange_fileStart`: the start of a file is the origin of the range.
* `Position.le_total`, `Position.le_antisymm`, `Position.le_trans`: the order is linear.
-/

namespace ElmReport

/-- A line and a column. -/
structure Position where
  line : Int
  column : Int
  deriving DecidableEq, Repr

namespace Position

/-- Shifts both coordinates. -/
def offset (p : Position) (delta : Int) : Position := ⟨p.line + delta, p.column + delta⟩

/-- Shifts add up. -/
theorem offset_offset (p : Position) (a b : Int) : (p.offset a).offset b = p.offset (a + b) := by
  simp [offset, Int.add_assoc]

@[simp] theorem offset_zero (p : Position) : p.offset 0 = p := by
  simp [offset]

/-- Positions are ordered by the line, those on one line by the column. -/
def le (p q : Position) : Bool := p.line < q.line || (p.line == q.line && p.column ≤ q.column)

/-- A position strictly before another one. -/
def lt (p q : Position) : Bool := p.line < q.line || (p.line == q.line && p.column < q.column)

theorem le_iff {p q : Position} :
    p.le q = true ↔ p.line < q.line ∨ (p.line = q.line ∧ p.column ≤ q.column) := by
  simp [le]

theorem le_total (p q : Position) : p.le q = true ∨ q.le p = true := by
  simp only [le_iff]
  omega

theorem le_trans {p q r : Position} (h : p.le q = true) (h' : q.le r = true) :
    p.le r = true := by
  simp only [le_iff] at *
  omega

theorem le_antisymm {p q : Position} (h : p.le q = true) (h' : q.le p = true) : p = q := by
  cases p
  cases q
  simp only [le_iff] at h h'
  rw [Position.mk.injEq]
  omega

theorem lt_iff_not_le {p q : Position} : p.lt q = true ↔ ¬ q.le p = true := by
  simp only [lt, le, Bool.or_eq_true, Bool.and_eq_true, decide_eq_true_eq, beq_iff_eq]
  omega

/-- The greater of two positions. -/
def max (p q : Position) : Position := if p.le q then q else p

/-- Positions in ascending order. -/
def sort (ps : List Position) : List Position := ps.mergeSort le

/-- A position as two numbers with a colon between them. -/
def coordinates (p : Position) : Text :=
  Text.ofInt p.line ++ (.scalar ':' :: Text.ofInt p.column)

/-- A position as messages show it. -/
def display (p : Position) : Text := ("Position(" : Text) ++ p.coordinates ++ (")" : Text)

end Position

/-- A span that the compiler reports, both ends counted from one and included. -/
structure Region where
  start : Position
  stop : Position
  deriving DecidableEq, Repr

namespace Region

/-- The empty region at a position. -/
def point (line column : Int) : Region := ⟨⟨line, column⟩, ⟨line, column⟩⟩

/-- The region of a problem that is reported without one. -/
def fileStart : Region := point 1 1

/-- A region as messages show it. -/
def display (r : Region) : Text :=
  ("Region(start=" : Text) ++ r.start.display ++ (", end=" : Text) ++ r.stop.display ++
    (")" : Text)

end Region

/-- A span as an editor counts it, from zero. -/
structure Range where
  start : Position
  stop : Position
  deriving DecidableEq, Repr

/-- A range as messages show it. -/
def Range.display (r : Range) : Text :=
  ("Range(" : Text) ++ r.start.coordinates ++ ("-" : Text) ++ r.stop.coordinates ++ (")" : Text)

/-- The range of a region: every coordinate is one less. -/
def Region.toRange (r : Region) : Range := ⟨r.start.offset (-1), r.stop.offset (-1)⟩

/-- The start of a file is the origin of the range. -/
@[simp] theorem Region.toRange_fileStart : fileStart.toRange = ⟨⟨0, 0⟩, ⟨0, 0⟩⟩ := rfl

end ElmReport
