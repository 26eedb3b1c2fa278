import ElmReport.Text.Property

/-!
# Blank code points

The code points that may surround a number on a command line: white space of every script. The
separators U+001C to U+001F are not among them.

## Main definitions

* `blanks`: the ranges of blank code points.
* `CodePoint.isBlank`: whether a code point is blank.

## Main results

* `isBlank_of_isWhitespace`: white space of ASCII is blank.
-/

namespace ElmReport

/-- The ranges of blank code points. -/
def blanks : PropertyTable :=
  [(0x9, 0xD), (0x20, 0x20), (0x85, 0x85), (0xA0, 0xA0), (0x1680, 0x1680), (0x2000, 0x200A),
   (0x2028, 0x2029), (0x202F, 0x202F), (0x205F, 0x205F), (0x3000, 0x3000)]

/-- Whether a code point is blank. -/
def CodePoint.isBlank (p : CodePoint) : Bool := blanks.contains p.val

/-- White space of ASCII is blank. -/
theorem isBlank_of_isWhitespace {c : Char} (h : c.isWhitespace = true) :
    (CodePoint.scalar c).isBlank = true := by
  simp only [Char.isWhitespace, Bool.or_eq_true, decide_eq_true_eq] at h
  rcases h with ((rfl | rfl) | rfl) | rfl <;> decide

end ElmReport
