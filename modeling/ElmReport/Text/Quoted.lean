import ElmReport.Text.Basic
import ElmReport.Text.Printable

/-!
# Quoted texts

Messages quote the texts they speak of. A quoted text stands between apostrophes, or between double
quotes when it holds an apostrophe and no double quote; the mark itself, the backslash and every
code point that does not print are escaped.

## Main definitions

* `Text.quoteMark`: the mark that a text is quoted with.
* `CodePoint.escaped`: a code point as it stands between marks.
* `Text.quoted`: the quoted text.
* `Text.quotedList`: a list of quoted texts in brackets.

## Main results

* `Text.quoted_nil`: the empty text is quoted as two apostrophes.
-/

namespace ElmReport

/-- The number of a code point after a backslash, in two, four or eight hexadecimal digits. -/
def CodePoint.numericEscape (p : CodePoint) : Text :=
  if p.val < 0x100 then ("\\x" : Text) ++ Text.hex 2 p.val
  else if p.val < 0x10000 then ("\\u" : Text) ++ Text.hex 4 p.val
  else ("\\U" : Text) ++ Text.hex 8 p.val

/-- A code point as it stands between two marks. -/
def CodePoint.escaped (mark p : CodePoint) : Text :=
  if p = mark ∨ p = .scalar '\x5c' then [.scalar '\x5c', p]
  else if p = .scalar '\n' then "\\n"
  else if p = .scalar '\r' then "\\r"
  else if p = .scalar '\t' then "\\t"
  else if p.isPrintable then [p]
  else p.numericEscape

namespace Text

/-- The mark that a text is quoted with. -/
def quoteMark (t : Text) : CodePoint :=
  if .scalar '\x27' ∈ t ∧ .scalar '\x22' ∉ t then .scalar '\x22' else .scalar '\x27'

/-- The quoted text. -/
def quoted (t : Text) : Text :=
  t.quoteMark :: (t.flatMap (CodePoint.escaped t.quoteMark) ++ [t.quoteMark])

/-- The empty text is quoted as two apostrophes. -/
@[simp] theorem quoted_nil : quoted [] = ofString "\x27\x27" := rfl

/-- Texts in brackets, with commas between them. -/
def bracketed (ts : List Text) : Text := ("[" : Text) ++ join ", " ts ++ ("]" : Text)

/-- Quoted texts in brackets, with commas between them. -/
def quotedList (ts : List Text) : Text := bracketed (ts.map quoted)

end Text

end ElmReport
