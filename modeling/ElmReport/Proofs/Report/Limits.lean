import ElmReport.Proofs.Json.Overrun
import ElmReport.Report.Line

/-!
# Lines that pass a limit

A line that cannot be read is malformed, and reported in full with its number. Passing a limit of
the reader is the one exception: then neither the line nor its number is reported. Which lines pass
a limit is laid down by the grammar of JSON, whatever stands behind the place where they do.

## Main results

* `Json.passesLimit_digits`, `Json.passesLimit_brackets`: a row of digits or of brackets passes a
  limit as soon as it is longer.
* `Document.ofLine_reported_iff`: which lines are read or reported.
-/

namespace ElmReport

namespace Json

theorem OpensLongInteger.overruns {limits : Limits} {e : LimitError} {t : Text}
    (h : OpensLongInteger limits e t) (depth : Nat) : Overruns limits e depth t := by
  cases depth with
  | zero => exact .inl h
  | succ depth => exact .inl h

section

variable (limits : Limits) {p : CodePoint} {ds : Text} (hzero : p ≠ .scalar '0')
  (hp : p.isAsciiDigit = true) (hds : IsDigits ds) (hlong : limits.digits ≤ ds.length)

include hzero hp hds hlong

theorem opensLongInteger_digits :
    OpensLongInteger limits (.longInteger limits.digits (ds.length + 1)) (p :: ds) := by
  have hspells : NumberLiteral.Spells (p :: ds) ⟨false, p :: ds, [], none⟩ :=
    NumberLiteral.spells_whole false (.digits hzero hp hds)
  have hstops : NumberLiteral.Stops ⟨false, p :: ds, [], none⟩ [] :=
    (delimits_of_isBlanks isBlanks_nil).stops _
  have hlong : limits.digits < (p :: ds).length := Nat.lt_succ_of_le hlong
  have hintro : OpensLongInteger limits _ (p :: ds ++ []) := .intro hspells hstops rfl hlong
  simpa using hintro

/-- A row of digits that is longer than the limit passes it. -/
theorem passesLimit_digits :
    PassesLimit limits (.longInteger limits.digits (ds.length + 1)) (p :: ds) :=
  ⟨[], _, rfl, isBlanks_nil, (opensLongInteger_digits limits hzero hp hds hlong).overruns _⟩

end

/-- A row of brackets that is longer than the limit passes it, whatever follows. -/
theorem passesLimit_brackets (limits : Limits) (t : Text) :
    PassesLimit limits (.deepNesting .list)
      (List.replicate (limits.depth + 1) Bracket.list.left ++ t) := by
  refine ⟨[], _, rfl, isBlanks_nil, ?_⟩
  generalize limits.depth = depth
  induction depth with
  | zero => exact .inr ⟨.list, t, rfl, rfl⟩
  | succ depth ih =>
    exact .inr ⟨.list, [], _, by rw [List.replicate_succ]; rfl, isBlanks_nil, .list (.here ih)⟩

end Json

namespace Document

/-- A line fails by a limit exactly when its text passes it. -/
theorem ofLine_eq_limit_iff (number : Int) {line : Text} {e : Json.LimitError} :
    ofLine number line = .error (.limit e) ↔ Json.PassesLimit .ofReports e line := by
  rw [← Json.read_eq_limit_iff, ofLine]
  split
  · next f hf => simp [hf]
  · next e' he => simp [he]
  · next v hv =>
    rw [hv]
    split <;> simp

/-- A line is read, or malformed and reported in full with its number, unless its text passes a
limit of the reader. Then it fails by that limit, and neither the line nor its number is
reported. -/
theorem ofLine_reported_iff (number : Int) (line : Text) :
    (((∃ d, ofLine number line = .ok d) ∨
        ∃ fault, ofLine number line = .error (.malformed ⟨number, line, fault⟩)) ↔
      ∀ e, ¬ Json.PassesLimit .ofReports e line) ∧
    ∀ e, ofLine number line = .error (.limit e) ↔ Json.PassesLimit .ofReports e line := by
  refine ⟨?_, fun e => ofLine_eq_limit_iff number⟩
  simp only [← ofLine_eq_limit_iff number]
  rcases hline : ofLine number line with (m | e) | d
  · obtain ⟨hnumber, htext⟩ := line_of_malformed hline
    refine ⟨fun _ _ => nofun, fun _ => .inr ⟨m.fault, ?_⟩⟩
    rw [← hnumber, ← htext]
  · refine ⟨?_, fun h => absurd rfl (h e)⟩
    rintro (⟨_, h⟩ | ⟨_, h⟩) <;> exact nomatch h
  · exact ⟨fun _ _ => nofun, fun _ => .inl ⟨d, rfl⟩⟩

/-- A line of 4301 digits is neither read nor reported. -/
theorem ofLine_not_reported_digits :
    ¬ ∀ (number : Int) (line : Text), (∃ d, ofLine number line = .ok d) ∨
      ∃ fault, ofLine number line = .error (.malformed ⟨number, line, fault⟩) := by
  intro h
  have hpasses : Json.PassesLimit .ofReports (.longInteger 4300 4301)
      (.scalar '1' :: List.replicate 4300 (.scalar '1')) := by
    have hdigits : Json.IsDigits (List.replicate 4300 (.scalar '1')) := by
      intro p hp
      rw [List.eq_of_mem_replicate hp]
      decide
    have hone : CodePoint.scalar '1' ≠ .scalar '0' := by decide
    have hrow := Json.passesLimit_digits .ofReports hone (by decide) hdigits
      (by rw [List.length_replicate]; decide)
    rwa [List.length_replicate] at hrow
  have hline := (ofLine_eq_limit_iff 1).2 hpasses
  rcases h 1 _ with ⟨d, hd⟩ | ⟨fault, hfault⟩
  · exact nomatch hline.symm.trans hd
  · exact nomatch hline.symm.trans hfault

end Document

end ElmReport
