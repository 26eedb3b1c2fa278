import ElmReport.Issue.Feed
import Mathlib.Data.List.Forall2

/-!
# Runs of a feed

What a line says does not depend on its number, so a feed over lines that are all decoded gathers
the issues of their documents, one document after the other.

## Main results

* `Document.ofLine_eq_ok_iff`: what a line says, whatever its number.
* `IssueFeed.take_of_ofLine`: the step on a line that is decoded.
* `IssueFeed.takeAll_of_ofLine`: the run on lines that are all decoded.
-/

namespace ElmReport

/-- A line says the same under every number. -/
theorem Document.ofLine_eq_ok_iff {number : Int} {line : Text} {d : Document} :
    ofLine number line = .ok d ↔ ∃ v, Json.read .ofReports line = .ok v ∧ ofJson v = .ok d := by
  rw [ofLine]
  split
  · next h => simp [h]
  · next h => simp [h]
  · next v h =>
    simp only [h, Except.ok.injEq, exists_eq_left']
    split
    · next hd => simp [hd]
    · next hd => simp [hd]

namespace IssueFeed

/-- The feed after a line that is decoded has the issues of its document at the end. -/
theorem take_of_ofLine (f : IssueFeed) {number : Int} {line : Text} {d : Document}
    (h : Document.ofLine number line = .ok d) :
    f.take line = ⟨⟨f.fallback, f.issues ++ d.issues f.fallback, f.linesSeen + 1⟩,
      .ok (d.issues f.fallback), d.notes⟩ := by
  have hline : Document.ofLine (f.linesSeen + 1) line = .ok d :=
    Document.ofLine_eq_ok_iff.2 (Document.ofLine_eq_ok_iff.1 h)
  simp only [take, hline]

/-- A feed over lines that are all decoded has the issues of all their documents at the end. -/
theorem takeAll_of_ofLine (f : IssueFeed) {number : Int} {lines : List Text}
    {docs : List Document}
    (h : List.Forall₂ (fun line d => Document.ofLine number line = .ok d) lines docs) :
    (f.takeAll lines).error = none ∧
      (f.takeAll lines).feed.issues = f.issues ++ docs.flatMap (Document.issues f.fallback) := by
  induction h generalizing f with
  | nil => exact ⟨rfl, by simp⟩
  | @cons line d lines docs hline _ ih =>
    obtain ⟨herror, hissues⟩ :=
      ih ⟨f.fallback, f.issues ++ d.issues f.fallback, f.linesSeen + 1⟩
    simp only [takeAll, f.take_of_ofLine hline]
    exact ⟨herror, by rw [hissues, List.flatMap_cons, List.append_assoc]⟩

end IssueFeed

end ElmReport
