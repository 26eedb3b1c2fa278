import ElmReport.Proofs.Issue.Feed
import ElmReport.Proofs.Stream.Source

/-!
# A check does what the feed does

A check takes the lines of a stream one by one, while the lines of a report may also be fed all at
once. Both find the same issues and fail by the same line. The check takes no line after the first
that fails, and whatever would come after it does not matter. A failure of the stream is seen only
when every line before it is decoded, and then nothing of what was found is kept.

## Main definitions

* `Document.Decodes`: the lines that are decoded, whatever their number.

## Main results

* `Document.exists_first_error`: the first line that fails.
* `IssueFeed.takeAll_of_decodes`, `IssueFeed.takeAll_of_error`: the run of a feed on lines that are
  all decoded, and on lines of which one fails.
* `Invoker.diagnose_of_malformed`, `Invoker.diagnose_of_failure`: checks that find nothing.
* `Invoker.checkFile_refines_feed`: what a check comes to.
-/

namespace ElmReport

namespace Document

/-- A line that is decoded. -/
def Decodes (line : Text) : Prop := ∃ d, ofLine 1 line = .ok d

/-- Whether a line is decoded does not hang on its number. -/
theorem decodes_iff (number : Int) {line : Text} :
    Decodes line ↔ ∃ d, ofLine number line = .ok d := by
  simp only [Decodes, ofLine_eq_ok_iff]

theorem exists_error_of_not_decodes (number : Int) {line : Text} (h : ¬ Decodes line) :
    ∃ e, ofLine number line = .error e := by
  rw [decodes_iff number] at h
  rcases hline : ofLine number line with e | d
  · exact ⟨e, rfl⟩
  · exact absurd ⟨d, hline⟩ h

/-- Lines that are not all decoded have a first that fails. -/
theorem exists_first_error {lines : List Text} (h : ∃ l ∈ lines, ¬ Decodes l) :
    ∃ before line after e, lines = before ++ line :: after ∧ (∀ l ∈ before, Decodes l) ∧
      ofLine (before.length + 1) line = .error e := by
  obtain ⟨before, line, after, rfl, hbefore, hline⟩ :
      ∃ before line after, lines = before ++ line :: after ∧ (∀ l ∈ before, Decodes l) ∧
        ¬ Decodes line := by
    induction lines with
    | nil => simp at h
    | cons l lines ih =>
      by_cases hl : Decodes l
      · obtain ⟨before, line, after, rfl, hbefore, hline⟩ := ih (by simpa [hl] using h)
        exact ⟨l :: before, line, after, rfl, List.forall_mem_cons.2 ⟨hl, hbefore⟩, hline⟩
      · exact ⟨[], l, lines, rfl, nofun, hl⟩
  obtain ⟨e, he⟩ := exists_error_of_not_decodes (before.length + 1) hline
  exact ⟨before, line, after, e, rfl, hbefore, he⟩

end Document

theorem Failure.isToolUnavailable_iff {e : Failure} :
    e.isToolUnavailable = true ↔ ∃ executable, e = .toolUnavailable executable := by
  cases e <;> simp [isToolUnavailable]

namespace IssueFeed

/-- A feed takes all of some lines that are decoded. -/
theorem takeAll_of_decodes (f : IssueFeed) {lines : List Text}
    (h : ∀ line ∈ lines, Document.Decodes line) :
    (f.takeAll lines).error = none ∧
      (f.takeAll lines).feed.linesSeen = f.linesSeen + lines.length := by
  induction lines generalizing f with
  | nil => exact ⟨rfl, rfl⟩
  | cons line lines ih =>
    obtain ⟨⟨d, hline⟩, hlines⟩ := List.forall_mem_cons.1 h
    obtain ⟨herror, hseen⟩ := ih (f.take line).feed hlines
    rw [linesSeen_take] at hseen
    simp only [f.take_of_ofLine hline] at herror hseen
    simp only [takeAll, f.take_of_ofLine hline, hseen, List.length_cons]
    exact ⟨herror, by omega⟩

/-- A feed ends at the first line that fails. That line is counted, and those after it are not
looked at. -/
theorem takeAll_of_error (f : IssueFeed) {before : List Text} {line : Text} {e : LineError}
    (hbefore : ∀ l ∈ before, Document.Decodes l)
    (hline : Document.ofLine (f.linesSeen + before.length + 1) line = .error e)
    (after : List Text) :
    (f.takeAll (before ++ line :: after)).error = some e ∧
      (f.takeAll (before ++ line :: after)).feed.linesSeen = f.linesSeen + before.length + 1 := by
  induction before generalizing f with
  | nil =>
    have hline : Document.ofLine (f.linesSeen + 1) line = .error e := by simpa using hline
    simp [takeAll, take, hline]
  | cons l before ih =>
    obtain ⟨⟨d, hl⟩, hbefore⟩ := List.forall_mem_cons.1 hbefore
    have hnumber : ((f.take l).feed.linesSeen : Int) + before.length + 1 =
        f.linesSeen + (l :: before).length + 1 := by
      rw [linesSeen_take, List.length_cons]
      omega
    obtain ⟨herror, hseen⟩ := ih (f.take l).feed hbefore (hnumber ▸ hline)
    rw [linesSeen_take] at hseen
    simp only [f.take_of_ofLine hl] at herror hseen
    simp only [List.cons_append, takeAll, f.take_of_ofLine hl, hseen, List.length_cons]
    exact ⟨herror, by omega⟩

end IssueFeed

namespace LineStream

/-- A check of lines of which one fails. -/
theorem check_of_malformed (s : LineStream) (file : Text) {before : List Text} {line : Text}
    {after : List Text} {e : LineError} (hlines : s.lines = before ++ line :: after)
    (hbefore : ∀ l ∈ before, Document.Decodes l)
    (hline : Document.ofLine (before.length + 1) line = .error e) :
    (s.check file).result = .error (.line e) ∧ (s.check file).taken = before.length + 1 ∧
      (s.check file).leaving = some .closed := by
  obtain ⟨herror, hseen⟩ := IssueFeed.takeAll_of_error { fallback := some file } hbefore
    (by simpa using hline) after
  rw [← hlines] at herror hseen
  rw [Nat.zero_add] at hseen
  simp only [check, herror, hseen, and_self]

/-- A check of lines that are all decoded. -/
theorem check_of_decodes (s : LineStream) (file : Text)
    (h : ∀ line ∈ s.lines, Document.Decodes line) :
    (s.check file).taken = s.lines.length ∧
      ((s.check file).result, (s.check file).leaving) =
        match s.failure with
        | none =>
          (.ok (IssueFeed.takeAll { fallback := some file } s.lines).feed.issues, some .finished)
        | some x => (if x.isToolUnavailable then .ok [] else .error x, some .failed) := by
  obtain ⟨herror, hseen⟩ := IssueFeed.takeAll_of_decodes { fallback := some file } h
  rw [Nat.zero_add] at hseen
  rcases hfailure : s.failure with _ | x
  · simp only [check, herror, hfailure, hseen, and_self]
  · simp only [check, herror, hfailure, hseen]
    split <;> exact ⟨rfl, rfl⟩

end LineStream

namespace Invoker

section

variable {invoker : Invoker} {root uri file : Text}

/-- The first line that fails is the failure of the check of a document, however many come before
it. -/
theorem diagnose_of_malformed {line : Text} {before after : List Text} {e : LineError}
    (hfile : FilePath.ofUri uri = .ok file)
    (hlines : (invoker file root).lines = before ++ line :: after)
    (hbefore : ∀ l ∈ before, Document.Decodes l)
    (hline : Document.ofLine (before.length + 1) line = .error e) :
    (invoker.diagnose root uri).result = .error (.line e) := by
  obtain ⟨hresult, -⟩ := (invoker file root).check_of_malformed file hlines hbefore hline
  rw [result_diagnose hfile, hresult]
  rfl

/-- A failure after the lines for a document is the failure of its check, unless the compiler is
not there: then nothing is found. -/
theorem diagnose_of_failure {x : Failure} (hfile : FilePath.ofUri uri = .ok file)
    (hlines : ∀ l ∈ (invoker file root).lines, Document.Decodes l)
    (hx : (invoker file root).failure = some x) :
    (invoker.diagnose root uri).result = if x.isToolUnavailable then .ok [] else .error x := by
  obtain ⟨-, hleft⟩ := (invoker file root).check_of_decodes file hlines
  simp only [hx] at hleft
  rw [result_diagnose hfile, (Prod.mk.inj hleft).1]
  split <;> rfl

end

/-- **A check does what the feed of its lines does.** A check takes the lines of its stream one by
one, and in the end the stream is left. When a line is not decoded, the check fails by the first
such line, with its number, as the feed of all lines does; it takes no line after it and closes the
stream, whatever would come then. When all lines are decoded, a failure of the stream decides: no
compiler means no issues, and any other failure is the failure of the check. Without one the issues
are those of the feed. -/
theorem checkFile_refines_feed (invoker : Invoker) (root file : Text) :
    let s := invoker file root
    let check := invoker.checkFile root file
    (∃ leaving, check.leaving = some leaving ∧
      LineStream.Rest.source.run Consumer.checker { fallback := some file } s.rest =
        ⟨check.result, check.taken, .left leaving⟩) ∧
    ((∃ l ∈ s.lines, ¬ Document.Decodes l) →
      ∃ before line after e, s.lines = before ++ line :: after ∧
        (∀ l ∈ before, Document.Decodes l) ∧
        Document.ofLine (before.length + 1) line = .error e ∧
        issuesOfLines (some file) s.lines = .error e ∧ check.result = .error (.line e) ∧
        (∀ m, e = .malformed m → m.number = before.length + 1 ∧ m.line = line) ∧
        check.taken = before.length + 1 ∧ check.leaving = some .closed) ∧
    ((∀ l ∈ s.lines, Document.Decodes l) →
      check.taken = s.lines.length ∧
      (∀ executable, s.failure = some (.toolUnavailable executable) →
        check.result = .ok [] ∧ check.leaving = some .failed) ∧
      (∀ x, s.failure = some x → (∀ executable, x ≠ .toolUnavailable executable) →
        check.result = .error x ∧ check.leaving = some .failed) ∧
      (s.failure = none → ∃ issues, issuesOfLines (some file) s.lines = .ok issues ∧
        check.result = .ok issues ∧ check.leaving = some .finished)) := by
  intro s check
  refine ⟨s.check_eq_run file, fun h => ?_, fun h => ?_⟩
  · obtain ⟨before, line, after, e, hlines, hbefore, hline⟩ := Document.exists_first_error h
    obtain ⟨herror, -⟩ := IssueFeed.takeAll_of_error { fallback := some file } hbefore
      (by simpa using hline) after
    obtain ⟨hresult, htaken, hleaving⟩ := s.check_of_malformed file hlines hbefore hline
    refine ⟨before, line, after, e, hlines, hbefore, hline, ?_, hresult, fun m hm => ?_, htaken,
      hleaving⟩
    · simp only [issuesOfLines, hlines, herror]
    · subst hm
      exact Document.line_of_malformed hline
  · obtain ⟨htaken, hleft⟩ := s.check_of_decodes file h
    refine ⟨htaken, fun executable hfailure => ?_, fun x hfailure hx => ?_, fun hfailure => ?_⟩
    · rw [hfailure] at hleft
      exact Prod.mk.inj hleft
    · have hother : x.isToolUnavailable ≠ true := by
        rw [ne_eq, Failure.isToolUnavailable_iff]
        rintro ⟨executable, rfl⟩
        exact hx executable rfl
      simp only [hfailure, if_neg hother] at hleft
      exact Prod.mk.inj hleft
    · obtain ⟨herror, -⟩ := IssueFeed.takeAll_of_decodes { fallback := some file } h
      simp only [hfailure] at hleft
      refine ⟨_, ?_, Prod.mk.inj hleft⟩
      simp only [issuesOfLines, herror]

end Invoker

end ElmReport
