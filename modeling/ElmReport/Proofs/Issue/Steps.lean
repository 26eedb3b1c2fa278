import ElmReport.Proofs.Issue.Feed

/-!
# Feeds that go on after errors

Whoever feeds the lines may go on after a line that fails. A run of a feed is then a list of steps,
one for each line, and the feed after any of them is determined by what the steps before returned:
no line leaves anything behind but its count and the issues that it returned.

## Main definitions

* `IssueFeed.fresh`: a feed that no line has been taken by.
* `IssueFeed.steps`: the steps of a feed, one for each line.
* `IssueFeed.after`: the feed after some lines.
* `IssueFeed.returned`: the issues that some steps returned.

## Main results

* `IssueFeed.outcome_take_eq_ok_iff`: what a line returns does not depend on the lines before it.
* `IssueFeed.length_steps`, `IssueFeed.getElem?_steps`: there is one step for each line, the step of
  this line by the feed after the lines before.
* `IssueFeed.linesSeen_after`, `IssueFeed.issues_after`: the feed after some lines.
* `IssueFeed.exists_step`: the state and the outcome of a feed after each of its lines.
-/

namespace ElmReport.IssueFeed

/-- A feed that no line has been taken by. -/
def fresh (fallback : Option Text) : IssueFeed := { fallback }

/-- The steps of a feed, one for each line, whether the lines before it failed or not. -/
def steps (f : IssueFeed) : List Text → List Step
  | [] => []
  | line :: lines => f.take line :: (f.take line).feed.steps lines

/-- The feed after some lines. -/
def after (f : IssueFeed) (lines : List Text) : IssueFeed :=
  lines.foldl (fun g line => (g.take line).feed) f

/-- The issues that some steps returned, one list after the other. Steps that failed return none. -/
def returned (steps : List Step) : List Issue :=
  (steps.filterMap fun step => step.outcome.toOption).flatten

/-! ### One step -/

section

variable {f : IssueFeed} {line : Text}

/-- A step adds to the issues what it returns. -/
theorem issues_take (f : IssueFeed) (line : Text) :
    (f.take line).feed.issues = f.issues ++ returned [f.take line] := by
  rcases h : (f.take line).outcome with e | new
  · rw [issues_take_of_error h]
    simp [returned, h, Except.toOption]
  · rw [issues_take_of_ok h]
    simp [returned, h, Except.toOption]

theorem exists_ofLine_of_take {new : List Issue} (h : (f.take line).outcome = .ok new) :
    ∃ d, Document.ofLine (f.linesSeen + 1) line = .ok d ∧ d.issues f.fallback = new := by
  simp only [take] at h
  split at h
  · cases h
  · next d hd => exact ⟨d, hd, Except.ok.inj h⟩

/-- What a line returns depends on the line, and on the file of problems that name none. -/
theorem outcome_take_eq_ok_iff {g : IssueFeed} (hfallback : f.fallback = g.fallback)
    {new : List Issue} : (f.take line).outcome = .ok new ↔ (g.take line).outcome = .ok new := by
  have key {f g : IssueFeed} (hfallback : f.fallback = g.fallback)
      (h : (f.take line).outcome = .ok new) : (g.take line).outcome = .ok new := by
    obtain ⟨d, hd, rfl⟩ := exists_ofLine_of_take h
    rw [g.take_of_ofLine hd, hfallback]
  exact ⟨key hfallback, key hfallback.symm⟩

/-- A malformed line is reported in full, with the number of lines taken up to it. -/
theorem malformed_take {m : MalformedLine} (h : (f.take line).outcome = .error (.malformed m)) :
    m.number = f.linesSeen + 1 ∧ m.line = line := by
  simp only [take] at h
  split at h
  · next he =>
    rw [Except.error.inj h] at he
    exact Document.line_of_malformed he
  · cases h

end

/-! ### Runs -/

theorem returned_append (a b : List Step) : returned (a ++ b) = returned a ++ returned b := by
  simp [returned]

@[simp] theorem length_steps (f : IssueFeed) (lines : List Text) :
    (f.steps lines).length = lines.length := by
  induction lines generalizing f with
  | nil => rfl
  | cons line lines ih => rw [steps, List.length_cons, ih, List.length_cons]

/-- Every step is that of its line, by the feed after the lines before it. -/
theorem getElem?_steps (f : IssueFeed) (lines : List Text) (i : Nat) :
    (f.steps lines)[i]? = lines[i]?.map (f.after (lines.take i)).take := by
  induction lines generalizing f i with
  | nil => rfl
  | cons line lines ih =>
    cases i with
    | zero => rfl
    | succ i =>
      rw [steps, List.getElem?_cons_succ, ih]
      rfl

theorem take_steps (f : IssueFeed) (lines : List Text) (i : Nat) :
    (f.steps lines).take i = f.steps (lines.take i) := by
  induction lines generalizing f i with
  | nil => simp [steps]
  | cons line lines ih =>
    cases i with
    | zero => rfl
    | succ i => rw [steps, List.take_succ_cons, List.take_succ_cons, steps, ih]

@[simp] theorem linesSeen_after (f : IssueFeed) (lines : List Text) :
    (f.after lines).linesSeen = f.linesSeen + lines.length := by
  induction lines generalizing f with
  | nil => rfl
  | cons line lines ih =>
    have hafter : f.after (line :: lines) = (f.take line).feed.after lines := rfl
    rw [hafter, ih, linesSeen_take, List.length_cons]
    omega

@[simp] theorem fallback_after (f : IssueFeed) (lines : List Text) :
    (f.after lines).fallback = f.fallback := by
  induction lines generalizing f with
  | nil => rfl
  | cons line lines ih =>
    have hafter : f.after (line :: lines) = (f.take line).feed.after lines := rfl
    rw [hafter, ih, fallback_take]

/-- The issues after some lines are those before them and what their steps returned. -/
theorem issues_after (f : IssueFeed) (lines : List Text) :
    (f.after lines).issues = f.issues ++ returned (f.steps lines) := by
  induction lines generalizing f with
  | nil => simp [after, steps, returned]
  | cons line lines ih =>
    have hafter : f.after (line :: lines) = (f.take line).feed.after lines := rfl
    have hsteps : f.steps (line :: lines) = [f.take line] ++ (f.take line).feed.steps lines := rfl
    rw [hafter, ih, issues_take, hsteps, returned_append, List.append_assoc]

/-- **A feed after each of its lines.** Whatever lines have failed before, every line is counted and
the issues are those that the steps returned so far, in their order. A line that fails leaves the
issues as they were; a line that does not returns what it returns to a fresh feed; and a malformed
line is reported in full with its place among the lines. -/
theorem exists_step (fallback : Option Text) {lines : List Text} {i : Nat} {line : Text}
    (h : lines[i]? = some line) :
    ∃ step, ((fresh fallback).steps lines)[i]? = some step ∧
      step.feed.linesSeen = i + 1 ∧ step.feed.fallback = fallback ∧
      step.feed.issues = returned (((fresh fallback).steps lines).take (i + 1)) ∧
      (∀ e, step.outcome = .error e →
        step.feed.issues = ((fresh fallback).after (lines.take i)).issues) ∧
      (∀ new, step.outcome = .ok new ↔ ((fresh fallback).take line).outcome = .ok new) ∧
      ∀ m, step.outcome = .error (.malformed m) → m.number = i + 1 ∧ m.line = line := by
  have hlength : (lines.take i).length = i := by
    obtain ⟨hi, -⟩ := List.getElem?_eq_some_iff.1 h
    rw [List.length_take, Nat.min_eq_left (Nat.le_of_lt hi)]
  have hseen : ((fresh fallback).after (lines.take i)).linesSeen = i := by
    rw [linesSeen_after, hlength, fresh, Nat.zero_add]
  have hfallback : ((fresh fallback).after (lines.take i)).fallback = fallback :=
    fallback_after _ _
  have hstep : ((fresh fallback).steps lines)[i]? =
      some (((fresh fallback).after (lines.take i)).take line) := by
    rw [getElem?_steps, h, Option.map_some]
  refine ⟨_, hstep, ?_, ?_, ?_, fun e he => issues_take_of_error he,
    fun new => outcome_take_eq_ok_iff hfallback, fun m hm => ?_⟩
  · rw [linesSeen_take, hseen]
  · rw [fallback_take, hfallback]
  · rw [List.take_add_one, hstep, Option.toList_some, returned_append, issues_take, issues_after,
      take_steps, fresh, List.nil_append]
  · obtain ⟨hnumber, hline⟩ := malformed_take hm
    exact ⟨by rw [hnumber, hseen], hline⟩

/-- The third line of three, after one that returned an issue and one that is no JSON, lacks its
title and message. -/
theorem exists_step_third :
    let last : Text := "\x7b\"type\":\"error\"\x7d"
    let lines : List Text :=
      ["\x7b\"type\":\"error\",\"title\":\"T\",\"message\":[]\x7d", "[", last]
    lines[2]? = some last ∧ ∃ step m, ((fresh none).steps lines)[2]? = some step ∧
      step.feed.linesSeen = 3 ∧
      step.feed.issues = [{ file := [], region := .fileStart, overview := "T", details := [] }] ∧
      step.outcome = .error (.malformed m) ∧ m.number = 3 ∧ m.line = last := by
  intro last lines
  have hlast : lines[2]? = some last := rfl
  obtain ⟨step, hstep, hseen, -, hissues, -, -, hmalformed⟩ := exists_step none hlast
  have houtcome : step.outcome =
      .error (.malformed ⟨3, last, .document .projectError (.missing "title")⟩) := by
    rw [Option.some.inj (hstep.symm.trans rfl)]
    rfl
  exact ⟨hlast, step, _, hstep, hseen, hissues.trans rfl, houtcome, hmalformed _ houtcome⟩

end ElmReport.IssueFeed
