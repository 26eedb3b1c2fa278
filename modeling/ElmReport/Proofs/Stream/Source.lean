import ElmReport.Check

/-!
# Taking lines one by one

A source hands out a line whenever it is asked for one, until it ends or fails, and it can be closed
at any time. A consumer takes the lines of a source in a loop. After each of them it goes on or
leaves with a result; whichever way it leaves the loop, the source is closed then.

A stream of lines is such a source, and the check of a stream and its collection are loops over it.

## Main definitions

* `Source`: a state that is asked for lines, and that can be closed.
* `Consumer`: what the lines, the end and a failure of a source do to someone who takes lines.
* `Source.run`: the loop.
* `LineStream.Rest`, `LineStream.Rest.source`: what remains of a stream, as a source.
* `Consumer.checker`, `Consumer.collector`: the consumers of the program.

## Main results

* `Source.run_map`: sources that answer alike have the same loops.
* `Source.state_run`: what every answer keeps holds when a loop is left.
* `LineStream.check_eq_run`, `LineStream.collect_eq_run`: the check and the collection are loops.
-/

namespace ElmReport

/-! ### Sources and consumers -/

/-- What a source answers when it is asked for a line. -/
inductive Pulled where
  | line (text : Text)
  | ended
  | failed (failure : Failure)

/-- A state that is asked for lines, one after the other, and that can be closed. Asking for lines
comes to an end. -/
structure Source (σ : Type) where
  pull : σ → Pulled × σ
  close : σ → σ
  size : σ → Nat
  size_lt_of_pull {s s' : σ} {t : Text} : pull s = (.line t, s') → size s' < size s

/-- Someone who takes lines: what a line does, which may be to leave with a result, and what comes
of the end and of a failure of the source. -/
structure Consumer (α ρ : Type) where
  take : α → Text → Except ρ α
  finish : α → ρ
  fail : α → Failure → ρ

/-- What a loop comes to, the number of lines it took, and the source after it. -/
structure Consumed (ρ σ : Type) where
  result : ρ
  taken : Nat
  state : σ

namespace Source

variable {σ τ α ρ : Type}

/-- Takes the lines of a source one by one, and closes it in the end. -/
def run (source : Source σ) (c : Consumer α ρ) (a : α) (s : σ) : Consumed ρ σ :=
  match h : source.pull s with
  | (.line t, s') =>
    match c.take a t with
    | .error r => ⟨r, 1, source.close s'⟩
    | .ok a' =>
      have : source.size s' < source.size s := source.size_lt_of_pull h
      let more := source.run c a' s'
      { more with taken := more.taken + 1 }
  | (.ended, s') => ⟨c.finish a, 0, source.close s'⟩
  | (.failed e, s') => ⟨c.fail a e, 0, source.close s'⟩
termination_by source.size s

variable {source : Source σ} {c : Consumer α ρ} {a : α} {s s' : σ}

/-- A line on which the consumer leaves. -/
theorem run_of_leave {t : Text} {r : ρ} (hpull : source.pull s = (.line t, s'))
    (htake : c.take a t = .error r) : source.run c a s = ⟨r, 1, source.close s'⟩ := by
  rw [run]
  split
  · next h =>
    cases hpull.symm.trans h
    rw [htake]
  · next h => exact nomatch hpull.symm.trans h
  · next h => exact nomatch hpull.symm.trans h

/-- A line after which the consumer goes on. -/
theorem run_of_take {t : Text} {a' : α} (hpull : source.pull s = (.line t, s'))
    (htake : c.take a t = .ok a') :
    source.run c a s =
      ⟨(source.run c a' s').result, (source.run c a' s').taken + 1,
        (source.run c a' s').state⟩ := by
  rw [run]
  split
  · next h =>
    cases hpull.symm.trans h
    rw [htake]
  · next h => exact nomatch hpull.symm.trans h
  · next h => exact nomatch hpull.symm.trans h

/-- The end of the source. -/
theorem run_of_ended (hpull : source.pull s = (.ended, s')) :
    source.run c a s = ⟨c.finish a, 0, source.close s'⟩ := by
  rw [run]
  split
  · next h => exact nomatch hpull.symm.trans h
  · next h =>
    cases hpull.symm.trans h
    rfl
  · next h => exact nomatch hpull.symm.trans h

/-- A failure of the source. -/
theorem run_of_failed {e : Failure} (hpull : source.pull s = (.failed e, s')) :
    source.run c a s = ⟨c.fail a e, 0, source.close s'⟩ := by
  rw [run]
  split
  · next h => exact nomatch hpull.symm.trans h
  · next h => exact nomatch hpull.symm.trans h
  · next h =>
    cases hpull.symm.trans h
    rfl

/-- **Sources that answer alike have the same loops.** -/
theorem run_map {source' : Source τ} (f : σ → τ)
    (hpull : ∀ s, source'.pull (f s) = ((source.pull s).1, f (source.pull s).2))
    (hclose : ∀ s, source'.close (f s) = f (source.close s)) (c : Consumer α ρ) (a : α) (s : σ) :
    source'.run c a (f s) =
      ⟨(source.run c a s).result, (source.run c a s).taken, f (source.run c a s).state⟩ := by
  fun_induction source.run c a s with
  | case1 a s t s' h r htake =>
    have hanswer : source'.pull (f s) = (.line t, f s') := by rw [hpull, h]
    rw [run_of_leave hanswer htake, hclose]
  | case2 a s t s' h a' htake _ more ih =>
    have hanswer : source'.pull (f s) = (.line t, f s') := by rw [hpull, h]
    rw [run_of_take hanswer htake, ih]
  | case3 a s s' h =>
    have hanswer : source'.pull (f s) = (.ended, f s') := by rw [hpull, h]
    rw [run_of_ended hanswer, hclose]
  | case4 a s e s' h =>
    have hanswer : source'.pull (f s) = (.failed e, f s') := by rw [hpull, h]
    rw [run_of_failed hanswer, hclose]

/-- What every answer of a source keeps holds when a loop is left, and then the source is closed. -/
theorem state_run {P Q : σ → Prop} (hpull : ∀ s, P s → P (source.pull s).2)
    (hclose : ∀ s, P s → Q (source.close s)) (c : Consumer α ρ) (a : α) {s : σ} (hs : P s) :
    Q (source.run c a s).state := by
  fun_induction source.run c a s with
  | case1 a s t s' h => exact hclose s' (by simpa only [h] using hpull s hs)
  | case2 a s t s' h a' _ _ more ih => exact ih (by simpa only [h] using hpull s hs)
  | case3 a s s' h => exact hclose s' (by simpa only [h] using hpull s hs)
  | case4 a s e s' h => exact hclose s' (by simpa only [h] using hpull s hs)

end Source

/-! ### Streams as sources -/

namespace LineStream

/-- What remains of a stream: lines and perhaps a failure after them, or nothing once it is left. -/
inductive Rest where
  | lines (lines : List Text) (failure : Option Failure)
  | left (leaving : Leaving)

namespace Rest

/-- Asks for a line. The end and a failure leave the stream; a stream that is left stays so. -/
def pull : Rest → Pulled × Rest
  | lines (t :: ts) failure => (.line t, lines ts failure)
  | lines [] none => (.ended, left .finished)
  | lines [] (some e) => (.failed e, left .failed)
  | left leaving => (.ended, left leaving)

/-- Closes what remains of a stream, unless it is left already. -/
def close : Rest → Rest
  | lines _ _ => left .closed
  | left leaving => left leaving

/-- What remains of a stream is a source. -/
def source : Source Rest where
  pull := pull
  close := close
  size
    | lines ts _ => ts.length
    | left _ => 0
  size_lt_of_pull {s s' t} h := by
    rcases s with ⟨_ | ⟨t', ts⟩, _ | e⟩ | leaving <;> cases h <;> exact Nat.lt_succ_self _

variable {α ρ : Type} (c : Consumer α ρ) {a : α}

theorem run_ended : source.run c a (lines [] none) = ⟨c.finish a, 0, left .finished⟩ := by
  have hpull : source.pull (lines [] none) = (.ended, left .finished) := rfl
  exact Source.run_of_ended hpull

theorem run_failed (e : Failure) :
    source.run c a (lines [] (some e)) = ⟨c.fail a e, 0, left .failed⟩ := by
  have hpull : source.pull (lines [] (some e)) = (.failed e, left .failed) := rfl
  exact Source.run_of_failed hpull

variable {c} {t : Text}

theorem run_leave {r : ρ} (h : c.take a t = .error r) (ts : List Text) (failure : Option Failure) :
    source.run c a (lines (t :: ts) failure) = ⟨r, 1, left .closed⟩ := by
  have hpull : source.pull (lines (t :: ts) failure) = (.line t, lines ts failure) := rfl
  exact Source.run_of_leave hpull h

theorem run_take {a' : α} (h : c.take a t = .ok a') (ts : List Text) (failure : Option Failure) :
    source.run c a (lines (t :: ts) failure) =
      ⟨(source.run c a' (lines ts failure)).result, (source.run c a' (lines ts failure)).taken + 1,
        (source.run c a' (lines ts failure)).state⟩ :=
  Source.run_of_take rfl h

end Rest

/-- All of a stream. -/
def rest (s : LineStream) : Rest := .lines s.lines s.failure

end LineStream

/-! ### The consumers of the program -/

namespace Consumer

/-- Feeds lines to a feed of issues. A line that fails is left with; a compiler that is not there
has no issues. -/
def checker : Consumer IssueFeed (Except Failure (List Issue)) where
  take feed t :=
    match (feed.take t).outcome with
    | .error e => .error (.error (.line e))
    | .ok _ => .ok (feed.take t).feed
  finish feed := .ok feed.issues
  fail _ e := if e.isToolUnavailable then .ok [] else .error e

/-- Collects lines and the failure after them; with a bound it leaves as soon as so many are
there. -/
def collector (bound : Option Nat) : Consumer (List Text) (List Text × Option Failure) where
  take ts t := if bound = some (ts.length + 1) then .error (ts ++ [t], none) else .ok (ts ++ [t])
  finish ts := (ts, none)
  fail ts e := (ts, some e)

end Consumer

namespace LineStream

/-- What the loop of a check comes to, by the run of its feed. -/
theorem run_checker (feed : IssueFeed) (lines : List Text) (failure : Option Failure) :
    let run := feed.takeAll lines
    ∃ taken, run.feed.linesSeen = feed.linesSeen + taken ∧
      Rest.source.run Consumer.checker feed (.lines lines failure) =
        match run.error, failure with
        | some e, _ => ⟨.error (.line e), taken, .left .closed⟩
        | none, some e =>
          ⟨if e.isToolUnavailable then .ok [] else .error e, taken, .left .failed⟩
        | none, none => ⟨.ok run.feed.issues, taken, .left .finished⟩ := by
  induction lines generalizing feed with
  | nil =>
    refine ⟨0, rfl, ?_⟩
    cases failure with
    | none => exact Rest.run_ended Consumer.checker
    | some e => exact Rest.run_failed Consumer.checker e
  | cons t ts ih =>
    rcases houtcome : (feed.take t).outcome with e | new
    · have htake : Consumer.checker.take feed t = .error (.error (.line e)) := by
        simp only [Consumer.checker, houtcome]
      refine ⟨1, ?_, ?_⟩
      · simp only [IssueFeed.takeAll, houtcome, IssueFeed.linesSeen_take]
      · simp only [Rest.run_leave htake, IssueFeed.takeAll, houtcome]
    · have htake : Consumer.checker.take feed t = .ok (feed.take t).feed := by
        simp only [Consumer.checker, houtcome]
      obtain ⟨taken, hseen, hloop⟩ := ih (feed.take t).feed
      refine ⟨taken + 1, ?_, ?_⟩
      · simp only [IssueFeed.takeAll, houtcome, hseen, IssueFeed.linesSeen_take]
        omega
      · simp only [Rest.run_take htake, IssueFeed.takeAll, houtcome, hloop]
        split <;> rfl

/-- **The check of a stream is the loop of its consumer**: what it comes to, how many lines it
takes, and how it leaves the stream. -/
theorem check_eq_run (s : LineStream) (file : Text) :
    ∃ leaving, (s.check file).leaving = some leaving ∧
      Rest.source.run Consumer.checker { fallback := some file } s.rest =
        ⟨(s.check file).result, (s.check file).taken, .left leaving⟩ := by
  obtain ⟨taken, hseen, hloop⟩ := run_checker { fallback := some file } s.lines s.failure
  rw [Nat.zero_add] at hseen
  rw [rest, hloop]
  rcases herror : (IssueFeed.takeAll { fallback := some file } s.lines).error with _ | e
  · rcases hfailure : s.failure with _ | e
    · exact ⟨.finished, by simp only [check, herror, hfailure, hseen, and_self]⟩
    · refine ⟨.failed, ?_⟩
      simp only [check, herror, hfailure, hseen]
      split <;> exact ⟨rfl, rfl⟩
  · exact ⟨.closed, by simp only [check, herror, hseen, and_self]⟩

/-- A stream that has fewer lines than are wanted is collected to its end. -/
theorem collect_of_short {bound : Option Nat} {s : LineStream}
    (h : ∀ n, bound = some n → s.lines.length < n) : s.collect bound =
      ⟨s.lines, s.failure, s.leavingAtEnd, s.opening ++ s.closing s.leavingAtEnd⟩ := by
  cases bound with
  | none => rfl
  | some n => exact if_neg (Nat.not_le.2 (h n rfl))

/-- A stream that has the lines that are wanted is closed after them. -/
theorem collect_of_le {n : Nat} {s : LineStream} (h : n ≤ s.lines.length) : s.collect (some n) =
    ⟨s.lines.take n, none, .closed, s.opening ++ s.closing .closed⟩ :=
  if_pos h

/-- What the loop of a collection comes to when some lines are there already, fewer than its
bound. -/
theorem run_collector {bound : Option Nat} {s : LineStream} {ts lines : List Text}
    (hlines : s.lines = ts ++ lines) (h : ∀ n, bound = some n → ts.length < n) :
    let loop := Rest.source.run (Consumer.collector bound) ts (.lines lines s.failure)
    loop.result = ((s.collect bound).lines, (s.collect bound).failure) ∧
      ts.length + loop.taken = (s.collect bound).lines.length ∧
      loop.state = .left (s.collect bound).leaving := by
  induction lines generalizing ts with
  | nil =>
    rw [List.append_nil] at hlines
    rw [collect_of_short (hlines ▸ h), hlines, leavingAtEnd]
    rcases hfailure : s.failure with _ | e
    · rw [Rest.run_ended]
      exact ⟨rfl, rfl, rfl⟩
    · rw [Rest.run_failed]
      exact ⟨rfl, rfl, rfl⟩
  | cons t lines ih =>
    by_cases hbound : bound = some (ts.length + 1)
    · have htake : (Consumer.collector bound).take ts t = .error (ts ++ [t], none) :=
        if_pos hbound
      have hlong : ts.length + 1 ≤ s.lines.length := by simp [hlines]
      have hfirst : s.lines.take (ts.length + 1) = ts ++ [t] := by
        rw [hlines, List.take_append, List.take_of_length_le (Nat.le_succ _),
          Nat.add_sub_cancel_left]
        rfl
      rw [Rest.run_leave htake, hbound, collect_of_le hlong, hfirst]
      exact ⟨rfl, by simp, rfl⟩
    · have htake : (Consumer.collector bound).take ts t = .ok (ts ++ [t]) := if_neg hbound
      have hmore (n : Nat) (hn : bound = some n) : (ts ++ [t]).length < n := by
        have hlt := h n hn
        have hne : n ≠ ts.length + 1 := fun heq => hbound (heq ▸ hn)
        rw [List.length_append, List.length_singleton]
        omega
      have hrest : s.lines = ts ++ [t] ++ lines := by
        rw [hlines, List.append_assoc, List.singleton_append]
      obtain ⟨hresult, htaken, hstate⟩ := ih hrest hmore
      rw [List.length_append, List.length_singleton] at htaken
      rw [Rest.run_take htake]
      refine ⟨hresult, ?_, hstate⟩
      rw [← htaken, Nat.add_assoc, Nat.add_comm 1]

/-- **The collection of a stream is the loop of its consumer**, unless no line at all is wanted. -/
theorem collect_eq_run {bound : Option Nat} (h : bound ≠ some 0) (s : LineStream) :
    Rest.source.run (Consumer.collector bound) [] s.rest =
      ⟨((s.collect bound).lines, (s.collect bound).failure), (s.collect bound).lines.length,
        .left (s.collect bound).leaving⟩ := by
  have hbound (n : Nat) (hn : bound = some n) : ([] : List Text).length < n :=
    Nat.pos_of_ne_zero fun hzero => h (hzero ▸ hn)
  obtain ⟨hresult, htaken, hstate⟩ := run_collector (List.nil_append s.lines).symm hbound
  rw [List.length_nil, Nat.zero_add] at htaken
  rw [rest, ← hresult, ← htaken, ← hstate]

end LineStream

end ElmReport
