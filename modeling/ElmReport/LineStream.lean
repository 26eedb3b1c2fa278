import ElmReport.Failure
import ElmReport.Note

/-!
# Streams of lines

The lines of a report are handed out one by one, and then the stream ends or fails. Whoever takes
them may close the stream before. What is noted at its start and at its end, and what has to be done
then, hangs on how it is left. Whoever hands them out keeps to a protocol: a compiler that cannot be
found is told of when it is looked for, which is before the first line.

## Main definitions

* `LineStream`: lines, how they end, and what is noted.
* `LineStream.Leaving`: how a stream is left.
* `LineStream.KeepsProtocol`: no line comes when there is no compiler.
* `LineStream.collect`: the lines of a stream, or the first of them.
-/

namespace ElmReport

namespace LineStream

/-- How a stream is left: at its end, by a failure of its own, or closed before. -/
inductive Leaving where
  | finished
  | failed
  | closed
  deriving DecidableEq, Repr

end LineStream

/-- Lines that are handed out one by one, a failure after the last of them if there is one, and what
is noted before the first line and after the stream is left. -/
structure LineStream where
  lines : List Text
  failure : Option Failure := none
  opening : List Note := []
  closing : LineStream.Leaving → List Note := fun _ => []

namespace LineStream

/-- The protocol of those who hand out lines: no line comes when there is no compiler. -/
def KeepsProtocol (s : LineStream) : Prop :=
  ∀ executable, s.failure = some (.toolUnavailable executable) → s.lines = []

/-- How a stream is left whose lines are all taken. -/
def leavingAtEnd (s : LineStream) : Leaving := if s.failure.isSome then .failed else .finished

/-- Lines that are collected, with the failure of the stream, how it was left, and the notes. -/
structure Collected where
  lines : List Text
  failure : Option Failure
  leaving : Leaving
  notes : List Note

/-- The lines of a stream; with a bound the stream is closed as soon as so many are there. -/
def collect (bound : Option Nat) (s : LineStream) : Collected :=
  match bound with
  | some n =>
    if n ≤ s.lines.length then
      ⟨s.lines.take n, none, .closed, s.opening ++ s.closing .closed⟩
    else ⟨s.lines, s.failure, s.leavingAtEnd, s.opening ++ s.closing s.leavingAtEnd⟩
  | none => ⟨s.lines, s.failure, s.leavingAtEnd, s.opening ++ s.closing s.leavingAtEnd⟩

end LineStream

end ElmReport
