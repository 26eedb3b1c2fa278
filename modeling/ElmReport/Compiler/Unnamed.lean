import ElmReport.LineStream

/-!
# Calls without an executable

The executable of a call may be left out. The system is then handed a command whose first word is
missing. What it does with that is left to it, and so to whoever calls the compiler: it may refuse
the command, fail by words of its own before there is a process, or start one like any other. Notes
show a pair of brackets in place of the word, and a refusal cannot be reported because the command
cannot be written on one line. What the system fails by in its own words stays as it is.

## Main definitions

* `Note.unnamed`, `Failure.unnamed`: what is noted, and what fails, without an executable.
* `LineStream.unnamed`: the lines of a call without an executable.

## Main results

* `Failure.isToolUnavailable_unnamed`: that there is no compiler is said in either case.
* `LineStream.lines_unnamed`: the lines are those of the call with an executable.
-/

namespace ElmReport

/-- What is noted in a call without an executable in place of what is noted in one with it. -/
def Note.unnamed : Note → Note
  | .spawning (_ :: arguments) directory => .spawningUnnamed arguments directory
  | .exited _ status => .exitedUnnamed status
  | n => n

namespace Failure

/-- What fails in a call without an executable in place of what fails in one with it. -/
def unnamed : Failure → Failure
  | spawnFailed .. => unnamedCommand
  | f => f

/-- That there is no compiler is said in either case. -/
@[simp] theorem isToolUnavailable_unnamed (f : Failure) :
    f.unnamed.isToolUnavailable = f.isToolUnavailable := by
  cases f <;> rfl

end Failure

namespace LineStream

/-- The lines of a call without an executable, given those of the call with it. -/
def unnamed (s : LineStream) : LineStream where
  lines := s.lines
  failure := s.failure.map Failure.unnamed
  opening := s.opening.map Note.unnamed
  closing := fun leaving => (s.closing leaving).map Note.unnamed

/-- The lines are those of the call with an executable. -/
@[simp] theorem lines_unnamed (s : LineStream) : s.unnamed.lines = s.lines := rfl

end LineStream

end ElmReport
