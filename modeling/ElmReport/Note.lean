import ElmReport.Json.Basic

/-!
# Notes

What happens on the way is noted. A note has a level, a channel that names the part of the program
it comes from, and a wording.

## Main definitions

* `Note`: what is noted.
* `Note.level`, `Note.channel`, `Note.message`: how it is noted.
* `Note.record`: a note on one line.
* `Note.atLeast`: the notes from some level on.

## Main results

* `Note.atLeast_debug`: every note is at least a debugging note.
-/

namespace ElmReport

/-- The levels of notes, from the least important one on. -/
inductive Level where
  | debug
  | info
  | warning
  deriving DecidableEq, Repr

namespace Level

/-- How important a level is. -/
def rank : Level → Nat
  | debug => 0
  | info => 1
  | warning => 2

/-- What a level is called. -/
def name : Level → Text
  | debug => "DEBUG"
  | info => "INFO"
  | warning => "WARNING"

end Level

/-- What is noted: a document of an unknown form, a compiler that is not there, how much a check
found, the start and the end of a compiler, with its name or without one, the killing of a compiler,
and the summary of a file. -/
inductive Note where
  | otherForm (kind : Option Json)
  | notAvailable
  | parsed (issues lines : Nat)
  | spawning (command : List Text) (directory : Text)
  | spawningUnnamed (arguments : List Text) (directory : Text)
  | exited (executable : Text) (status : Int)
  | exitedUnnamed (status : Int)
  | killing (process : Nat)
  | summary (words : Text)

namespace Note

/-- How important a note is. -/
def level : Note → Level
  | notAvailable => .info
  | _ => .debug

/-- The part of the program that a note comes from. -/
def channel : Note → Text
  | otherForm _ => "elmdiag.issues.parser"
  | notAvailable => "elmdiag.pipeline.entrypoints"
  | parsed .. => "elmdiag.pipeline.entrypoints"
  | spawning .. => "elmdiag.make.invoker"
  | spawningUnnamed .. => "elmdiag.make.invoker"
  | exited .. => "elmdiag.make.invoker"
  | exitedUnnamed _ => "elmdiag.make.invoker"
  | killing _ => "elmdiag.make.invoker"
  | summary _ => "dump_diagnostics"

/-- What stands in place of an executable that is left out. -/
def noExecutable : Text := "[]"

/-- The start of a compiler in words. -/
def spawningText (command directory : Text) : Text :=
  ("Spawning " : Text) ++ command ++ (" (cwd=" : Text) ++ directory ++ (")" : Text)

/-- The end of a compiler in words. -/
def exitedText (executable : Text) (status : Int) : Text :=
  executable ++ (" exited with status " : Text) ++ Text.ofInt status

/-- The wording of a note. -/
def message : Note → Text
  | otherForm kind =>
    ("Ignoring report document with type " : Text) ++ (kind.getD .null).display
  | notAvailable =>
    "The \x27elm make\x27 compiler is not available.  Install Elm from http://elm-lang.org/."
  | parsed issues lines =>
    ("Parsed " : Text) ++ Text.ofNat issues ++ (" issue(s) from " : Text) ++ Text.ofNat lines ++
      (" report line(s)" : Text)
  | spawning command directory => spawningText (Text.quotedList command) directory
  | spawningUnnamed arguments directory =>
    spawningText (Text.bracketed (noExecutable :: arguments.map Text.quoted)) directory
  | exited executable status => exitedText executable status
  | exitedUnnamed status => exitedText noExecutable status
  | killing process => ("Killing compiler process " : Text) ++ Text.ofNat process
  | summary words => words

/-- A note on one line. -/
def record (n : Note) : Text :=
  n.level.name ++ (" " : Text) ++ n.channel ++ (": " : Text) ++ n.message

/-- The notes from a level on. -/
def atLeast (level : Level) (notes : List Note) : List Note :=
  notes.filter fun n => level.rank ≤ n.level.rank

/-- Every note is at least a debugging note. -/
@[simp] theorem atLeast_debug (notes : List Note) : atLeast .debug notes = notes := by
  simp [atLeast, Level.rank]

end Note

end ElmReport
