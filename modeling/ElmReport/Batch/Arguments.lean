import ElmReport.FileTree.Path
import ElmReport.Text.Integer
import ElmReport.Text.Quoted

/-!
# Arguments of a batch run

The words of a command line are options and operands. An option may be shortened to any of its
beginnings that no other option has, and its value may stand behind an equals sign in the same word.
A value that is two dashes is taken out and leaves the option empty. After two dashes as a word,
every word is an operand. Only the operands of the first run are paths; those of later runs, and
unknown options, are left over.

## Main definitions

* `Switch`: the options, with their spellings.
* `UsageError`: why the words of a command line make no sense.
* `Word.ofText`: what a word is by itself.
* `Word.ofTexts`: what the words of a command line are.
* `Setting`: the value of an option, which may be not given or empty.
* `Arguments`: what a batch run is asked to do.
* `Arguments.ofTexts`: what the words of a command line ask for.

## Main results

* `Word.ofText_of_no_dash`: a word without a dash in front is an operand.
-/

namespace ElmReport.Batch

/-! ### Options -/

/-- The options of a batch run. -/
inductive Switch where
  | help
  | workspaceRoot
  | elm
  | noProgress
  | verbose
  | indent
  deriving DecidableEq, Repr

namespace Switch

/-- The spellings of the options, in the order in which messages list them. -/
def spellings : List (Text × Switch) :=
  [("-h", help), ("--help", help), ("--workspace-root", workspaceRoot), ("--elm", elm),
    ("--no-progress", noProgress), ("--verbose", verbose), ("--indent", indent)]

/-- What messages call an option. -/
def name : Switch → Text
  | help => "-h/--help"
  | workspaceRoot => "--workspace-root"
  | elm => "--elm"
  | noProgress => "--no-progress"
  | verbose => "--verbose"
  | indent => "--indent"

/-- The option with a spelling. -/
def ofSpelling? (t : Text) : Option Switch := spellings.lookup t

end Switch

/-- Why the words of a command line make no sense: a word is the beginning of several options, an
option lacks its value or has one that it does not take, a number is none, no path is named, or
words are left over. -/
inductive UsageError where
  | ambiguous (word : Text) (spellings : List Text)
  | missingValue (switch : Switch)
  | unusedValue (switch : Switch) (value : Text)
  | noInteger (switch : Switch) (value : Text)
  | noPaths
  | unrecognized (words : List Text)
  deriving DecidableEq, Repr

namespace UsageError

/-- What is wrong. -/
def reason : UsageError → Text
  | ambiguous word spellings =>
    ("ambiguous option: " : Text) ++ word ++ (" could match " : Text) ++ Text.join ", " spellings
  | missingValue switch =>
    ("argument " : Text) ++ switch.name ++ (": expected one argument" : Text)
  | unusedValue switch value =>
    ("argument " : Text) ++ switch.name ++ (": ignored explicit argument " : Text) ++ value.quoted
  | noInteger switch value =>
    ("argument " : Text) ++ switch.name ++ (": invalid int value: " : Text) ++ value.quoted
  | noPaths => "the following arguments are required: paths"
  | unrecognized words => ("unrecognized arguments: " : Text) ++ Text.join " " words

/-- The wording of an error. -/
def message (e : UsageError) : Text := ("dump_diagnostics.py: error: " : Text) ++ e.reason

end UsageError

/-! ### Words -/

/-- What a word of a command line is: an operand, the first two dashes, an option with the value
that stands in the same word, the short help option with letters behind it, or an option that nobody
knows. -/
inductive Word where
  | operand (text : Text)
  | twoDashes
  | option (switch : Switch) (value : Option Text)
  | helpLetters (letters : Text)
  | unknown (text : Text)
  deriving DecidableEq, Repr

namespace Word

/-- The code point that options open with. -/
def dash : CodePoint := .scalar '-'

/-- The word after which every word is an operand. -/
def dashes : Text := "--"

/-- The code point between an option and its value. -/
def equalsSign : CodePoint := .scalar '='

/-- The short spelling of the help option. -/
def shortHelp : Text := "-h"

/-- The options that a word with two dashes in front may be short for, with their spellings. -/
def completions (start : Text) : List (Text × Switch) :=
  Switch.spellings.filter fun s => s.1.startsWith start

/-- A run of at least one digit. -/
def isDigits (t : Text) : Bool := !t.isEmpty && t.all CodePoint.isDigit

/-- Whether a word is a dash and a number, which may have decimals and a line feed after it. -/
def isNegativeNumber (t : Text) : Bool :=
  match t with
  | .scalar '-' :: number =>
    let number := if number.getLast? = some (.scalar '\n') then number.dropLast else number
    match Text.cut (.scalar '.') number with
    | (whole, none) => isDigits whole
    | (whole, some decimals) => whole.all CodePoint.isDigit && isDigits decimals
  | _ => false

/-- What a word is that opens with a dash and is no option: a negative number, a text with a space,
or an option that nobody knows. -/
def other (t : Text) : Word :=
  if isNegativeNumber t || t.contains (.scalar ' ') then .operand t else .unknown t

/-- What a word is that opens with a dash and is no spelling of an option: the short help option
with letters behind it, an option that it is short for, or something else. -/
def ofBeginning (t : Text) : Except UsageError Word :=
  if t.startsWith dashes then
    let (start, value) := Text.cut equalsSign t
    match completions start with
    | [] => .ok (other t)
    | [(_, switch)] => .ok (.option switch value)
    | several => .error (.ambiguous t (several.map Prod.fst))
  else if t.startsWith shortHelp then .ok (.helpLetters (t.drop shortHelp.length))
  else .ok (other t)

/-- What a word is that opens with a dash. -/
def ofDashed (t : Text) : Except UsageError Word :=
  match Switch.ofSpelling? t, Text.cut equalsSign t with
  | some switch, _ => .ok (.option switch none)
  | none, (spelling, some value) =>
    match Switch.ofSpelling? spelling with
    | some switch =>
      .ok (if spelling = shortHelp then .helpLetters value else .option switch (some value))
    | none => ofBeginning t
  | none, (_, none) => ofBeginning t

/-- What a word is by itself. -/
def ofText (t : Text) : Except UsageError Word :=
  if t.head? ≠ some dash ∨ t = [dash] then .ok (.operand t) else ofDashed t

/-- A word without a dash in front is an operand. -/
theorem ofText_of_no_dash {t : Text} (h : t.head? ≠ some dash) : ofText t = .ok (.operand t) := by
  rw [ofText, if_pos (.inl h)]

/-- What the words of a command line are. -/
def ofTexts : List Text → Except UsageError (List Word)
  | [] => .ok []
  | t :: ts =>
    if t = dashes then .ok (.twoDashes :: ts.map operand)
    else do
      let word ← ofText t
      return word :: (← ofTexts ts)

end Word

/-! ### What is asked for -/

/-- The value of an option: it is not given, it is a value, or it is empty because the two dashes
given for it were taken out. -/
inductive Setting (α : Type) where
  | unset
  | value (value : α)
  | empty
  deriving DecidableEq, Repr

namespace Setting

variable {α : Type}

/-- The value that a word gives, read by `read`. -/
def ofWord (read : Text → α) (t : Text) : Setting α :=
  if t = Word.dashes then empty else value (read t)

/-- The value of an option that has a standard one; an empty option has none. -/
def orStandard (standard : α) : Setting α → Option α
  | unset => some standard
  | value a => some a
  | empty => none

/-- An option that is not given has its standard value. -/
@[simp] theorem orStandard_unset (standard : α) : unset.orStandard standard = some standard := rfl

end Setting

/-- What a batch run is asked to do: the paths to check, the root of the workspace, the compiler,
whether progress is shown and debugging notes are given, and the indentation of the results. -/
structure Arguments where
  paths : List Path
  workspaceRoot : Setting Path := .unset
  executable : Setting Text := .unset
  showsProgress : Bool := true
  verbose : Bool := false
  indent : Setting Int := .unset
  deriving DecidableEq, Repr

/-- What the words of a command line ask for. -/
inductive Request where
  | help
  | check (arguments : Arguments)
  deriving DecidableEq, Repr

namespace Arguments

/-- The most digits of a number. -/
def digitLimit : Nat := 4300

/-- What the words so far ask for: the arguments, whether paths were among them, the operands since
the last option with the two dashes among them, and the words that are left over. -/
structure Partial where
  arguments : Arguments := { paths := [] }
  hasPaths : Bool := false
  pending : List Word := []
  leftOver : List Text := []

namespace Partial

/-- How an operand or the two dashes were written; other words are not pending. -/
def written : Word → Text
  | .operand t => t
  | .twoDashes => Word.dashes
  | .option switch _ => switch.name
  | .helpLetters t => t
  | .unknown t => t

/-- The texts of the operands. -/
def operands (ws : List Word) : List Text :=
  ws.filterMap fun w =>
    match w with
    | .operand t => some t
    | _ => none

/-- Ends a run of operands: the first run is the paths, the words of a later one are left over. -/
def endRun (p : Partial) : Partial :=
  let paths := operands p.pending
  if !p.hasPaths && !paths.isEmpty then
    { p with
      arguments := { p.arguments with paths := paths.map Path.ofText }
      hasPaths := true, pending := [] }
  else { p with leftOver := p.leftOver ++ p.pending.map written, pending := [] }

/-- Sets the value of an option that takes one. -/
def setValue (p : Partial) (switch : Switch) (value : Text) : Except UsageError Partial :=
  match switch with
  | .workspaceRoot =>
    .ok { p with arguments := { p.arguments with workspaceRoot := .ofWord Path.ofText value } }
  | .elm => .ok { p with arguments := { p.arguments with executable := .ofWord id value } }
  | .indent =>
    if value = Word.dashes then .ok { p with arguments := { p.arguments with indent := .empty } }
    else
      match Text.toInt? digitLimit value with
      | some n => .ok { p with arguments := { p.arguments with indent := .value n } }
      | none => .error (.noInteger .indent value)
  | _ => .error (.unusedValue switch value)

/-- Sets an option that takes no value. -/
def setFlag (p : Partial) : Switch → Partial
  | .noProgress => { p with arguments := { p.arguments with showsProgress := false } }
  | .verbose => { p with arguments := { p.arguments with verbose := true } }
  | _ => p

/-- Whether an option takes a value. -/
def takesValue : Switch → Bool
  | .workspaceRoot => true
  | .elm => true
  | .indent => true
  | _ => false

/-- What letters behind the short help option ask for: help, when each of them asks for it. -/
def help (letters : Text) : Except UsageError Request :=
  let others := letters.dropWhile (· == .scalar 'h')
  if !letters.isEmpty && others.isEmpty then .ok .help else .error (.unusedValue .help others)

/-- What all words ask for, after those taken so far. -/
def finish (p : Partial) : Except UsageError Request :=
  let p := p.endRun
  if !p.hasPaths then .error .noPaths
  else if p.leftOver.isEmpty then .ok (.check p.arguments)
  else .error (.unrecognized p.leftOver)

/-- Takes the words of a command line one by one. -/
def takeAll (p : Partial) : List Word → Except UsageError Request
  | [] => p.finish
  | .operand t :: words => { p with pending := p.pending ++ [Word.operand t] }.takeAll words
  | .twoDashes :: words => { p with pending := p.pending ++ [Word.twoDashes] }.takeAll words
  | .unknown t :: words =>
    let p := p.endRun
    { p with leftOver := p.leftOver ++ [t] }.takeAll words
  | .option .help none :: _ => .ok .help
  | .helpLetters letters :: _ => help letters
  | .option switch (some value) :: words =>
    match p.endRun.setValue switch value with
    | .ok p => p.takeAll words
    | .error e => .error e
  | .option switch none :: .operand value :: words =>
    if takesValue switch then
      match p.endRun.setValue switch value with
      | .ok p => p.takeAll words
      | .error e => .error e
    else { p.endRun.setFlag switch with pending := [.operand value] }.takeAll words
  | .option switch none :: words =>
    if takesValue switch then .error (.missingValue switch)
    else (p.endRun.setFlag switch).takeAll words

end Partial

/-- What the words of a command line ask for. -/
def ofTexts (ts : List Text) : Except UsageError Request := do
  Partial.takeAll {} (← Word.ofTexts ts)

end Arguments

end ElmReport.Batch
