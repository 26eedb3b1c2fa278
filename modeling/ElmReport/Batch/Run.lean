import ElmReport.Batch.Arguments
import ElmReport.Batch.Selection
import ElmReport.Check
import ElmReport.Compiler.Options
import ElmReport.Compiler.Unnamed
import ElmReport.Json.Writer

/-!
# Batch runs

A batch run finds the files that its arguments name, checks them one after the other, and writes the
diagnostics of all of them. The first check that fails ends it, and then nothing is written.

## Main definitions

* `summaryLine`: what is noted about the diagnostics of a file.
* `Compiler`, `Call`: the compiler of a run, and a call of it.
* `Surroundings`: the file tree, the platform and who calls the compiler.
* `Outcome`: what a run comes to.
* `FileChecks.ofFiles`: the checks of files one after the other.
* `resultText`: the results in words.
* `Surroundings.run`: the run that the words of a command line ask for.

## Main results

* `Compiler.words_call`: a call with an executable has the words of the command.
* `FileChecks.calls_cons`: after a check that succeeds come the checks of the other files.
* `Surroundings.run_of_usageError`: words that make no sense start no compiler.
-/

namespace ElmReport.Batch

/-! ### Results -/

/-- What is noted about the diagnostics of a checked file. -/
def summaryLine (p : Path) (files : List FileDiagnostics) : Text :=
  let ds := files.flatMap FileDiagnostics.diagnostics
  p.text ++ (": " : Text) ++ Text.ofNat files.length ++ (" file(s), " : Text) ++
    Text.ofNat (countSeverity .error ds) ++ (" error(s), " : Text) ++
    Text.ofNat (countSeverity .warning ds) ++ (" warning(s)" : Text)

/-- A checked file with its diagnostics. -/
structure FileResult where
  path : Path
  files : List FileDiagnostics

/-- A checked file as an object. -/
def FileResult.toJson (r : FileResult) : Json :=
  .object [("file", .string r.path.text), ("groups", .list (r.files.map FileDiagnostics.toJson))]

/-- The bound of the widths of an indentation that the writer takes. -/
def widthBound : Int := 0x8000000000000000

/-- The results in words, with an indentation of so many blanks; of a negative number none are
written, and an indentation that is left out is refused. -/
def resultText (indent : Option Int) (results : List FileResult) : Except Failure Text :=
  match indent with
  | none => .error .noIndent
  | some n =>
    let json := Json.list (results.map FileResult.toJson)
    if widthBound ≤ n ∨ n < -widthBound then .error .indentTooWide
    else if json.hasLongInteger Arguments.digitLimit then
      .error (.longInteger Arguments.digitLimit)
    else .ok (json.indented n.toNat 0 ++ ("\n" : Text))

/-! ### Checking files -/

/-- A call of the compiler: the words of its command, the first of which may be left out, and the
directory that it starts in. -/
structure Call where
  executable : Option Text
  arguments : List Text
  directory : Text
  deriving DecidableEq, Repr

/-- The compiler of a run: the options that it is called with, whether its executable is left out,
and who calls it. Without an executable `named` gives what the system makes of the command that
lacks its first word, in the wording of a call with it. -/
structure Compiler where
  options : CompilerOptions
  isUnnamed : Bool
  named : Invoker

namespace Compiler

/-- Who calls the compiler, with or without its executable. -/
def invoker (c : Compiler) : Invoker := fun file directory =>
  if c.isUnnamed then (c.named file directory).unnamed else c.named file directory

/-- A call of the compiler for a file. -/
def call (c : Compiler) (file directory : Text) : Call where
  executable := if c.isUnnamed then none else some c.options.executable
  arguments := (c.options.arguments file).tail
  directory := directory

/-- The words of a call with an executable are those of its command. -/
theorem words_call {c : Compiler} (h : c.isUnnamed = false) (file directory : Text) :
    (c.call file directory).executable.toList ++ (c.call file directory).arguments =
      c.options.arguments file := by
  simp [call, h, CompilerOptions.arguments]

end Compiler

/-- The checks of files: the results or the failure that ended them, the calls of the compiler, and
the notes. -/
structure FileChecks where
  results : Except Failure (List FileResult)
  calls : List Call
  notes : List Note

namespace FileChecks

/-- The check of one file below a root. -/
def diagnose (invoker : Invoker) (root : Text) (p : Path) : CheckRun (List FileDiagnostics) :=
  match FilePath.toUri p.text with
  | .error e => { result := .error (.loneSurrogates e) }
  | .ok uri => invoker.diagnose root uri

/-- The calls of the compiler in a check. -/
def callsOf (c : Compiler) (root : Text) {α : Type} (check : CheckRun α) : List Call :=
  check.asked.toList.map fun file => c.call file root

/-- The checks of files below a root, one after the other up to the first that fails. -/
def ofFiles (c : Compiler) (root : Text) : List Path → FileChecks
  | [] => ⟨.ok [], [], []⟩
  | p :: ps =>
    let check := diagnose c.invoker root p
    let calls := callsOf c root check
    match check.result with
    | .error e => ⟨.error e, calls, check.notes⟩
    | .ok files =>
      let others := ofFiles c root ps
      { results := others.results.map (⟨p, files⟩ :: ·)
        calls := calls ++ others.calls
        notes := check.notes ++ .summary (summaryLine p files) :: others.notes }

/-- After a check that succeeds come the checks of the other files. -/
theorem calls_cons {c : Compiler} {root : Text} {p : Path} {files : List FileDiagnostics}
    (h : (diagnose c.invoker root p).result = .ok files) (ps : List Path) :
    (ofFiles c root (p :: ps)).calls =
      callsOf c root (diagnose c.invoker root p) ++ (ofFiles c root ps).calls := by
  simp [ofFiles, h]

end FileChecks

/-! ### Runs -/

/-- Where a run takes place: the file tree, the platform, and who calls the compiler with some
options. -/
structure Surroundings where
  tree : FileTree
  platform : Text
  invoker : CompilerOptions → Invoker

/-- Why a run stops before the first check. -/
inductive Refusal where
  | noRoot (path : Path)
  | noFiles

/-- The wording of a refusal. -/
def Refusal.message : Refusal → Text
  | noRoot path => ("Invalid --workspace-root: " : Text) ++ path.text
  | noFiles => "No .elm files found"

/-- What a run comes to: help, an error in the command line, a refusal, a failure, or results in
words. -/
inductive Outcome where
  | help
  | usage (error : UsageError)
  | refused (refusal : Refusal)
  | failed (failure : Failure)
  | written (text : Text)

/-- A run: what it comes to, its calls of the compiler, and its notes. -/
structure Run where
  outcome : Outcome
  calls : List Call := []
  notes : List Note := []

namespace Surroundings

/-- The root of the workspace, which has to be a directory. -/
def workspaceRoot (s : Surroundings) (a : Arguments) : Except Outcome Path := do
  match a.workspaceRoot.orStandard ⟨.root, s.tree.workplace⟩ with
  | none => throw (.failed .noRoot)
  | some p =>
    let root ← (s.tree.realPath p).mapError .failed
    match s.tree.status root with
    | .nameTooLong => throw (.failed (.nameTooLong root.text))
    | status => if status.isDirectory then return root else throw (.refused (.noRoot root))

/-- The files that are to be checked, of which there has to be one. -/
def files (s : Surroundings) (a : Arguments) : Except Outcome (List Path) := do
  match ← (s.tree.selection a.paths).mapError .failed with
  | [] => throw (.refused .noFiles)
  | ps => return ps

/-- The root of the workspace and the files that are to be checked. -/
def targets (s : Surroundings) (a : Arguments) : Except Outcome (Path × List Path) := do
  let root ← s.workspaceRoot a
  return (root, ← s.files a)

/-- The executable of the compiler unless another one is given. -/
def standardExecutable : Text := "elm"

/-- The compiler that the files are checked with. -/
def compiler (s : Surroundings) (a : Arguments) : Compiler :=
  let executable? := a.executable.orStandard standardExecutable
  let options :=
    { CompilerOptions.forPlatform s.platform with
      executable := executable?.getD standardExecutable }
  ⟨options, executable?.isNone, s.invoker options⟩

/-- The number of blanks that the results are indented with unless another one is given. -/
def standardIndent : Int := 2

/-- The run that some arguments ask for. -/
def check (s : Surroundings) (a : Arguments) : Run :=
  match s.targets a with
  | .error outcome => { outcome }
  | .ok (root, ps) =>
    let checks := FileChecks.ofFiles (s.compiler a) root.text ps
    { outcome :=
        match checks.results.bind (resultText (a.indent.orStandard standardIndent)) with
        | .error e => .failed e
        | .ok text => .written text
      calls := checks.calls
      notes := Note.atLeast (if a.verbose then .debug else .info) checks.notes }

/-- The run that the words of a command line ask for. -/
def run (s : Surroundings) (words : List Text) : Run :=
  match Arguments.ofTexts words with
  | .error e => { outcome := .usage e }
  | .ok .help => { outcome := .help }
  | .ok (.check a) => s.check a

/-- Words that make no sense start no compiler. -/
theorem run_of_usageError {words : List Text} {e : UsageError}
    (h : Arguments.ofTexts words = .error e) (s : Surroundings) : (s.run words).calls = [] := by
  simp [run, h]

end Surroundings

end ElmReport.Batch
