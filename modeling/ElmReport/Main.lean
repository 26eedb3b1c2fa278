import ElmReport.Batch.Run
import ElmReport.Compiler.Process

/-!
# The command line

A batch run over the files that the command line names. The report of the compiler is read from
standard input and stands for each of them; the results go to standard output, notes and messages to
standard error.

## Main definitions

* `Batch.Arguments.fileTree`: a file tree with the files that are named.
* `main`: the program.
-/

namespace ElmReport.Batch

/-- A file tree with the files that some arguments name and the root of their workspace. -/
def Arguments.fileTree (a : Arguments) : FileTree :=
  let empty : FileTree := ⟨.directory [], []⟩
  let root :=
    match a.workspaceRoot with
    | .value p => Path.collapse p.names
    | _ => []
  let files := (a.paths.map fun p => Path.collapse p.names).filter fun names => !names.isEmpty
  files.foldl (fun t names => t.insert names .file) (empty.insert root (.directory []))

/-- The surroundings of a run in which every file has the same report. -/
def surroundings (report : List (List UInt8)) (words : List Text) : Surroundings where
  tree :=
    match Arguments.ofTexts words with
    | .ok (.check a) => a.fileTree
    | _ => ⟨.directory [], []⟩
  platform := []
  invoker := fun o => Host.stream { launch := .started (some report), process := 0 } o

/-- What is said about the options when somebody asks for help. -/
def helpText : Text :=
  ("usage: dump_diagnostics.py [options] paths\n" : Text) ++
    Switch.spellings.flatMap fun s => ("  " : Text) ++ s.1 ++ ("\n" : Text)

/-- What a run writes to standard output and to standard error, and its exit code. -/
def Run.output (r : Run) : Text × Text × UInt32 :=
  let notes := r.notes.flatMap fun n => n.record ++ ("\n" : Text)
  match r.outcome with
  | .help => (helpText, notes, 0)
  | .usage e => ([], notes ++ e.message ++ ("\n" : Text), 2)
  | .refused refusal => ([], notes ++ refusal.message ++ ("\n" : Text), 1)
  | .failed f => ([], notes ++ f.message ++ ("\n" : Text), 1)
  | .written t => (t, notes, 0)

end ElmReport.Batch

open ElmReport

/-- A text for the terminal, with replacement characters for lone surrogates. -/
def terminalText (t : Text) : String :=
  String.ofList (t.map fun p => p.scalar?.getD Utf8.replacement)

/-- The chunks of bytes that arrive on a stream until it ends. -/
partial def readChunks (stream : IO.FS.Stream) : IO (List (List UInt8)) := do
  let chunk ← stream.read 65536
  if chunk.isEmpty then return []
  return chunk.toList :: (← readChunks stream)

/-- The program. -/
def main (words : List String) : IO UInt32 := do
  let texts := words.map Text.ofString
  let report ← match Batch.Arguments.ofTexts texts with
    | .ok (.check _) => readChunks (← IO.getStdin)
    | _ => pure []
  let (out, err, code) := ((Batch.surroundings report texts).run texts).output
  IO.print (terminalText out)
  IO.eprint (terminalText err)
  return code
