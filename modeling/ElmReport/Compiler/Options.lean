import ElmReport.Text.Basic

/-!
# How the compiler is called

The compiler is called on one file, with a report in a machine-readable form and its output thrown
away. On a platform that starts programs through a shell the command is one line, in which the file
stands between double quotes.

## Main definitions

* `CompilerOptions`: the options of a call, with their defaults.
* `CompilerOptions.forPlatform`: the options on a platform.
* `CompilerOptions.AllowsOutput`: options under which an error output can be read.
* `CompilerOptions.arguments`: the words of the command.
* `CompilerOptions.commandLine`: the command on one line.
-/

namespace ElmReport

/-- The most bytes that a line of a report may have. -/
def defaultLineLimit : Int := 16 * 1024 * 1024

/-- The options of a call. -/
structure CompilerOptions where
  executable : Text := "elm"
  report : Text := "json"
  output : Text := "/dev/null"
  useShell : Bool := false
  lineLimit : Int := defaultLineLimit
  deriving DecidableEq, Repr

namespace CompilerOptions

/-- The options on a platform: one of them starts programs through a shell. -/
def forPlatform (platform : Text) : CompilerOptions :=
  { useShell := platform = ("win32" : Text) }

/-- Options under which an error output can be read: the limit for its lines is positive. Under any
other limit no reader is made for the output, and a process that is started goes without one. -/
def AllowsOutput (o : CompilerOptions) : Prop := 0 < o.lineLimit

instance : DecidablePred AllowsOutput := fun o => inferInstanceAs (Decidable (0 < o.lineLimit))

/-- The file as the command names it, between double quotes when a shell reads it. -/
def fileWord (o : CompilerOptions) (file : Text) : Text :=
  if o.useShell then .scalar '\x22' :: (file ++ [.scalar '\x22']) else file

/-- The words of the command that checks a file. -/
def arguments (o : CompilerOptions) (file : Text) : List Text :=
  [o.executable, "make", o.fileWord file, "--report", o.report, "--output", o.output]

/-- The command that checks a file, on one line. -/
def commandLine (o : CompilerOptions) (file : Text) : Text := Text.join " " (o.arguments file)

end CompilerOptions

end ElmReport
