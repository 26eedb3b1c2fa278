import ElmReport.Compiler.Framing
import ElmReport.Compiler.Options
import ElmReport.LineStream

/-!
# Runs of the compiler

The compiler runs as a process of the system, and its error output is a stream of lines. The process
is waited for when the stream is left, whichever way. A stream that is left before the end of the
output is abandoned, and then the process is killed first: with its whole group where the system has
groups, otherwise alone, and with its descendants when a shell stands between. That a process is
gone already is no failure.

## Main definitions

* `Host`: what the system does with a command.
* `Host.Respects`: an error output only where the options allow one.
* `ProcessEvent`: what is done to processes.
* `Process.terminate`, `Process.wait`: killing a process and waiting for it.
* `Host.stream`: the lines of a run.
* `Host.events`: what is done in a run, by the way in which its stream is left.

## Main results

* `Process.suppress_eq`: a process that is gone already hinders nothing.
* `Host.keepsProtocol_stream`: without a compiler a run has no lines.
-/

namespace ElmReport

/-- The system's refusal to start a process: a code, words, and the file it is about. -/
structure SystemError where
  code : Int
  words : Text
  file : Option Text
  deriving DecidableEq, Repr

/-- The code by which the system says that there is no such file. -/
def SystemError.noSuchFile : Int := 2

/-- What comes of starting a process: a refusal of the system, a failure by something else, or a
process with or without an error output, which arrives in chunks. A command fails by something else
when it cannot be put into the words of the system, as one with a null character in a word. -/
inductive Launch where
  | refused (error : SystemError)
  | failed (words : Text)
  | started (output : Option (List (List UInt8)))

/-- What the system does with a command: whether it has groups of processes, what comes of starting
one, its number, its exit status, the status that is known before anyone waits, and whether it is
gone when someone kills it. -/
structure Host where
  hasGroups : Bool := true
  launch : Launch
  process : Nat
  exit : Int := 0
  knownStatus : Option Int := none
  gone : Bool := false

/-- A command as the system gets it: words, or a line for a shell. -/
inductive Command where
  | words (words : List Text)
  | line (line : Text)
  deriving DecidableEq, Repr

/-- What is done to processes: a start with a directory, a limit for lines and perhaps a group of
its own, a wait, a signal to a group, a kill, and a killer of a whole tree with the wait for it. -/
inductive ProcessEvent where
  | spawn (command : Command) (directory : Text) (lineLimit : Int) (ownGroup : Bool)
  | wait
  | killGroup (signal : Nat)
  | kill
  | killTree (process : Nat)
  | waitForKiller
  deriving DecidableEq, Repr

/-! ### Killing and waiting -/

/-- What has been done to a process, and its status when that is known. -/
structure Process where
  events : List ProcessEvent
  status : Option Int

/-- The process is gone already. -/
inductive ProcessGone where
  | gone

namespace Process

/-- The status of a process that is killed. -/
def killedStatus : Int := -9

/-- The signal that kills. -/
def killSignal : Nat := 9

/-- Does something to a process. -/
def perform (e : ProcessEvent) (p : Process) : Process := { p with events := p.events ++ [e] }

/-- Kills a process by an event; it may be gone already. -/
def attempt (host : Host) (e : ProcessEvent) (p : Process) : Except ProcessGone Unit × Process :=
  if host.gone then (.error .gone, p.perform e)
  else (.ok (), { p.perform e with status := some (p.status.getD killedStatus) })

/-- Goes on whether or not a process is gone already. -/
def suppress (r : Except ProcessGone Unit × Process) : Process := r.2

/-- Kills a process, and what a shell has started for it. -/
def terminate (host : Host) (useShell : Bool) (p : Process) : Process :=
  if host.hasGroups then suppress (attempt host (.killGroup killSignal) p)
  else
    let p := if p.status.isNone then suppress (attempt host .kill p) else p
    if useShell then (p.perform (.killTree host.process)).perform .waitForKiller else p

/-- Waits for a process. -/
def wait (host : Host) (p : Process) : Process :=
  { p.perform .wait with status := some (p.status.getD host.exit) }

/-- A process that is gone already hinders nothing: the same is done to it. -/
theorem suppress_eq (host : Host) (e : ProcessEvent) (p : Process) :
    (suppress (attempt host e p)).events = p.events ++ [e] := by
  rw [attempt]
  split <;> rfl

end Process

/-! ### Runs -/

namespace Host

/-- The command for a file as the system gets it. -/
def command (o : CompilerOptions) (file : Text) : Command :=
  if o.useShell then .line (o.commandLine file) else .words (o.arguments file)

/-- Why a compiler was not started: there is none, or the system refused for another reason. -/
def refusal (o : CompilerOptions) (file directory : Text) (e : SystemError) : Failure :=
  if e.code = SystemError.noSuchFile then
    if e.file = some directory then
      .spawnFailed (o.arguments file) (.missingDirectory directory)
    else .toolUnavailable o.executable
  else .spawnFailed (o.arguments file) (.system e.code e.words e.file)

/-- Whether a process gets an error output only where the options allow one, as on every system. -/
def Respects (host : Host) (o : CompilerOptions) : Prop :=
  ∀ chunks, host.launch = .started (some chunks) → o.AllowsOutput

/-- The start of a run. -/
def spawned (host : Host) (o : CompilerOptions) (file directory : Text) : Process :=
  ⟨[.spawn (command o file) directory o.lineLimit host.hasGroups], host.knownStatus⟩

/-- A run whose stream was left in some way. Only a stream that came to its end is not abandoned. -/
def run (host : Host) (o : CompilerOptions) (file directory : Text)
    (leaving : LineStream.Leaving) : Process :=
  let p := host.spawned o file directory
  match host.launch with
  | .started (some _) =>
    match leaving with
    | .finished => p.wait host
    | _ => (p.terminate host o.useShell).wait host
  | _ => p

/-- What is done in a run, by the way in which its stream is left. -/
def events (host : Host) (o : CompilerOptions) (file directory : Text)
    (leaving : LineStream.Leaving) : List ProcessEvent :=
  (host.run o file directory leaving).events

/-- What is noted at the end of a run. -/
def closingNotes (host : Host) (o : CompilerOptions) (file directory : Text)
    (leaving : LineStream.Leaving) : List Note :=
  match host.launch with
  | .started (some _) =>
    match leaving with
    | .finished =>
      [.exited o.executable (((host.run o file directory leaving).status).getD host.exit)]
    | _ => [.killing host.process]
  | _ => []

/-- The failure of a line that is too long, after so many lines. -/
def lineTooLong (o : CompilerOptions) (lines : Nat) : Failure :=
  .line (.malformed ⟨lines + 1, [], .overLimit o.lineLimit⟩)

/-- The lines of a run. On a host that respects the options there is an error output to read only
under a positive limit, so the limit of the last case is positive there. -/
def stream (host : Host) (o : CompilerOptions) (file directory : Text) : LineStream :=
  let opening := [Note.spawning (o.arguments file) directory]
  let closing := host.closingNotes o file directory
  match host.launch with
  | .refused e => { lines := [], failure := some (refusal o file directory e), opening, closing }
  | .failed words => { lines := [], failure := some (.foreign words), opening, closing }
  | .started none => { lines := [], failure := some .noErrorPipe, opening, closing }
  | .started (some chunks) =>
    let read := Framing.readLines o.lineLimit [] chunks
    { lines := read.lines.map Framing.lineText
      failure := if read.overLimit then some (lineTooLong o read.lines.length) else none
      opening, closing }

/-- Without a compiler a run has no lines. -/
theorem keepsProtocol_stream (host : Host) (o : CompilerOptions) (file directory : Text) :
    (host.stream o file directory).KeepsProtocol := by
  intro executable h
  rcases hlaunch : host.launch with _ | _ | (_ | chunks)
  · simp only [stream, hlaunch]
  · simp only [stream, hlaunch]
  · simp only [stream, hlaunch]
  · -- A line that is too long is the only failure after the start.
    simp only [stream, hlaunch, Option.ite_none_right_eq_some, Option.some.injEq, lineTooLong] at h
    exact nomatch h.2

end Host

end ElmReport
