import ElmReport.FileUri.Parts
import ElmReport.Report.Line
import ElmReport.Text.Utf8

/-!
# Failures

Everything that a check can fail with, each cause with its wording. Whoever hands out lines, takes
groups or starts a process may also fail by something that is known here by its words only.

## Main definitions

* `SpawnReason`: why a compiler was not started.
* `Failure`: why a check or its publication failed.
* `Failure.message`: the wording of a failure.
-/

namespace ElmReport

/-- Why a compiler that is there was not started: its directory is missing, the system refused with
a code, its words and perhaps a file, or whoever started it gives the reason in words. -/
inductive SpawnReason where
  | missingDirectory (directory : Text)
  | system (code : Int) (words : Text) (file : Option Text)
  | stated (words : Text)
  deriving DecidableEq, Repr

/-- The wording of a reason. -/
def SpawnReason.message : SpawnReason → Text
  | missingDirectory directory =>
    ("working directory does not exist: " : Text) ++ directory
  | system code words file =>
    ("[Errno " : Text) ++ Text.ofInt code ++ ("] " : Text) ++ words ++
      (match file with
        | some f => (": " : Text) ++ f.quoted
        | none => [])
  | stated words => words

/-- Why a check, its publication, the finding of its files or the writing of its results failed.
The last of the causes is a failure of somebody else's, with its words. -/
inductive Failure where
  | line (error : LineError)
  | toolUnavailable (executable : Text)
  | spawnFailed (command : List Text) (reason : SpawnReason)
  | unnamedCommand
  | noErrorPipe
  | uri (error : UriError)
  | loneSurrogates (error : LoneSurrogates)
  | noPublisher
  | publisherFull
  | linkLoop (path : Text)
  | nameTooLong (path : Text)
  | nullCharacter
  | longInteger (limit : Nat)
  | indentTooWide
  | noIndent
  | noRoot
  | foreign (words : Text)

namespace Failure

/-- The wording of a failure. -/
def message : Failure → Text
  | line error => error.message
  | toolUnavailable executable =>
    ("Compiler executable not found: " : Text) ++ executable.quoted
  | spawnFailed command reason =>
    ("Failed to launch " : Text) ++ (Text.join " " command).quoted ++ (": " : Text) ++
      reason.message
  | unnamedCommand => "sequence item 0: expected str instance, list found"
  | noErrorPipe => "Compiler process was started without a stderr pipe"
  | uri error => error.message
  | loneSurrogates error => error.message
  | noPublisher => "on_did_save requires a publisher"
  | publisherFull => "publisher is full"
  | linkLoop path => ("Symlink loop from " : Text) ++ path.quoted
  | nameTooLong path => ("[Errno 36] File name too long: " : Text) ++ path.quoted
  | nullCharacter => "embedded null byte"
  | indentTooWide => "cannot fit \x27int\x27 into an index-sized integer"
  | noIndent => "can\x27t multiply sequence by non-int of type \x27list\x27"
  | noRoot => "\x27list\x27 object has no attribute \x27resolve\x27"
  | longInteger limit =>
    ("Exceeds the limit (" : Text) ++ Text.ofNat limit ++
      (" digits) for integer string conversion; " : Text) ++
      ("use sys.set_int_max_str_digits() to increase the limit" : Text)
  | foreign words => words

/-- Whether a failure says that there is no compiler. -/
def isToolUnavailable : Failure → Bool
  | toolUnavailable _ => true
  | _ => false

end Failure

end ElmReport
