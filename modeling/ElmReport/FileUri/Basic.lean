import ElmReport.FileUri.Parts
import ElmReport.FileUri.Percent
import ElmReport.Text.Casing

/-!
# File URIs

A path becomes a URI with the scheme of files. Backslashes count as slashes. A path that opens with
two slashes names a host, which becomes the authority in small letters; every other path is rooted,
and the letter of a drive is made small. The way back takes the slash in front of a drive away.

## Main definitions

* `FilePath.normalize`: a path with slashes only.
* `FilePath.drive?`: the drive letter at the head of a path.
* `FilePath.toUri`: the URI of a path.
* `FilePath.ofUri`: the path of a URI.

## Main results

* `FilePath.drive?_slash`: a slash in front of a drive does not hide it.
* `FilePath.ofParts_of_noAuthority`: without an authority at most one slash is dropped.
-/

namespace ElmReport.FilePath

/-- A path with slashes only. -/
def normalize (path : Text) : Text := path.substitute (.scalar '\x5c') (.scalar '/')

/-- The letter of a drive at the head of a path, after at most one slash, and what follows the
colon. -/
def drive? : Text → Option (CodePoint × Text)
  | .scalar '/' :: letter :: .scalar ':' :: rest =>
    if letter.isAsciiLetter then some (letter, rest) else none
  | letter :: .scalar ':' :: rest => if letter.isAsciiLetter then some (letter, rest) else none
  | _ => none

/-- A slash in front of a drive does not hide it. -/
theorem drive?_slash {letter : CodePoint} (h : letter.isAsciiLetter = true) (rest : Text) :
    drive? (.scalar '/' :: letter :: .scalar ':' :: rest) = some (letter, rest) := by
  rw [drive?, if_pos h]

/-- A path with a slash in front. -/
def rooted (path : Text) : Text :=
  match path with
  | .scalar '/' :: _ => path
  | _ => .scalar '/' :: path

/-- A rooted path with a small drive letter. -/
def lowerDrive (path : Text) : Text :=
  match drive? path with
  | some (letter, rest) => .scalar '/' :: letter.asciiLower :: .scalar ':' :: rest
  | none => path

/-- The URI of a path with slashes only, given its host if it has one and the rest. -/
def uriOfNormal : Text → Except LoneSurrogates Text
  | .scalar '/' :: .scalar '/' :: t => do
    let (host, rest) := Text.cut (.scalar '/') t
    let host ← Percent.encode host.lower
    let rest ← Percent.encode (rest.getD [])
    return ("file://" : Text) ++ host ++ (.scalar '/' :: rest)
  | t => do return ("file://" : Text) ++ (← Percent.encode (lowerDrive (rooted t)))

/-- The URI of a path, or where the first lone surrogates of what is encoded stand. -/
def toUri (path : Text) : Except LoneSurrogates Text := uriOfNormal (normalize path)

/-- The path that an authority and a decoded path of a URI stand for. -/
def ofParts (authority path : Text) : Text :=
  if !authority.isEmpty then ("//" : Text) ++ authority ++ path
  else if (drive? path).isSome then path.drop 1
  else path

/-- The path of a URI. -/
def ofUri (uri : Text) : Except UriError Text := do
  let parts ← UriParts.ofText uri
  if parts.scheme = ("file" : Text) then return ofParts parts.authority (Percent.decode parts.path)
  else throw (.notFile uri)

/-- Without an authority at most one code point at the head of the path is dropped. -/
theorem ofParts_of_noAuthority (path : Text) :
    ofParts [] path = path ∨ ofParts [] path = path.drop 1 := by
  simp only [ofParts, List.isEmpty_nil, Bool.not_true, Bool.false_eq_true, if_false]
  split
  · exact .inr rfl
  · exact .inl rfl

end ElmReport.FilePath
