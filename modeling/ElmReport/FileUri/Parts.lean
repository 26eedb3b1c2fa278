import ElmReport.FileUri.Address
import ElmReport.Text.Quoted

/-!
# The parts of a URI

A URI falls apart into its scheme, its authority and its path; a query and a fragment are dropped.
Control characters and spaces in front are dropped first, then every tab and line break. Brackets
in an authority have to hold an address of version 6 or of a later version, and an authority must
not turn into one with other delimiters when its compatibility characters are replaced.

URIs are split by a library, whose releases differ in what they ask of brackets. Meant are the
releases from 3.11.12, 3.12.9 and 3.13.2 on, and the older ones with the fixes of these put back
into them: nothing may stand beside the brackets but a port. Up to 3.11.11 an authority such as
`a[::1]b` is taken.

## Main definitions

* `UriError`: why a URI falls apart into nothing.
* `UriParts.checkBrackets`, `UriParts.checkCompatibility`: the checks of an authority.
* `UriParts.ofText`: the parts of a URI.

## Main results

* `UriParts.splitAuthority_of_no_slashes`: without two slashes the authority is empty.
-/

namespace ElmReport

/-- Why a URI is refused: it names no file, its brackets do not match, the address in brackets is
ill-formed, of a later version and ill-formed, or of version 4, or its authority hides a
delimiter. -/
inductive UriError where
  | notFile (uri : Text)
  | unmatchedBrackets
  | noAddress (host : Text)
  | badFutureAddress
  | bracketedVersion4
  | hiddenDelimiter (authority : Text)
  deriving DecidableEq, Repr

/-- The wording of an error. -/
def UriError.message : UriError → Text
  | notFile uri => ("Not a file URI: " : Text) ++ uri.quoted
  | unmatchedBrackets => "Invalid IPv6 URL"
  | noAddress host => host.quoted ++ (" does not appear to be an IPv4 or IPv6 address" : Text)
  | badFutureAddress => "IPvFuture address is invalid"
  | bracketedVersion4 => "An IPv4 address cannot be in brackets"
  | hiddenDelimiter authority =>
    ("netloc \x27" : Text) ++ authority ++
      ("\x27 contains invalid characters under NFKC normalization" : Text)

/-- A scheme, an authority and a path. -/
structure UriParts where
  scheme : Text
  authority : Text
  path : Text
  deriving DecidableEq, Repr

namespace UriParts

/-! ### Cutting a URI -/

/-- The URI without what is dropped before anything else. -/
def stripped (t : Text) : Text :=
  (t.dropWhile fun p => p.val ≤ 0x20).filter fun p =>
    p != .scalar '\t' && p != .scalar '\r' && p != .scalar '\n'

/-- The code points of a scheme. -/
def isSchemePart (p : CodePoint) : Bool :=
  p.isAsciiLetter || p.isAsciiDigit || p == .scalar '+' || p == .scalar '-' || p == .scalar '.'

/-- The scheme in small letters and what follows its colon. A text that does not open with a letter,
further scheme parts and a colon has the empty scheme. -/
def splitScheme (t : Text) : Text × Text :=
  match Text.cut (.scalar ':') t with
  | (scheme, some rest) =>
    if (scheme.head?.any CodePoint.isAsciiLetter) && scheme.all isSchemePart then
      (scheme.map CodePoint.asciiLower, rest)
    else ([], t)
  | (_, none) => ([], t)

/-- The code points that end an authority. -/
def endsAuthority (p : CodePoint) : Bool :=
  p == .scalar '/' || p == .scalar '?' || p == .scalar '#'

/-- The authority after two slashes, and the rest; otherwise the authority is empty. -/
def splitAuthority : Text → Text × Text
  | .scalar '/' :: .scalar '/' :: t =>
    (t.takeWhile fun p => !endsAuthority p, t.dropWhile fun p => !endsAuthority p)
  | t => ([], t)

/-- The text before the first number sign and before the first question mark in that. -/
def pathOf (t : Text) : Text :=
  (Text.cut (.scalar '?') (Text.cut (.scalar '#') t).1).1

/-! ### Checking an authority -/

/-- Whether a host in brackets that opens with a v is an address of a later version. -/
def isFutureAddress (host : Text) : Bool :=
  match host with
  | .scalar 'v' :: t =>
    let digits := t.takeWhile fun p => p.hexValue?.isSome
    !digits.isEmpty &&
      match t.drop digits.length with
      | .scalar '.' :: rest => !rest.isEmpty && rest.all (· != .scalar '\n')
      | _ => false
  | _ => false

/-- Checks the host between brackets. -/
def checkHost (host : Text) : Except UriError Unit :=
  if host.head? = some (.scalar 'v') then
    if isFutureAddress host then .ok () else .error .badFutureAddress
  else if Address.isVersion4 host then .error .bracketedVersion4
  else if Address.isVersion6 host then .ok ()
  else .error (.noAddress host)

/-- Checks an authority that has both brackets: after the last at sign the host has to stand between
them, with nothing before and nothing but a colon and what follows it after them. -/
def checkBracketed (authority : Text) : Except UriError Unit :=
  let host := (Text.cutLast (.scalar '@') authority).2
  match Text.cut (.scalar '[') host with
  | (before, some inside) =>
    let (address, after) := Text.cut (.scalar ']') inside
    if !before.isEmpty then .error .unmatchedBrackets
    else if (after.getD []).isEmpty || (after.getD []).head? == some (.scalar ':') then
      checkHost address
    else .error .unmatchedBrackets
  | (_, none) => checkHost (Text.cut (.scalar ':') host).1

/-- Checks the brackets of an authority. -/
def checkBrackets (authority : Text) : Except UriError Unit :=
  match authority.contains (.scalar '['), authority.contains (.scalar ']') with
  | true, true => checkBracketed authority
  | false, false => .ok ()
  | _, _ => .error .unmatchedBrackets

/-- The code points whose compatibility form holds one of the delimiters slash, question mark,
number sign, at sign and colon. -/
def hidesDelimiter (p : CodePoint) : Bool :=
  [0x2047, 0x2048, 0x2049, 0x2100, 0x2101, 0x2105, 0x2106, 0x2A74, 0xFE13, 0xFE16, 0xFE55, 0xFE56,
    0xFE5F, 0xFE6B, 0xFF03, 0xFF0F, 0xFF1A, 0xFF1F, 0xFF20].contains p.val

/-- Checks that no delimiter is hidden in an authority. -/
def checkCompatibility (authority : Text) : Except UriError Unit :=
  if authority.any hidesDelimiter then .error (.hiddenDelimiter authority) else .ok ()

/-- The parts of a URI. -/
def ofText (t : Text) : Except UriError UriParts := do
  let (scheme, rest) := splitScheme (stripped t)
  let (authority, rest) := splitAuthority rest
  checkBrackets authority
  checkCompatibility authority
  return ⟨scheme, authority, pathOf rest⟩

/-- Without two slashes the authority is empty. -/
theorem splitAuthority_of_no_slashes {t : Text}
    (h : ∀ u, t ≠ .scalar '/' :: .scalar '/' :: u) : splitAuthority t = ([], t) := by
  rw [splitAuthority]
  exact h

end UriParts

end ElmReport
