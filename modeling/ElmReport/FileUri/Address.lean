import ElmReport.Text.Basic

/-!
# Internet addresses

The texts that are an address of version 4 or 6. An address of version 4 has four numbers up to 255
without superfluous zeros. One of version 6 has eight groups of hexadecimal digits; one run of zero
groups may be left out between two colons, the last two groups may be written as an address of
version 4, and a scope may follow a percent sign.

## Main definitions

* `Address.isVersion4`, `Address.isVersion6`: whether a text is an address.
-/

namespace ElmReport.Address

/-- A number up to 255, without superfluous zeros. -/
def isOctet (t : Text) : Bool :=
  !t.isEmpty && t.length ≤ 3 && t.all CodePoint.isAsciiDigit &&
    (t.length == 1 || t.head? != some (.scalar '0')) &&
    t.foldl (fun n p => 10 * n + (p.val - 0x30)) 0 ≤ 255

/-- Whether a text is an address of version 4. -/
def isVersion4 (t : Text) : Bool :=
  let octets := Text.fields (.scalar '.') t
  octets.length == 4 && octets.all isOctet

/-- One to four hexadecimal digits. -/
def isGroup (t : Text) : Bool :=
  !t.isEmpty && t.length ≤ 4 && t.all fun p => p.hexValue?.isSome

/-- The groups on one side of the run that is left out; nothing has to stand there. -/
def sideGroups (parts : List Text) : List Text := if parts = [[]] then [] else parts

/-- Whether parts between colons are the groups of an address of version 6. A part that is empty
though it is neither the first nor the last one stands for the run that is left out. -/
def areGroups (parts : List Text) : Bool :=
  let inner := parts.tail.dropLast
  match inner.findIdx? List.isEmpty with
  | none => parts.length == 8 && parts.all isGroup
  | some i =>
    let left := sideGroups (parts.take (i + 1))
    let right := sideGroups (parts.drop (i + 2))
    left.all isGroup && right.all isGroup && left.length + right.length ≤ 7

/-- The parts with an address of version 4 at the end replaced by the two groups it stands for. -/
def expandTail (parts : List Text) : Option (List Text) :=
  match parts.getLast? with
  | some last =>
    if .scalar '.' ∈ last then
      if isVersion4 last then some (parts.dropLast ++ [("0" : Text), ("0" : Text)]) else none
    else some parts
  | none => some parts

/-- Whether a text without a scope is an address of version 6. -/
def isUnscoped6 (t : Text) : Bool :=
  let parts := Text.fields (.scalar ':') t
  3 ≤ parts.length &&
    match expandTail parts with
    | some parts => areGroups parts
    | none => false

/-- Whether a text is an address of version 6. -/
def isVersion6 (t : Text) : Bool :=
  !t.contains (.scalar '/') &&
    match Text.cut (.scalar '%') t with
    | (address, none) => isUnscoped6 address
    | (address, some scope) =>
      !scope.isEmpty && !scope.contains (.scalar '%') && isUnscoped6 address

end ElmReport.Address
