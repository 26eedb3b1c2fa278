import ElmReport.Text.Basic

/-!
# UTF-8

Scalar values are written in one to four bytes. Bytes are read leniently: every maximal part of an
ill-formed sequence gives one replacement character. The reader is an automaton over the bytes, so
that reading never looks ahead and a line feed always brings it back to its first state.

## Main definitions

* `Utf8.encode`: the bytes of a scalar value.
* `Text.utf8`: the bytes of a text, or where its first lone surrogates stand.
* `Utf8.State`, `Utf8.step`: the automaton that reads bytes.
* `Utf8.decode`: the scalar values of bytes, read leniently.

## Main results

* `Utf8.decodeFrom_append`: reading in two parts is reading at once.
* `Utf8.decodeFrom_append_lineFeed`: a line feed is read alone, whatever stands before it.
-/

namespace ElmReport

/-! ### Writing -/

namespace Utf8

/-- The bytes of a scalar value. -/
def encode (c : Char) : List UInt8 :=
  let n := c.toNat
  if n < 0x80 then [.ofNat n]
  else if n < 0x800 then [.ofNat (0xC0 + n / 0x40), .ofNat (0x80 + n % 0x40)]
  else if n < 0x10000 then
    [.ofNat (0xE0 + n / 0x1000), .ofNat (0x80 + n / 0x40 % 0x40), .ofNat (0x80 + n % 0x40)]
  else
    [.ofNat (0xF0 + n / 0x40000), .ofNat (0x80 + n / 0x1000 % 0x40),
      .ofNat (0x80 + n / 0x40 % 0x40), .ofNat (0x80 + n % 0x40)]

theorem encode_ne_nil (c : Char) : encode c ≠ [] := by
  simp only [encode]
  split
  · simp
  · split
    · simp
    · split <;> simp

end Utf8

/-- The scalar value that a code point is. -/
def CodePoint.scalar? : CodePoint → Option Char
  | .scalar c => some c
  | .surrogate _ => none

/-- Neighbouring lone surrogates that keep a text from being written in UTF-8: the first of them,
and the positions from `start` up to but not including `stop`. -/
structure LoneSurrogates where
  first : CodePoint
  start : Nat
  stop : Nat
  deriving DecidableEq, Repr

namespace Text

/-- The scalar values of a text without lone surrogates. -/
def scalars? (t : Text) : Option (List Char) := t.mapM CodePoint.scalar?

/-- Where the first lone surrogates of a text stand. -/
def loneSurrogates (t : Text) : LoneSurrogates :=
  let before := t.takeWhile (·.scalar?.isSome)
  let run := (t.dropWhile (·.scalar?.isSome)).takeWhile (·.scalar?.isNone)
  ⟨run.headD (.surrogate 0), before.length, before.length + run.length⟩

/-- The bytes of a text, or where its first lone surrogates stand. -/
def utf8 (t : Text) : Except LoneSurrogates (List UInt8) :=
  match t.scalars? with
  | some cs => .ok (cs.flatMap Utf8.encode)
  | none => .error t.loneSurrogates

end Text

/-- What is said of a text that UTF-8 cannot write. -/
def LoneSurrogates.message (e : LoneSurrogates) : Text :=
  if e.stop = e.start + 1 then
    ("\x27utf-8\x27 codec can\x27t encode character \x27\\u" : Text) ++ Text.hex 4 e.first.val ++
      ("\x27 in position " : Text) ++ Text.ofNat e.start ++ (": surrogates not allowed" : Text)
  else
    ("\x27utf-8\x27 codec can\x27t encode characters in position " : Text) ++
      Text.ofNat e.start ++ ("-" : Text) ++ Text.ofNat (e.stop - 1) ++
      (": surrogates not allowed" : Text)

/-! ### Reading -/

namespace Utf8

/-- The reader is between sequences, or inside one: `missing` more bytes are due, the next of them
between `low` and `high`, and `value` is what the bytes so far say. -/
inductive State where
  | ground
  | inside (value missing low high : Nat)
  deriving DecidableEq, Repr

/-- The replacement character. -/
def replacement : Char := '\uFFFD'

/-- What a byte does between sequences. -/
def start (byte : UInt8) : List Char × State :=
  let b := byte.toNat
  if b < 0x80 then ([Char.ofNat b], .ground)
  else if 0xC2 ≤ b ∧ b ≤ 0xDF then ([], .inside (b - 0xC0) 1 0x80 0xBF)
  else if b = 0xE0 then ([], .inside 0 2 0xA0 0xBF)
  else if b = 0xED then ([], .inside 0xD 2 0x80 0x9F)
  else if 0xE1 ≤ b ∧ b ≤ 0xEF then ([], .inside (b - 0xE0) 2 0x80 0xBF)
  else if b = 0xF0 then ([], .inside 0 3 0x90 0xBF)
  else if 0xF1 ≤ b ∧ b ≤ 0xF3 then ([], .inside (b - 0xF0) 3 0x80 0xBF)
  else if b = 0xF4 then ([], .inside 4 3 0x80 0x8F)
  else ([replacement], .ground)

/-- What a byte does in a state. A byte that cannot go on the open sequence ends it with one
replacement character and is then read between sequences. -/
def step : State → UInt8 → List Char × State
  | .ground, byte => start byte
  | .inside value missing low high, byte =>
    if low ≤ byte.toNat ∧ byte.toNat ≤ high then
      let value' := value * 0x40 + (byte.toNat - 0x80)
      if missing ≤ 1 then ([Char.ofNat value'], .ground)
      else ([], .inside value' (missing - 1) 0x80 0xBF)
    else (replacement :: (start byte).1, (start byte).2)

/-- What the end of the bytes gives: a sequence cut off gives one replacement character. -/
def finish : State → List Char
  | .ground => []
  | .inside .. => [replacement]

/-- The scalar values of bytes that are read from a state to their end, in front of `done`, and all
of it backwards. -/
def decodeOnto (done : List Char) : State → List UInt8 → List Char
  | s, [] => (finish s).reverse ++ done
  | s, b :: bytes => decodeOnto ((step s b).1.reverse ++ done) (step s b).2 bytes

/-- The scalar values of bytes that are read from a state to their end. -/
def decodeFrom (s : State) (bytes : List UInt8) : List Char := (decodeOnto [] s bytes).reverse

/-- The scalar values of bytes, read leniently. -/
def decode (bytes : List UInt8) : List Char := decodeFrom .ground bytes

/-- The state after some bytes. -/
def stateAfter (s : State) (bytes : List UInt8) : State :=
  bytes.foldl (fun s b => (step s b).2) s

/-- The scalar values that some bytes complete. -/
def emitted (s : State) : List UInt8 → List Char
  | [] => []
  | b :: bytes => (step s b).1 ++ emitted (step s b).2 bytes

@[simp] theorem stateAfter_nil (s : State) : stateAfter s [] = s := rfl

@[simp] theorem stateAfter_cons (s : State) (b : UInt8) (bytes : List UInt8) :
    stateAfter s (b :: bytes) = stateAfter (step s b).2 bytes := rfl

theorem stateAfter_append (s : State) (a b : List UInt8) :
    stateAfter s (a ++ b) = stateAfter (stateAfter s a) b := by
  simp [stateAfter]

theorem emitted_append (s : State) (a b : List UInt8) :
    emitted s (a ++ b) = emitted s a ++ emitted (stateAfter s a) b := by
  induction a generalizing s with
  | nil => rfl
  | cons x a ih => simp [emitted, ih]

theorem decodeOnto_eq (done : List Char) (s : State) (bytes : List UInt8) :
    decodeOnto done s bytes = (emitted s bytes ++ finish (stateAfter s bytes)).reverse ++ done := by
  induction bytes generalizing done s with
  | nil => simp [decodeOnto, emitted]
  | cons b bytes ih => simp [decodeOnto, emitted, ih]

/-- What is read is what the bytes complete, then what their end gives. -/
theorem decodeFrom_eq (s : State) (bytes : List UInt8) :
    decodeFrom s bytes = emitted s bytes ++ finish (stateAfter s bytes) := by
  simp [decodeFrom, decodeOnto_eq]

/-- Reading in two parts is reading at once. -/
theorem decodeFrom_append (s : State) (a b : List UInt8) :
    decodeFrom s (a ++ b) = emitted s a ++ decodeFrom (stateAfter s a) b := by
  simp [decodeFrom_eq, emitted_append, stateAfter_append]

/-- A state in which no line feed goes on the open sequence. -/
def State.Proper : State → Prop
  | .ground => True
  | .inside _ _ low _ => 0x80 ≤ low

theorem proper_start (b : UInt8) : (start b).2.Proper := by
  simp only [start]
  repeat' split
  all_goals simp [State.Proper]

theorem proper_step {s : State} (b : UInt8) : (step s b).2.Proper := by
  cases s with
  | ground => exact proper_start b
  | inside value missing low high =>
    simp only [step]
    split
    · split <;> simp [State.Proper]
    · exact proper_start b

theorem proper_stateAfter {s : State} (hs : s.Proper) (bytes : List UInt8) :
    (stateAfter s bytes).Proper := by
  induction bytes generalizing s with
  | nil => exact hs
  | cons b bytes ih => exact ih (proper_step b)

theorem step_lineFeed {s : State} (hs : s.Proper) :
    step s 0x0A = (finish s ++ ['\n'], .ground) := by
  cases s with
  | ground => rfl
  | inside value missing low high =>
    have hlow : ¬ low ≤ 0x0A := by
      simp only [State.Proper] at hs
      omega
    have hstart : start 0x0A = (['\n'], .ground) := rfl
    simp [step, hlow, finish, hstart]

/-- A line feed is read alone, whatever stands before it. -/
theorem decodeFrom_append_lineFeed {s : State} (hs : s.Proper) (a b : List UInt8) :
    decodeFrom s (a ++ 0x0A :: b) = decodeFrom s a ++ '\n' :: decodeFrom .ground b := by
  rw [decodeFrom_append]
  simp [decodeFrom_eq, emitted, step_lineFeed (proper_stateAfter hs a)]

end Utf8

end ElmReport
