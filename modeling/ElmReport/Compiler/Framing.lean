import ElmReport.Text.Utf8

/-!
# Lines from chunks of bytes

The compiler's messages arrive in chunks of bytes. A buffer grows chunk by chunk until it holds a
line feed; the bytes before it are a line. What is left at the end of the chunks is a line too,
unless it is empty. A line, or an open line in the buffer, that is longer than the limit ends the
reading.

## Main definitions

* `Framing.readLine`: the next line of a buffer and the chunks after it.
* `Framing.readLines`: all lines, and whether one passes the limit.
* `Framing.lineText`: the text of a line.

## Main results

* `Framing.size_readLine_lt`: every line takes bytes away, so reading comes to an end.
-/

namespace ElmReport.Framing

/-- The byte that ends a line. -/
def lineFeed : UInt8 := 0x0A

/-- The bytes before the first line feed and those after it. -/
def cutLine? (bytes : List UInt8) : Option (List UInt8 × List UInt8) :=
  match bytes.dropWhile (· != lineFeed) with
  | [] => none
  | _ :: rest => some (bytes.takeWhile (· != lineFeed), rest)

/-- What reading a line gives: a line with the buffer and the chunks that are left, a line past the
limit, or the end. -/
inductive Reading where
  | line (bytes buffer : List UInt8) (chunks : List (List UInt8))
  | overLimit
  | atEnd

/-- The next line of a buffer and the chunks after it. -/
def readLine (limit : Int) (buffer : List UInt8) : List (List UInt8) → Reading
  | [] =>
    match cutLine? buffer with
    | some (line, rest) => if limit < line.length then .overLimit else .line line rest []
    | none =>
      if limit < buffer.length then .overLimit
      else if buffer.isEmpty then .atEnd
      else .line buffer [] []
  | chunk :: chunks =>
    match cutLine? buffer with
    | some (line, rest) =>
      if limit < line.length then .overLimit else .line line rest (chunk :: chunks)
    | none =>
      if limit < buffer.length then .overLimit
      else readLine limit (buffer ++ chunk) chunks

/-- The number of bytes in a buffer and the chunks after it. -/
def size (buffer : List UInt8) (chunks : List (List UInt8)) : Nat :=
  buffer.length + chunks.flatten.length

theorem length_lt_of_cutLine? {bytes line rest : List UInt8}
    (h : cutLine? bytes = some (line, rest)) : rest.length < bytes.length := by
  rw [cutLine?] at h
  split at h
  · cases h
  · next hd =>
    have hle := (List.dropWhile_sublist (l := bytes) (· != lineFeed)).length_le
    rw [hd] at hle
    cases h
    simp only [List.length_cons] at hle
    omega

/-- Every line takes bytes away. -/
theorem size_readLine_lt {limit : Int} {buffer line buffer' : List UInt8}
    {chunks chunks' : List (List UInt8)}
    (h : readLine limit buffer chunks = .line line buffer' chunks') :
    size buffer' chunks' < size buffer chunks := by
  induction chunks generalizing buffer with
  | nil =>
    rw [readLine] at h
    split at h
    · next hc =>
      split at h
      · cases h
      · cases h
        simpa [size] using length_lt_of_cutLine? hc
    · split at h
      · cases h
      · split at h
        · cases h
        · next hb =>
          cases h
          simpa [size, List.length_pos_iff] using hb
  | cons chunk chunks ih =>
    rw [readLine] at h
    split at h
    · next hc =>
      split at h
      · cases h
      · cases h
        have := length_lt_of_cutLine? hc
        simp only [size]
        omega
    · split at h
      · cases h
      · have := ih h
        simp only [size, List.length_append, List.flatten_cons] at this ⊢
        omega

/-- The lines of some bytes up to the first that passes the limit, if one does. -/
structure Lines where
  lines : List (List UInt8)
  overLimit : Bool
  deriving DecidableEq, Repr

/-- All lines of a buffer and the chunks after it. -/
def readLines (limit : Int) (buffer : List UInt8) (chunks : List (List UInt8)) : Lines :=
  match _h : readLine limit buffer chunks with
  | .line bytes buffer' chunks' =>
    let more := readLines limit buffer' chunks'
    { more with lines := bytes :: more.lines }
  | .overLimit => ⟨[], true⟩
  | .atEnd => ⟨[], false⟩
termination_by size buffer chunks
decreasing_by exact size_readLine_lt _h

/-- The code points that end a line. -/
def isLineEnd (p : CodePoint) : Bool := p == .scalar '\r' || p == .scalar '\n'

/-- The text of a line, read leniently and without the line ends at its end. -/
def lineText (bytes : List UInt8) : Text :=
  Text.trimEnd isLineEnd ((Utf8.decode bytes).map CodePoint.scalar)

end ElmReport.Framing
