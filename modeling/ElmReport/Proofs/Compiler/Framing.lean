import ElmReport.Compiler.Process
import Mathlib.Data.List.TakeWhile

/-!
# Lines do not depend on chunks

The lines that are read from a buffer and the chunks after it are the pieces of all their bytes
between line feeds, up to the first piece that passes the limit. How the bytes are cut into chunks
does not matter: an open line is found too long as soon as the buffer is, but then its piece is too
long as well, wherever that ends.

## Main definitions

* `Framing.pieces`: the pieces of some bytes between line feeds.
* `Framing.Reading.Reads`: what reading a line says about the pieces.

## Main results

* `Framing.reads_readLine`: a line that is read is the first piece.
* `Framing.readLines_eq`: the lines are the pieces up to the first that passes the limit.
* `Host.stream_pieces`: the lines of a run, and its failure.
-/

namespace ElmReport

namespace Framing

/-! ### Pieces -/

/-- The pieces of some bytes between line feeds. An empty piece at the end is left out. -/
def pieces (bytes : List UInt8) : List (List UInt8) :=
  let all := bytes.splitOn lineFeed
  if all.getLast? = some [] then all.dropLast else all

@[simp] theorem pieces_nil : pieces [] = [] := rfl

/-- The bytes before the first line feed are the first piece. -/
theorem pieces_append_lineFeed {line : List UInt8} (h : lineFeed ∉ line) (rest : List UInt8) :
    pieces (line ++ lineFeed :: rest) = line :: pieces rest := by
  have hne := List.splitOn_ne_nil lineFeed rest
  simp only [pieces, List.splitOn_append_cons_self_of_not_mem h]
  rw [List.getLast?_cons_of_ne_nil hne, List.dropLast_cons_of_ne_nil hne]
  split <;> rfl

/-- Bytes without a line feed are one piece. -/
theorem pieces_of_not_mem {bytes : List UInt8} (h : lineFeed ∉ bytes) (hne : bytes ≠ []) :
    pieces bytes = [bytes] := by
  simp [pieces, List.splitOn_eq_singleton h, hne]

/-- Bytes without a line feed open the first piece, whatever follows. -/
theorem exists_pieces_append {bytes : List UInt8} (h : lineFeed ∉ bytes) (hne : bytes ≠ [])
    (more : List UInt8) : ∃ p rest, pieces (bytes ++ more) = (bytes ++ p) :: rest := by
  by_cases hmem : lineFeed ∈ more
  · obtain ⟨p, rest, rfl, hp⟩ := List.eq_append_cons_of_mem hmem
    have hline : lineFeed ∉ bytes ++ p := List.mem_append.not.2 (not_or.2 ⟨h, hp⟩)
    refine ⟨p, pieces rest, ?_⟩
    rw [← List.append_assoc, pieces_append_lineFeed hline]
  · have hall : lineFeed ∉ bytes ++ more := List.mem_append.not.2 (not_or.2 ⟨h, hmem⟩)
    exact ⟨more, [], pieces_of_not_mem hall (List.append_ne_nil_of_left_ne_nil hne more)⟩

/-! ### One line -/

theorem cutLine?_eq_some {bytes line rest : List UInt8} (h : cutLine? bytes = some (line, rest)) :
    lineFeed ∉ line ∧ bytes = line ++ lineFeed :: rest := by
  rw [cutLine?] at h
  split at h
  · cases h
  · next b rest' hdrop =>
    cases h
    have hhead := List.head?_dropWhile_not (· != lineFeed) bytes
    rw [hdrop] at hhead
    obtain rfl : b = lineFeed := by simpa using hhead
    refine ⟨fun hmem => ?_, ?_⟩
    · simpa using List.mem_takeWhile_imp hmem
    · rw [← hdrop, List.takeWhile_append_dropWhile]

theorem cutLine?_eq_none {bytes : List UInt8} (h : cutLine? bytes = none) : lineFeed ∉ bytes := by
  rw [cutLine?] at h
  split at h
  · next hdrop =>
    intro hmem
    simpa using List.dropWhile_eq_nil_iff.1 hdrop lineFeed hmem
  · cases h

/-- What reading a line says about the pieces of the bytes that it reads from. -/
def Reading.Reads (limit : Int) (bytes : List UInt8) : Reading → Prop
  | .line p buffer chunks =>
    p.length ≤ limit ∧ pieces bytes = p :: pieces (buffer ++ chunks.flatten)
  | .overLimit => ∃ p rest, limit < p.length ∧ pieces bytes = p :: rest
  | .atEnd => pieces bytes = []

/-- A buffer that holds a line feed decides the next line. -/
theorem reads_of_cutLine? {limit : Int} {buffer line rest : List UInt8}
    (h : cutLine? buffer = some (line, rest)) (chunks : List (List UInt8)) :
    (if limit < line.length then Reading.overLimit else .line line rest chunks).Reads limit
      (buffer ++ chunks.flatten) := by
  obtain ⟨hline, rfl⟩ := cutLine?_eq_some h
  have hpieces : pieces (line ++ lineFeed :: rest ++ chunks.flatten) =
      line :: pieces (rest ++ chunks.flatten) := by
    rw [List.append_assoc, List.cons_append, pieces_append_lineFeed hline]
  split
  · next hlong => exact ⟨line, _, hlong, hpieces⟩
  · next hshort => exact ⟨Int.not_lt.1 hshort, hpieces⟩

/-- A buffer that is too long without a line feed makes the first piece too long. -/
theorem reads_overLimit {limit : Int} {buffer : List UInt8} (hlimit : 0 ≤ limit)
    (h : lineFeed ∉ buffer) (hlong : limit < buffer.length) (more : List UInt8) :
    Reading.overLimit.Reads limit (buffer ++ more) := by
  have hne : buffer ≠ [] := by
    rintro rfl
    exact absurd hlong (Int.not_lt.2 hlimit)
  obtain ⟨p, rest, hpieces⟩ := exists_pieces_append h hne more
  refine ⟨buffer ++ p, rest, ?_, hpieces⟩
  rw [List.length_append]
  omega

/-- **A line that is read is the first piece**, and reading fails or ends only where the first piece
is too long or missing. -/
theorem reads_readLine {limit : Int} (hlimit : 0 ≤ limit) (buffer : List UInt8)
    (chunks : List (List UInt8)) :
    (readLine limit buffer chunks).Reads limit (buffer ++ chunks.flatten) := by
  -- The buffer grows by a chunk at each step, so the bytes as a whole stay the same.
  induction chunks generalizing buffer with
  | nil =>
    rw [readLine]
    split
    · next h => exact reads_of_cutLine? h []
    · next h =>
      have hmem := cutLine?_eq_none h
      split_ifs with hlong hempty
      · exact reads_overLimit hlimit hmem hlong _
      · obtain rfl := List.isEmpty_iff.1 hempty
        exact pieces_nil
      · have hne : buffer ≠ [] := fun hnil => hempty (List.isEmpty_iff.2 hnil)
        refine ⟨Int.not_lt.1 hlong, ?_⟩
        rw [List.flatten_nil, List.append_nil, pieces_of_not_mem hmem hne]
        rfl
  | cons chunk chunks ih =>
    rw [readLine]
    split
    · next h => exact reads_of_cutLine? h (chunk :: chunks)
    · next h =>
      split_ifs with hlong
      · exact reads_overLimit hlimit (cutLine?_eq_none h) hlong _
      · have hmore := ih (buffer ++ chunk)
        rwa [List.append_assoc, ← List.flatten_cons] at hmore

/-! ### All lines -/

theorem readLines_of_line {limit : Int} {buffer p buffer' : List UInt8}
    {chunks chunks' : List (List UInt8)}
    (h : readLine limit buffer chunks = .line p buffer' chunks') :
    readLines limit buffer chunks =
      ⟨p :: (readLines limit buffer' chunks').lines,
        (readLines limit buffer' chunks').overLimit⟩ := by
  rw [readLines]
  split
  · next h' =>
    cases h.symm.trans h'
    rfl
  · next h' => cases h.symm.trans h'
  · next h' => cases h.symm.trans h'

theorem readLines_of_overLimit {limit : Int} {buffer : List UInt8} {chunks : List (List UInt8)}
    (h : readLine limit buffer chunks = .overLimit) :
    readLines limit buffer chunks = ⟨[], true⟩ := by
  rw [readLines]
  split
  · next h' => cases h.symm.trans h'
  · rfl
  · next h' => cases h.symm.trans h'

theorem readLines_of_atEnd {limit : Int} {buffer : List UInt8} {chunks : List (List UInt8)}
    (h : readLine limit buffer chunks = .atEnd) : readLines limit buffer chunks = ⟨[], false⟩ := by
  rw [readLines]
  split
  · next h' => cases h.symm.trans h'
  · next h' => cases h.symm.trans h'
  · rfl

/-- **The lines are the pieces up to the first that passes the limit**, however the bytes arrive. -/
theorem readLines_eq {limit : Int} (hlimit : 0 ≤ limit) (buffer : List UInt8)
    (chunks : List (List UInt8)) : readLines limit buffer chunks =
      ⟨(pieces (buffer ++ chunks.flatten)).takeWhile fun p => p.length ≤ limit,
        (pieces (buffer ++ chunks.flatten)).any fun p => limit < p.length⟩ := by
  fun_induction readLines limit buffer chunks with
  | case1 buffer chunks p buffer' chunks' h more ih =>
    have hreads := reads_readLine hlimit buffer chunks
    rw [h] at hreads
    obtain ⟨hshort, hpieces⟩ := hreads
    have hnot : ¬ limit < p.length := Int.not_lt.2 hshort
    simp only [more, ih, hpieces, List.takeWhile_cons, List.any_cons, hshort, hnot, decide_true,
      decide_false, if_true, Bool.false_or]
  | case2 buffer chunks h =>
    have hreads := reads_readLine hlimit buffer chunks
    rw [h] at hreads
    obtain ⟨p, rest, hlong, hpieces⟩ := hreads
    simp [hpieces, hlong]
  | case3 buffer chunks h =>
    have hreads := reads_readLine hlimit buffer chunks
    rw [h] at hreads
    have hpieces : pieces (buffer ++ chunks.flatten) = [] := hreads
    simp [hpieces]

end Framing

namespace Host

open Framing

/-- The lines of a run and its failure, by the bytes of its error output as a whole. -/
theorem stream_of_started {host : Host} {o : CompilerOptions} {chunks : List (List UInt8)}
    (hlimit : 0 ≤ o.lineLimit) (hlaunch : host.launch = .started (some chunks))
    (file directory : Text) :
    let read := (pieces chunks.flatten).takeWhile fun p => p.length ≤ o.lineLimit
    (host.stream o file directory).lines = read.map lineText ∧
      (host.stream o file directory).failure =
        if (pieces chunks.flatten).any fun p => o.lineLimit < p.length then
          some (lineTooLong o read.length)
        else none := by
  simp only [stream, hlaunch, readLines_eq hlimit, List.nil_append, and_self]

/-- Without a piece that is too long a run gives one line for each piece, and does not fail. -/
theorem stream_of_short {host : Host} {o : CompilerOptions} {chunks : List (List UInt8)}
    (hlimit : 0 ≤ o.lineLimit) (hlaunch : host.launch = .started (some chunks))
    (hshort : ∀ p ∈ pieces chunks.flatten, p.length ≤ o.lineLimit) (file directory : Text) :
    (host.stream o file directory).lines = (pieces chunks.flatten).map lineText ∧
      (host.stream o file directory).failure = none := by
  obtain ⟨hlines, hfailure⟩ := stream_of_started hlimit hlaunch file directory
  have hall : (pieces chunks.flatten).any (fun p => o.lineLimit < p.length) = false := by
    simpa using hshort
  have hread : (pieces chunks.flatten).takeWhile (fun p => p.length ≤ o.lineLimit) =
      pieces chunks.flatten := List.takeWhile_eq_self_iff.2 (by simpa using hshort)
  rw [hlines, hfailure, hread, hall]
  exact ⟨rfl, rfl⟩

/-- **Lines do not depend on chunks.** A run whose error output has no piece that is longer than the
limit gives one line for each piece, in order, and then ends. Otherwise it gives one for each piece
before the first that is too long, and then fails by an empty line with the number of that piece.
Runs whose error output has the same bytes in other chunks give the same lines and the same
failure. -/
theorem stream_pieces {host : Host} {o : CompilerOptions} {chunks : List (List UInt8)}
    (hlimit : o.AllowsOutput) (hlaunch : host.launch = .started (some chunks))
    (file directory : Text) :
    ((∀ p ∈ pieces chunks.flatten, p.length ≤ o.lineLimit) →
      (host.stream o file directory).lines = (pieces chunks.flatten).map lineText ∧
        (host.stream o file directory).failure = none) ∧
    (∀ before p after, pieces chunks.flatten = before ++ p :: after →
      (∀ q ∈ before, q.length ≤ o.lineLimit) → o.lineLimit < p.length →
      (host.stream o file directory).lines = before.map lineText ∧
        (host.stream o file directory).failure =
          some (.line (.malformed ⟨before.length + 1, [], .overLimit o.lineLimit⟩))) ∧
    ∀ (other : Host) (chunks' : List (List UInt8)), other.launch = .started (some chunks') →
      chunks'.flatten = chunks.flatten →
      (other.stream o file directory).lines = (host.stream o file directory).lines ∧
        (other.stream o file directory).failure = (host.stream o file directory).failure := by
  obtain ⟨hlines, hfailure⟩ := stream_of_started (Int.le_of_lt hlimit) hlaunch file directory
  refine ⟨fun hshort => stream_of_short (Int.le_of_lt hlimit) hlaunch hshort file directory,
    fun before p after hpieces hbefore hlong => ?_, fun other chunks' hother hbytes => ?_⟩
  · have hany : (pieces chunks.flatten).any (fun p => o.lineLimit < p.length) = true := by
      simp [hpieces, hlong]
    have hread : (pieces chunks.flatten).takeWhile (fun p => p.length ≤ o.lineLimit) =
        before := by
      rw [hpieces, List.takeWhile_append_of_pos (by simpa using hbefore)]
      simp [hlong]
    rw [hlines, hfailure, hread, hany]
    exact ⟨rfl, rfl⟩
  · obtain ⟨hlines', hfailure'⟩ := stream_of_started (Int.le_of_lt hlimit) hother file directory
    rw [hlines, hfailure, hlines', hfailure', hbytes]
    exact ⟨rfl, rfl⟩

/-- A line that is cut into two chunks, and one that is too long. -/
theorem stream_pieces_tooLong :
    let host : Host :=
      { launch := .started (some [[0x61], [0x62, 0x0A, 0x63], [0x64, 0x65, 0x0A]]), process := 1 }
    (host.stream { lineLimit := 2 } "A.elm" "/w").lines = [("ab" : Text)] ∧
      (host.stream { lineLimit := 2 } "A.elm" "/w").failure =
        some (.line (.malformed ⟨2, [], .overLimit 2⟩)) := by
  intro host
  have hlaunch : host.launch = .started (some [[0x61], [0x62, 0x0A, 0x63], [0x64, 0x65, 0x0A]]) :=
    rfl
  exact (stream_pieces (o := { lineLimit := 2 }) (by decide) hlaunch "A.elm" "/w").2.1
    [[0x61, 0x62]] [0x63, 0x64, 0x65] [] rfl (by decide) (by decide)

end Host

end ElmReport
