import ElmReport.Proofs.Compiler.Framing

/-!
# Lines of the whole text

The error output of a run is cut into lines first, and each line is read as text on its own. The
same lines come of reading all bytes as one text and cutting this text at its line feeds: a line
feed ends every open sequence, no sequence stands for a line feed but the byte itself, and no bytes
are read as nothing. So no character is lost where two lines or two chunks meet.

## Main definitions

* `Utf8.State.PastAscii`: the states whose open sequence cannot end as an ASCII value.
* `Framing.textOf`: the text of some bytes.
* `Text.lines`: the lines of a text.

## Main results

* `Utf8.lineFeed_not_mem_decode`: only the byte of a line feed is read as one.
* `Framing.lines_textOf`: the lines of a text, by the pieces of its bytes.
* `Host.lines_stream_eq_lines`: the lines of a run are those of its error output as a whole.
-/

namespace ElmReport

namespace Utf8

/-! ### Line feeds in decoded bytes -/

/-- A state whose open sequence stands for a value above ASCII, however it goes on. The least byte
that goes on the sequence leaves at least 2 if a byte has to follow. -/
def State.PastAscii : State → Prop
  | .ground => True
  | .inside value missing low _ =>
    2 ≤ value * 0x40 + (low - 0x80) ∧ (missing ≤ 1 → 0x80 ≤ value * 0x40 + (low - 0x80))

/-- A byte between sequences is read alone, as itself or as the replacement character, or opens a
sequence. -/
theorem start_cases (b : UInt8) :
    start b = ([Char.ofNat b.toNat], .ground) ∨ start b = ([replacement], .ground) ∨
      ∃ s, start b = ([], s) ∧ s ≠ .ground ∧ s.PastAscii := by
  have hopens {value missing low high : Nat}
      (h : (State.inside value missing low high).PastAscii) :
      ∃ s, (([], .inside value missing low high) : List Char × State) = ([], s) ∧
        s ≠ .ground ∧ s.PastAscii := ⟨_, rfl, nofun, h⟩
  generalize hstart : start b = r
  simp only [start] at hstart
  split_ifs at hstart <;> subst hstart
  · exact .inl rfl
  · exact .inr (.inr (hopens ⟨by omega, by omega⟩))
  · exact .inr (.inr (hopens ⟨by omega, by omega⟩))
  · exact .inr (.inr (hopens ⟨by omega, by omega⟩))
  · exact .inr (.inr (hopens ⟨by omega, by omega⟩))
  · exact .inr (.inr (hopens ⟨by omega, by omega⟩))
  · exact .inr (.inr (hopens ⟨by omega, by omega⟩))
  · exact .inr (.inr (hopens ⟨by omega, by omega⟩))
  · exact .inr (.inl rfl)

/-- A byte inside a sequence completes it, goes on with it, or ends it with the replacement
character and is then read between sequences. -/
theorem step_inside_cases (value missing low high : Nat) (b : UInt8) :
    (low ≤ b.toNat ∧ missing ≤ 1 ∧ step (.inside value missing low high) b =
      ([Char.ofNat (value * 0x40 + (b.toNat - 0x80))], .ground)) ∨
    (low ≤ b.toNat ∧ step (.inside value missing low high) b =
      ([], .inside (value * 0x40 + (b.toNat - 0x80)) (missing - 1) 0x80 0xBF)) ∨
    step (.inside value missing low high) b = (replacement :: (start b).1, (start b).2) := by
  simp only [step]
  split_ifs with hrange hmissing
  · exact .inl ⟨hrange.1, hmissing, rfl⟩
  · exact .inr (.inl ⟨hrange.1, rfl⟩)
  · exact .inr (.inr rfl)

theorem pastAscii_start (b : UInt8) : (start b).2.PastAscii := by
  obtain h | h | ⟨s, h, -, hs⟩ := start_cases b <;> rw [h]
  · trivial
  · trivial
  · exact hs

theorem pastAscii_step {s : State} (hs : s.PastAscii) (b : UInt8) : (step s b).2.PastAscii := by
  cases s with
  | ground => exact pastAscii_start b
  | inside value missing low high =>
    obtain ⟨hvalue, -⟩ := hs
    obtain ⟨-, -, h⟩ | ⟨hlow, h⟩ | h := step_inside_cases value missing low high b <;> rw [h]
    · trivial
    · exact ⟨by omega, by omega⟩
    · exact pastAscii_start b

theorem eq_of_ofNat_eq_lineFeed {n : Nat} (h : Char.ofNat n = '\n') : n = 0x0A := by
  by_cases hvalid : n.isValidChar
  · rw [Char.ofNat, dif_pos hvalid] at h
    exact congrArg Char.toNat h
  · rw [Char.ofNat, dif_neg hvalid] at h
    exact absurd h (by decide)

theorem eq_of_lineFeed_mem_start {b : UInt8} (h : '\n' ∈ (start b).1) : b = 0x0A := by
  obtain hstart | hstart | ⟨s, hstart, -⟩ := start_cases b <;> rw [hstart] at h
  · have hval := eq_of_ofNat_eq_lineFeed (List.mem_singleton.1 h).symm
    exact UInt8.toNat_inj.1 hval
  · exact absurd h (by decide)
  · cases h

/-- A step gives a line feed only when it reads the byte of one. -/
theorem eq_of_lineFeed_mem_step {s : State} (hs : s.PastAscii) {b : UInt8}
    (h : '\n' ∈ (step s b).1) : b = 0x0A := by
  cases s with
  | ground => exact eq_of_lineFeed_mem_start h
  | inside value missing low high =>
    obtain ⟨-, hlast⟩ := hs
    obtain ⟨hlow, hmissing, hstep⟩ | ⟨-, hstep⟩ | hstep :=
      step_inside_cases value missing low high b <;> rw [hstep] at h
    · have hval := eq_of_ofNat_eq_lineFeed (List.mem_singleton.1 h).symm
      have hlarge := hlast hmissing
      omega
    · cases h
    · rcases List.mem_cons.1 h with h | h
      · exact absurd h (by decide)
      · exact eq_of_lineFeed_mem_start h

theorem lineFeed_mem_of_mem_emitted {s : State} (hs : s.PastAscii) {bytes : List UInt8}
    (h : '\n' ∈ emitted s bytes) : 0x0A ∈ bytes := by
  induction bytes generalizing s with
  | nil => cases h
  | cons b bytes ih =>
    rcases List.mem_append.1 h with h | h
    · exact List.mem_cons.2 (.inl (eq_of_lineFeed_mem_step hs h).symm)
    · exact List.mem_cons_of_mem b (ih (pastAscii_step hs b) h)

theorem lineFeed_not_mem_finish (s : State) : '\n' ∉ finish s := by
  cases s <;> simp [finish, replacement]

/-- Only the byte of a line feed is read as one. -/
theorem lineFeed_not_mem_decode {bytes : List UInt8} (h : 0x0A ∉ bytes) : '\n' ∉ decode bytes := by
  rw [decode, decodeFrom_eq, List.mem_append, not_or]
  exact ⟨mt (lineFeed_mem_of_mem_emitted (s := .ground) trivial) h, lineFeed_not_mem_finish _⟩

/-! ### Nothing is read as nothing -/

/-- A step that gives nothing leaves a sequence open. -/
theorem step_ne_ground {s : State} {b : UInt8} (h : (step s b).1 = []) :
    (step s b).2 ≠ .ground := by
  cases s with
  | ground =>
    change (start b).1 = [] at h
    change (start b).2 ≠ .ground
    obtain hstart | hstart | ⟨s, hstart, hopen, -⟩ := start_cases b <;> rw [hstart] at h ⊢
    · cases h
    · cases h
    · exact hopen
  | inside value missing low high =>
    obtain ⟨-, -, hstep⟩ | ⟨-, hstep⟩ | hstep :=
      step_inside_cases value missing low high b <;> rw [hstep] at h ⊢
    · cases h
    · exact nofun
    · cases h

theorem decodeFrom_cons (s : State) (b : UInt8) (bytes : List UInt8) :
    decodeFrom s (b :: bytes) = (step s b).1 ++ decodeFrom (step s b).2 bytes := by
  simp only [decodeFrom_eq, emitted, stateAfter_cons, List.append_assoc]

theorem decodeFrom_ne_nil {s : State} (h : s ≠ .ground) (bytes : List UInt8) :
    decodeFrom s bytes ≠ [] := by
  induction bytes generalizing s with
  | nil =>
    cases s with
    | ground => exact absurd rfl h
    | inside => simp [decodeFrom_eq, emitted, finish]
  | cons b bytes ih =>
    rw [decodeFrom_cons]
    intro hnil
    obtain ⟨hstep, hrest⟩ := List.append_eq_nil_iff.1 hnil
    exact ih (step_ne_ground hstep) hrest

/-- Bytes are read as nothing only if there are none. -/
theorem decode_eq_nil_iff {bytes : List UInt8} : decode bytes = [] ↔ bytes = [] := by
  refine ⟨fun h => ?_, fun h => h ▸ rfl⟩
  cases bytes with
  | nil => rfl
  | cons b bytes =>
    rw [decode, decodeFrom_cons] at h
    obtain ⟨hstep, hrest⟩ := List.append_eq_nil_iff.1 h
    exact absurd hrest (decodeFrom_ne_nil (step_ne_ground hstep) bytes)

end Utf8

namespace Text

/-! ### Lines of a text -/

/-- The pieces of a text between line feeds, without an empty piece at the end and without the
carriage returns at the end of each. -/
def lines (t : Text) : List Text :=
  let all := t.splitOn (.scalar '\n')
  (if all.getLast? = some [] then all.dropLast else all).map (trimEnd (· == .scalar '\r'))

theorem trimEnd_congr {f g : CodePoint → Bool} {t : Text} (h : ∀ p ∈ t, f p = g p) :
    trimEnd f t = trimEnd g t := by
  have hdrop (u : Text) (hu : ∀ p ∈ u, f p = g p) : u.dropWhile f = u.dropWhile g := by
    induction u with
    | nil => rfl
    | cons p u ih =>
      obtain ⟨hp, hu⟩ := List.forall_mem_cons.1 hu
      rw [List.dropWhile_cons, List.dropWhile_cons, hp, ih hu]
  rw [trimEnd, trimEnd, hdrop t.reverse fun p hp => h p (List.mem_reverse.1 hp)]

end Text

namespace Framing

/-- The text of some bytes, read leniently. -/
def textOf (bytes : List UInt8) : Text := (Utf8.decode bytes).map CodePoint.scalar

theorem textOf_append_lineFeed (a b : List UInt8) :
    textOf (a ++ lineFeed :: b) = textOf a ++ .scalar '\n' :: textOf b := by
  have hdecode : Utf8.decode (a ++ lineFeed :: b) = Utf8.decode a ++ '\n' :: Utf8.decode b :=
    Utf8.decodeFrom_append_lineFeed (s := .ground) trivial a b
  rw [textOf, hdecode, List.map_append, List.map_cons, textOf, textOf]

theorem lineFeed_not_mem_textOf {bytes : List UInt8} (h : lineFeed ∉ bytes) :
    .scalar '\n' ∉ textOf bytes := by
  intro hmem
  obtain ⟨c, hc, hscalar⟩ := List.mem_map.1 hmem
  obtain rfl := CodePoint.scalar.inj hscalar
  exact Utf8.lineFeed_not_mem_decode h hc

theorem textOf_eq_nil_iff {bytes : List UInt8} : textOf bytes = [] ↔ bytes = [] := by
  rw [textOf, List.map_eq_nil_iff, Utf8.decode_eq_nil_iff]

/-- A line without its ends is the text of its bytes without carriage returns at the end. -/
theorem lineText_eq {bytes : List UInt8} (h : lineFeed ∉ bytes) :
    lineText bytes = Text.trimEnd (· == .scalar '\r') (textOf bytes) := by
  refine Text.trimEnd_congr fun p hp => ?_
  have hne : p ≠ .scalar '\n' := by
    rintro rfl
    exact lineFeed_not_mem_textOf h hp
  simp [isLineEnd, hne]

/-! ### Lines of decoded bytes -/

/-- No line feed stands in a piece between line feeds. -/
theorem lineFeed_not_mem_of_mem_splitOn (bytes : List UInt8) :
    ∀ p ∈ bytes.splitOn lineFeed, lineFeed ∉ p := by
  by_cases h : lineFeed ∈ bytes
  · obtain ⟨line, rest, rfl, hline⟩ := List.eq_append_cons_of_mem h
    rw [List.splitOn_append_cons_self_of_not_mem hline]
    exact List.forall_mem_cons.2 ⟨hline, lineFeed_not_mem_of_mem_splitOn rest⟩
  · rw [List.splitOn_eq_singleton h]
    exact List.forall_mem_singleton.2 h
termination_by bytes.length

/-- Cutting a text at its line feeds is cutting its bytes at theirs. -/
theorem splitOn_textOf (bytes : List UInt8) :
    (textOf bytes).splitOn (.scalar '\n') = (bytes.splitOn lineFeed).map textOf := by
  by_cases h : lineFeed ∈ bytes
  · obtain ⟨line, rest, rfl, hline⟩ := List.eq_append_cons_of_mem h
    rw [textOf_append_lineFeed, List.splitOn_append_cons_self_of_not_mem hline,
      List.splitOn_append_cons_self_of_not_mem (lineFeed_not_mem_textOf hline),
      splitOn_textOf rest, List.map_cons]
  · rw [List.splitOn_eq_singleton h, List.splitOn_eq_singleton (lineFeed_not_mem_textOf h),
      List.map_singleton]
termination_by bytes.length

theorem lineFeed_not_mem_of_mem_pieces {bytes p : List UInt8} (h : p ∈ pieces bytes) :
    lineFeed ∉ p := by
  refine lineFeed_not_mem_of_mem_splitOn bytes p ?_
  simp only [pieces] at h
  split_ifs at h
  · exact (List.dropLast_sublist _).subset h
  · exact h

/-- **The lines of a text** are the lines of its bytes, each read on its own. -/
theorem lines_textOf (bytes : List UInt8) :
    Text.lines (textOf bytes) = (pieces bytes).map lineText := by
  have hlast : ((bytes.splitOn lineFeed).map textOf).getLast? = some [] ↔
      (bytes.splitOn lineFeed).getLast? = some [] := by
    simp [List.getLast?_map, textOf_eq_nil_iff]
  have hpieces : Text.lines (textOf bytes) =
      ((pieces bytes).map textOf).map (Text.trimEnd (· == .scalar '\r')) := by
    simp only [Text.lines, pieces, splitOn_textOf, hlast]
    split_ifs
    · rw [← List.map_dropLast]
    · rfl
  rw [hpieces, List.map_map]
  exact List.map_congr_left fun p hp => (lineText_eq (lineFeed_not_mem_of_mem_pieces hp)).symm

theorem pieces_eq_nil_iff {bytes : List UInt8} : pieces bytes = [] ↔ bytes = [] := by
  refine ⟨fun h => ?_, fun h => h ▸ pieces_nil⟩
  by_contra hne
  by_cases hmem : lineFeed ∈ bytes
  · obtain ⟨line, rest, rfl, hline⟩ := List.eq_append_cons_of_mem hmem
    exact nomatch (pieces_append_lineFeed hline rest).symm.trans h
  · exact nomatch (pieces_of_not_mem hmem hne).symm.trans h

/-- Every line passes a negative limit, so there are none. -/
theorem lines_readLines_of_negative {limit : Int} (h : limit < 0) (chunks : List (List UInt8)) :
    (readLines limit [] chunks).lines = [] := by
  have hnegative : limit < ([] : List UInt8).length := h
  have hcut : cutLine? [] = none := rfl
  have hover : readLine limit [] chunks = .overLimit := by
    cases chunks <;> rw [readLine, hcut] <;> exact if_pos hnegative
  rw [readLines_of_overLimit hover]

/-- Without bytes there are no lines, whatever the limit. -/
theorem lines_readLines_of_flatten_eq_nil (limit : Int) {chunks : List (List UInt8)}
    (h : chunks.flatten = []) : (readLines limit [] chunks).lines = [] := by
  by_cases hlimit : 0 ≤ limit
  · rw [readLines_eq hlimit, List.nil_append, h, pieces_nil, List.takeWhile_nil]
  · exact lines_readLines_of_negative (Int.not_le.1 hlimit) chunks

end Framing

namespace Host

open Framing

/-- **The lines of a run are those of its error output as a whole.** When no line is longer than the
limit, the lines come of reading all bytes as one text, however they arrive, cutting it at its line
feeds and nowhere else, and dropping the carriage returns at the end of each line; and the run does
not fail. -/
theorem lines_stream_eq_lines {host : Host} {o : CompilerOptions} {chunks : List (List UInt8)}
    (hlaunch : host.launch = .started (some chunks))
    (hshort : ∀ p ∈ pieces chunks.flatten, p.length ≤ o.lineLimit) (file directory : Text) :
    (host.stream o file directory).lines =
        Text.lines ((Utf8.decode chunks.flatten).map CodePoint.scalar) ∧
      (0 ≤ o.lineLimit → (host.stream o file directory).failure = none) := by
  have hwhole : Text.lines ((Utf8.decode chunks.flatten).map CodePoint.scalar) =
      (pieces chunks.flatten).map lineText := lines_textOf chunks.flatten
  by_cases hlimit : 0 ≤ o.lineLimit
  · obtain ⟨hlines, hfailure⟩ := stream_of_short hlimit hlaunch hshort file directory
    exact ⟨hlines.trans hwhole.symm, fun _ => hfailure⟩
  · -- No line fits a negative limit, so there are no bytes.
    have hnone : pieces chunks.flatten = [] := by
      refine List.eq_nil_iff_forall_not_mem.2 fun p hp => hlimit ?_
      exact Int.le_trans (Int.natCast_nonneg p.length) (hshort p hp)
    have hbytes := pieces_eq_nil_iff.1 hnone
    refine ⟨?_, fun h => absurd h hlimit⟩
    rw [hwhole, hnone]
    simp only [stream, hlaunch, lines_readLines_of_flatten_eq_nil o.lineLimit hbytes,
      List.map_nil]

/-- A sequence that a line feed cuts, one that is cut by a chunk, a line separator that ends no
line, and an unfinished sequence at the end. -/
theorem lines_stream_eq_lines_cut :
    let chunks : List (List UInt8) :=
      [[0xE2, 0x82, 0x0A, 0xC3], [0xA9, 0xE2, 0x80, 0xA8, 0x0D, 0x0D, 0x0A], [0xF0, 0x9F]]
    let host : Host := { launch := .started (some chunks), process := 1 }
    (host.stream {} "A.elm" "/w").lines =
        [("\uFFFD" : Text), ("é\u2028" : Text), ("\uFFFD" : Text)] ∧
      (host.stream {} "A.elm" "/w").failure = none := by
  intro chunks host
  have hlaunch : host.launch = .started (some chunks) := rfl
  obtain ⟨hlines, hfailure⟩ := lines_stream_eq_lines (o := {}) hlaunch (by decide) "A.elm" "/w"
  exact ⟨hlines.trans (by decide +kernel), hfailure (by decide)⟩

end Host

end ElmReport
