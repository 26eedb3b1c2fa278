import ElmReport.Proofs.Compiler.WholeText
import ElmReport.Proofs.Issue.Feed
import ElmReport.Proofs.Json.Padded

/-!
# Lines with blanks around them

The line feed at the end of a line, and carriage returns before it, are dropped before the line is
read. They are blanks of JSON, so a line says the same with them: it gives the same document, or it
fails as well. A feed comes to the same issues and ends at the same line, whether it is given the
lines of a run or the raw text of their bytes.

## Main definitions

* `Document.SaySame`: two lines that give the same document or fail both.
* `Framing.rawLines`: the lines of some bytes with the line feeds that end them.

## Main results

* `Document.saySame_padded`: blanks around a line do not matter.
* `IssueFeed.takeAll_of_saySame`: lines that say the same make the same run of a feed.
* `Framing.map_lineText_rawLines`: the lines of some bytes, by their raw lines.
* `Document.ofLine_padded`: blanks around a line, and line ends in a run.
-/

namespace ElmReport

/-! ### Lines that say the same -/

/-- Two lines that give the same document or fail both. -/
def Document.SaySame (line line' : Text) : Prop :=
  ∀ number, (ofLine number line).toOption = (ofLine number line').toOption

/-- Blanks around a line do not matter. -/
theorem Document.saySame_padded {v w : Text} (hv : Json.IsBlanks v) (hw : Json.IsBlanks w)
    (line : Text) : SaySame (v ++ line ++ w) line := by
  intro number
  refine Outcome.toOption_eq_iff.2 fun d => ?_
  simp only [ofLine_eq_ok_iff, Json.read_padded_iff hv hw]

namespace IssueFeed

/-- Lines that say the same make the same step of a feed, but for the error when they fail. -/
theorem take_of_saySame (f : IssueFeed) {line line' : Text} (h : Document.SaySame line line') :
    (f.take line).feed = (f.take line').feed ∧ (f.take line).notes = (f.take line').notes ∧
      (f.take line).outcome.toOption = (f.take line').outcome.toOption := by
  have hsame := h (f.linesSeen + 1)
  simp only [take]
  rcases hline : Document.ofLine (f.linesSeen + 1) line with e | d <;>
    rcases hline' : Document.ofLine (f.linesSeen + 1) line' with e' | d' <;>
    rw [hline, hline'] at hsame
  · exact ⟨rfl, rfl, rfl⟩
  · cases hsame
  · cases hsame
  · obtain rfl : d = d' := Option.some.inj hsame
    exact ⟨rfl, rfl, rfl⟩

/-- Lines that say the same make the same run of a feed, but for the error that ends it. -/
theorem takeAll_of_saySame (f : IssueFeed) {lines lines' : List Text}
    (h : List.Forall₂ Document.SaySame lines lines') :
    (f.takeAll lines).feed = (f.takeAll lines').feed ∧
      (f.takeAll lines).notes = (f.takeAll lines').notes ∧
      ((f.takeAll lines).error = none ↔ (f.takeAll lines').error = none) := by
  induction h generalizing f with
  | nil => exact ⟨rfl, rfl, Iff.rfl⟩
  | @cons line line' lines lines' hline _ ih =>
    obtain ⟨hfeed, hnotes, houtcome⟩ := f.take_of_saySame hline
    obtain ⟨hfeeds, hallNotes, herror⟩ := ih (f.take line).feed
    rw [hfeed] at hfeeds hallNotes herror
    simp only [takeAll]
    rcases hout : (f.take line).outcome with e | new <;>
      rcases hout' : (f.take line').outcome with e' | new' <;>
      rw [hout, hout'] at houtcome
    · simp [hfeed, hnotes]
    · cases houtcome
    · cases houtcome
    · simp [hfeed, hnotes, hfeeds, hallNotes, herror]

end IssueFeed

/-! ### Raw lines -/

namespace Framing

/-- The lines of some bytes, each with the line feed that ends it. -/
def rawLines : List UInt8 → List (List UInt8)
  | [] => []
  | b :: bytes =>
    if b = lineFeed then [b] :: rawLines bytes
    else
      match rawLines bytes with
      | [] => [[b]]
      | line :: lines => (b :: line) :: lines

/-- Raw lines hold all bytes. -/
theorem flatten_rawLines (bytes : List UInt8) : (rawLines bytes).flatten = bytes := by
  induction bytes with
  | nil => rfl
  | cons b bytes ih =>
    rw [rawLines]
    split_ifs
    · rw [List.flatten_cons, ih, List.singleton_append]
    · split
      · next h =>
        rw [h, List.flatten_nil] at ih
        rw [← ih]
        rfl
      · next line lines h =>
        rw [h, List.flatten_cons] at ih
        rw [List.flatten_cons, List.cons_append, ih]

theorem rawLines_append_lineFeed {line : List UInt8} (h : lineFeed ∉ line) (rest : List UInt8) :
    rawLines (line ++ lineFeed :: rest) = (line ++ [lineFeed]) :: rawLines rest := by
  induction line with
  | nil => rw [List.nil_append, rawLines, if_pos rfl, List.nil_append]
  | cons b line ih =>
    obtain ⟨hb, hline⟩ := not_or.1 (List.mem_cons.not.1 h)
    rw [List.cons_append, rawLines, if_neg (Ne.symm hb), ih hline, List.cons_append]

theorem rawLines_of_not_mem {bytes : List UInt8} (h : lineFeed ∉ bytes) (hne : bytes ≠ []) :
    rawLines bytes = [bytes] := by
  induction bytes with
  | nil => exact absurd rfl hne
  | cons b bytes ih =>
    obtain ⟨hb, hbytes⟩ := not_or.1 (List.mem_cons.not.1 h)
    rw [rawLines, if_neg (Ne.symm hb)]
    rcases bytes with _ | ⟨c, bytes⟩
    · rfl
    · rw [ih hbytes (List.cons_ne_nil c bytes)]

/-- The text of a line has the line ends of its raw text cut off, which are blanks. -/
theorem exists_textOf_eq (bytes : List UInt8) :
    ∃ w, Json.IsBlanks w ∧ textOf bytes = lineText bytes ++ w := by
  refine ⟨((textOf bytes).reverse.takeWhile isLineEnd).reverse, fun p hp => ?_, ?_⟩
  · have hend := List.mem_takeWhile_imp (List.mem_reverse.1 hp)
    have hcases : p = .scalar '\r' ∨ p = .scalar '\n' := by simpa [isLineEnd] using hend
    rcases hcases with rfl | rfl <;> decide
  · rw [lineText, Text.trimEnd, ← List.reverse_append]
    simp only [textOf, List.takeWhile_append_dropWhile, List.reverse_reverse]

/-- A line feed at the end of a line is dropped. -/
theorem lineText_append_lineFeed (line : List UInt8) :
    lineText (line ++ [lineFeed]) = lineText line := by
  have htext : textOf (line ++ [lineFeed]) = textOf line ++ [.scalar '\n'] :=
    textOf_append_lineFeed line []
  have hend : isLineEnd (.scalar '\n') = true := rfl
  rw [lineText, lineText, ← textOf, htext, Text.trimEnd, List.reverse_append,
    List.reverse_singleton, List.singleton_append, List.dropWhile_cons_of_pos hend]
  rfl

/-- The lines of some bytes are those of their raw lines. -/
theorem map_lineText_rawLines (bytes : List UInt8) :
    (rawLines bytes).map lineText = (pieces bytes).map lineText := by
  by_cases hmem : lineFeed ∈ bytes
  · obtain ⟨line, rest, rfl, hline⟩ := List.eq_append_cons_of_mem hmem
    rw [rawLines_append_lineFeed hline, pieces_append_lineFeed hline, List.map_cons, List.map_cons,
      lineText_append_lineFeed, map_lineText_rawLines rest]
  · rcases eq_or_ne bytes [] with rfl | hne
    · rfl
    · rw [rawLines_of_not_mem hmem hne, pieces_of_not_mem hmem hne]
termination_by bytes.length

end Framing

/-- The lines of a run are those of its raw lines, up to where the run ends. -/
theorem Host.lines_stream_eq_take {host : Host} {o : CompilerOptions} {chunks : List (List UInt8)}
    (hlaunch : host.launch = .started (some chunks)) (file directory : Text) :
    (host.stream o file directory).lines =
      ((Framing.rawLines chunks.flatten).take (host.stream o file directory).lines.length).map
        Framing.lineText := by
  have hprefix : (host.stream o file directory).lines <+:
      (Framing.rawLines chunks.flatten).map Framing.lineText := by
    by_cases hlimit : 0 ≤ o.lineLimit
    · rw [(stream_of_started hlimit hlaunch file directory).1, Framing.map_lineText_rawLines]
      exact (List.takeWhile_prefix _).map Framing.lineText
    · simp only [stream, hlaunch, Framing.lines_readLines_of_negative (Int.not_le.1 hlimit),
        List.map_nil]
      exact List.nil_prefix
  rw [List.map_take]
  exact List.prefix_iff_eq_take.1 hprefix

namespace Document

/-- **Blanks around a line do not matter.** A line with blanks around it gives the same document, or
both fail. The line ends that a run drops are such blanks: a feed that is given a line of a run, or
the raw text of its bytes, gives the same issues, or fails on both. So it is with whole runs: the
raw lines are all that a host writes, and a feed that is given the lines of a run gathers the same
issues and notes, and fails as well, as one that is given the raw text of each line. -/
theorem ofLine_padded {v w : Text} (hv : Json.IsBlanks v) (hw : Json.IsBlanks w) (line : Text)
    (number : Int) :
    (ofLine number (v ++ line ++ w)).toOption = (ofLine number line).toOption ∧
      (∀ (f : IssueFeed) (raw : List UInt8),
        (f.take (Framing.lineText raw)).outcome.toOption =
            (f.take (Framing.textOf raw)).outcome.toOption ∧
          (f.take (Framing.lineText raw)).feed = (f.take (Framing.textOf raw)).feed) ∧
      ∀ (host : Host) (o : CompilerOptions) (chunks : List (List UInt8)) (file directory : Text),
        host.launch = .started (some chunks) →
          (Framing.rawLines chunks.flatten).flatten = chunks.flatten ∧
          ∀ f : IssueFeed,
            let lines := (host.stream o file directory).lines
            let raws := ((Framing.rawLines chunks.flatten).take lines.length).map Framing.textOf
            (f.takeAll lines).feed = (f.takeAll raws).feed ∧
              (f.takeAll lines).notes = (f.takeAll raws).notes ∧
              ((f.takeAll lines).error = none ↔ (f.takeAll raws).error = none) := by
  have hsame (raw : List UInt8) : SaySame (Framing.lineText raw) (Framing.textOf raw) := by
    obtain ⟨ends, hends, htext⟩ := Framing.exists_textOf_eq raw
    rw [htext]
    exact fun n => (saySame_padded Json.isBlanks_nil hends _ n).symm
  refine ⟨saySame_padded hv hw line number, fun f raw => ?_, ?_⟩
  · obtain ⟨hfeed, -, houtcome⟩ := f.take_of_saySame (hsame raw)
    exact ⟨houtcome, hfeed⟩
  · intro host o chunks file directory hlaunch
    refine ⟨Framing.flatten_rawLines chunks.flatten, fun f => ?_⟩
    intro lines raws
    have hlines : List.Forall₂ SaySame lines raws := by
      have hread : lines = _ := Host.lines_stream_eq_take hlaunch file directory
      rw [hread, List.forall₂_map_left_iff, List.forall₂_map_right_iff]
      exact List.forall₂_same.2 fun raw _ => hsame raw
    exact f.takeAll_of_saySame hlines

/-- A report between blanks, and a run of one line with an open string: its line end would stand in
the string, and the line fails with it as it does without. -/
theorem ofLine_padded_open :
    let report : Text := "\x7b\"type\":\"error\",\"title\":\"T\",\"message\":[]\x7d"
    let host : Host := { launch := .started (some [[0x22], [0x0D, 0x0A]]), process := 1 }
    let f : IssueFeed := { fallback := none }
    Json.IsBlanks "\t " ∧ Json.IsBlanks "\r\n" ∧
      (ofLine 1 (("\t " : Text) ++ report ++ ("\r\n" : Text))).toOption =
        some (.report (.projectError ⟨none, "T", none, []⟩)) ∧
      (host.stream {} "A.elm" "/w").lines = [("\"" : Text)] ∧
      (f.takeAll [("\"\r\n" : Text)]).error ≠ none := by
  intro report host f
  have hv : Json.IsBlanks "\t " := by decide
  have hw : Json.IsBlanks "\r\n" := by decide
  obtain ⟨hpadded, -, hruns⟩ := ofLine_padded hv hw report 1
  have hreport : (ofLine 1 report).toOption =
      some (.report (.projectError ⟨none, "T", none, []⟩)) := rfl
  have hlines : (host.stream {} "A.elm" "/w").lines = [("\"" : Text)] := by
    decide +kernel
  obtain ⟨-, hrun⟩ := hruns host {} [[0x22], [0x0D, 0x0A]] "A.elm" "/w" rfl
  obtain ⟨-, -, herror⟩ := hrun f
  have hopen : (f.takeAll [("\"" : Text)]).error ≠ none := nofun
  rw [hlines] at herror
  exact ⟨hv, hw, hpadded.trans hreport, hlines, mt herror.2 hopen⟩

end Document

end ElmReport
