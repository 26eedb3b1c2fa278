import ElmReport.Proofs.Json.Delimited
import ElmReport.Proofs.Issue.Feed
import ElmReport.Proofs.Report.Limits
import ElmReport.Proofs.Report.Written

/-!
# Reports that are cut or glued

A report is an object, so its line says where it ends. A line that was cut before this end is never
taken for a shorter report, and neither is a line that goes on after it. Both are malformed, with
one exception: when the cut deprives a number of its fraction, what is left may be a whole number
that is too long to be read, and then the line fails by this limit.

## Main results

* `Document.ofLine_fraction`, `Document.ofLine_untilPoint`: a line with a number of any length, and
  what is left of it when the cut is before the point of the number.
* `Document.ofLine_cut_or_glued`: how cut and glued lines fail.
* `Document.not_malformed_cut`: a cut line that is not malformed.
-/

namespace ElmReport.Document

/-- A line that is no JSON is malformed. -/
theorem ofLine_of_fault {line : Text} {f : Json.Fault}
    (h : Json.read .ofReports line = .error (.fault f)) (number : Int) :
    ofLine number line = .error (.malformed ⟨number, line, .json f⟩) := by
  rw [ofLine, h]

/-- A line is a report only if it is an object. -/
theorem exists_read_of_ofLine {number : Int} {line : Text} {r : Report}
    (h : ofLine number line = .ok (.report r)) :
    ∃ members, Json.read .ofReports line = .ok (.object members) := by
  obtain ⟨v, hv, hr⟩ := ofLine_eq_ok_iff.1 h
  obtain ⟨form, members, rfl, -⟩ := (ofJson_eq_report_iff.1 hr).exists_hasForm
  exact ⟨members, hv⟩

/-! ### A number that is cut -/

/-- The head of a line up to the point of a number. -/
def untilPoint (digits : Text) : Text := ("\x7b\"x\":" : Text) ++ digits

/-- The rest of the line, from the point of the number on. -/
def fromPoint : Text := ".5,\"type\":\"error\",\"title\":\"T\",\"message\":[]\x7d"

/-- The members of the line after its number. -/
def bareMembers : List (Text × Json) :=
  [("type", .string "error"), ("title", .string "T"), ("message", .list [])]

theorem isReport_bareMembers (v : Json) :
    (Json.object (Members.ofPairs (("x", v) :: bareMembers))).IsReport
      (.projectError ⟨none, "T", none, []⟩) :=
  .projectError ⟨_, rfl, rfl⟩ (.object .absent rfl rfl (.list .nil) .absent)

theorem entries_bareMembers :
    Json.Entries (Json.IsMember (Json.Spells .ofReports 979)) Json.Bracket.object.right
      (Text.join "," (bareMembers.map Json.compactMember) ++ [Json.Bracket.object.right])
      bareMembers := by
  have hnames : ∀ m ∈ bareMembers, m.1.IsUnpaired := by decide
  have hvalues : ∀ m ∈ bareMembers, Json.Fits 4300 979 m.2 := by
    simp only [bareMembers, List.forall_mem_cons]
    exact ⟨.string (by decide), .string (by decide), .list (by simp), by simp⟩
  exact Json.entries_join fun m hm =>
    Json.isMember_compactMember (hnames m hm) (hvalues m hm).spells_compact

theorem spells_name : Json.StringLiteral.Spells [.scalar 'x'] "x" :=
  .plain (by decide) (by decide) (by decide) .nil

section

variable {p : CodePoint} {ds : Text} (hzero : p ≠ .scalar '0') (hp : p.isAsciiDigit = true)
  (hds : Json.IsDigits ds)

include hzero hp hds

/-- A number with a fraction is read however long it is. -/
theorem ofLine_fraction (number : Int) :
    ofLine number (untilPoint (p :: ds) ++ fromPoint) =
      .ok (.report (.projectError ⟨none, "T", none, []⟩)) := by
  have hliteral : Json.NumberLiteral.Spells
      (Json.NumberLiteral.minus false ++ (p :: ds ++ ([.scalar '.', .scalar '5'] ++ [])))
      ⟨false, p :: ds, [.scalar '5'], none⟩ :=
    .parts (.digits hzero hp hds) (.digits (by simp) (List.forall_mem_singleton.2 (by decide)))
      .absent
  obtain ⟨v, hv⟩ : ∃ v, Json.SpellsAtom .ofReports
      (Json.NumberLiteral.minus false ++ (p :: ds ++ ([.scalar '.', .scalar '5'] ++ []))) v :=
    ⟨_, .number hliteral rfl⟩
  have hnumber :=
    Json.IsMember.intro spells_name Json.isBlanks_nil Json.isBlanks_nil (hv.spells 979)
  have hmembers :=
    Json.Entries.cons hnumber Json.isBlanks_nil Json.isBlanks_nil entries_bareMembers
  have hspells : Json.Spells .ofReports (979 + 1) (untilPoint (p :: ds) ++ fromPoint)
      (.object (Members.ofPairs (("x", v) :: bareMembers))) := by
    refine .inr ⟨.object, [], _, ?_, Json.isBlanks_nil, .object (.entries hmembers)⟩
    have hfrom : fromPoint = .scalar '.' :: .scalar '5' :: .scalar ',' ::
        (Text.join "," (bareMembers.map Json.compactMember) ++ [Json.Bracket.object.right]) := rfl
    rw [hfrom]
    simp [untilPoint, Text.ofString, Json.NumberLiteral.minus, Json.Bracket.left]
  have hread : Json.read .ofReports (untilPoint (p :: ds) ++ fromPoint) = .ok _ :=
    Json.read_eq_ok_iff.2 ⟨[], _, [], (List.append_nil _).symm, Json.isBlanks_nil,
      Json.isBlanks_nil, hspells⟩
  rw [ofLine_of_read hread, ofJson_of_isReport (isReport_bareMembers v)]
  rfl

/-- Without its fraction a number may be too long. -/
theorem ofLine_untilPoint (hlong : 4300 ≤ ds.length) (number : Int) :
    ofLine number (untilPoint (p :: ds)) =
      .error (.limit (.longInteger 4300 (ds.length + 1))) := by
  have hopens : Json.OpensLongInteger .ofReports _ (p :: ds) :=
    Json.opensLongInteger_digits .ofReports hzero hp hds hlong
  have hinside : Json.InsideUpTo (Json.Spells .ofReports 979)
      (Json.Overruns .ofReports (.longInteger 4300 (ds.length + 1)) 979) .object _ :=
    .object (.here (.intro spells_name Json.isBlanks_nil Json.isBlanks_nil (hopens.overruns 979)))
  have hoverruns : Json.Overruns .ofReports (.longInteger 4300 (ds.length + 1)) (979 + 1)
      (untilPoint (p :: ds)) :=
    .inr ⟨.object, [], _, rfl, Json.isBlanks_nil, hinside⟩
  exact (ofLine_eq_limit_iff number).2 ⟨[], _, rfl, Json.isBlanks_nil, hoverruns⟩

end

/-! ### Lines that are cut or glued -/

/-- **A report that is cut or glued is never taken for a report.** When more than blanks is cut
off, what is left is malformed unless it passes a limit of the reader. Then it fails by this limit,
which a row of too many digits passes. When more than blanks is added, the line is malformed. -/
theorem ofLine_cut_or_glued {number : Int} {line : Text} {r : Report}
    (h : ofLine number line = .ok (.report r)) (number' : Int) :
    (∀ cut tail, line = cut ++ tail → ¬ Json.IsBlanks tail →
      ((∃ f, ofLine number' cut = .error (.malformed ⟨number', cut, .json f⟩)) ↔
        ∀ e, ¬ Json.PassesLimit .ofReports e cut) ∧
      ∀ e, Json.PassesLimit .ofReports e cut →
        ofLine number' cut = .error (.limit e) ∧ Json.HoldsLongRow .ofReports e cut) ∧
    ∀ tail, ¬ Json.IsBlanks tail → ofLine number' (line ++ tail) =
      .error (.malformed ⟨number', line ++ tail, .json .extraData⟩) := by
  obtain ⟨members, hread⟩ := exists_read_of_ofLine h
  have hopens := Json.opensBracket_of_read hread
  refine ⟨?_, fun tail htail => ?_⟩
  · rintro cut tail rfl htail
    refine ⟨?_, fun e he => ⟨(ofLine_eq_limit_iff number').2 he, Json.holdsLongRow_of_cut hread he⟩⟩
    simp only [← Json.read_eq_limit_iff]
    rcases hcut : Json.read .ofReports cut with (f | e) | w
    · exact ⟨fun _ e => nofun, fun _ => ⟨f, ofLine_of_fault hcut number'⟩⟩
    · have hlimit := (ofLine_eq_limit_iff number').2 (Json.read_eq_limit_iff.1 hcut)
      refine ⟨?_, fun hno => absurd rfl (hno e)⟩
      rintro ⟨f, hf⟩
      exact nomatch hlimit.symm.trans hf
    · exact absurd hcut (Json.read_cut_ne_ok hread hopens htail w)
  · exact ofLine_of_fault (Json.read_append_of_opensBracket hread hopens htail) number'

/-- A line that lacks its last bracket, and two lines without a line feed between them. -/
theorem ofLine_cut_or_glued_bracket :
    let line : Text := "\x7b\"type\":\"error\",\"title\":\"T\",\"message\":[]\x7d"
    ofLine 1 line = .ok (.report (.projectError ⟨none, "T", none, []⟩)) ∧
      (∃ f, ofLine 1 line.dropLast = .error (.malformed ⟨1, line.dropLast, .json f⟩)) ∧
      ofLine 1 (line ++ line) = .error (.malformed ⟨1, line ++ line, .json .extraData⟩) := by
  intro line
  have hline : ofLine 1 line = .ok (.report (.projectError ⟨none, "T", none, []⟩)) := rfl
  obtain ⟨hcut, hglued⟩ := ofLine_cut_or_glued hline 1
  have hend : line = line.dropLast ++ [Json.Bracket.object.right] := rfl
  have hblank : ¬ Json.IsBlanks [Json.Bracket.object.right] :=
    Json.not_isBlanks_of_mem (List.mem_singleton_self _) (by decide)
  obtain ⟨hmalformed, hlimit⟩ := hcut _ _ hend hblank
  have hline' : ¬ Json.IsBlanks line := by
    rw [hend]
    exact Json.not_isBlanks_of_mem (List.mem_append_right _ (List.mem_singleton_self _)) (by decide)
  refine ⟨hline, hmalformed.2 fun e he => ?_, hglued line hline'⟩
  -- A row of too many digits is longer than the line.
  obtain ⟨-, ds, -, hlong, hinfix, -⟩ := hlimit e he
  have hlength : ds.length ≤ 40 := hinfix.length_le
  have hlimit : 4300 < ds.length := hlong
  omega

/-- A cut line that passes the limit of whole numbers is neither read nor reported. -/
theorem not_malformed_cut :
    ¬ ∀ (number : Int) (cut tail : Text) (r : Report),
      ofLine number (cut ++ tail) = .ok (.report r) → ¬ Json.IsBlanks tail →
        ∃ fault, ofLine number cut = .error (.malformed ⟨number, cut, fault⟩) := by
  intro h
  have hone : CodePoint.scalar '1' ≠ .scalar '0' := by decide
  have hdigits : Json.IsDigits (List.replicate 4300 (.scalar '1')) := by
    intro p hp
    rw [List.eq_of_mem_replicate hp]
    decide
  have hpoint : CodePoint.scalar '.' ∈ fromPoint := by decide
  have hblank : ¬ Json.IsBlanks fromPoint := Json.not_isBlanks_of_mem hpoint (by decide)
  have hlong : 4300 ≤ (List.replicate 4300 (CodePoint.scalar '1')).length := by
    rw [List.length_replicate]
  obtain ⟨fault, hfault⟩ := h 1 _ _ _ (ofLine_fraction hone (by decide) hdigits 1) hblank
  exact nomatch (ofLine_untilPoint hone (by decide) hdigits hlong 1).symm.trans hfault

end ElmReport.Document
