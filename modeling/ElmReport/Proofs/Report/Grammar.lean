import ElmReport.Proofs.Outcome
import ElmReport.Report.Line

/-!
# The grammar of report documents

Which JSON values are reports, and what they say, is laid down part by part, from a position up to a
whole document. A decoder then accepts a value exactly when the grammar does, and gives what the
grammar says.

## Main definitions

* `Json.IsPosition`, `Json.IsRegion`, `Json.IsFragment`, `Json.IsMessage`, `Json.IsProblem`,
  `Json.IsFileErrors`, `Json.IsProjectError`: the parts of a document and what they say.
* `Json.IsReport`: the documents and what they say.
* `Json.HasForm`: the form that a value claims to have.

## Main results

* `Position.ofJson_eq_ok_iff`, `Region.ofJson_eq_ok_iff`, …, `Report.ofMembers_eq_ok_iff`: every
  part is decoded by its grammar.
* `Document.ofLine_iff_isReport`: a line that is JSON is a report exactly when its value is one, no
  report when it claims no form, and malformed otherwise.
-/

namespace ElmReport

open Outcome

/-! ### The parts of a document -/

/-- A member that may be absent or null, and stands for something otherwise. -/
inductive Members.Optionally {α : Type} (denotes : Json → α → Prop) : Option Json → Option α → Prop
  | absent : Optionally denotes none none
  | null : Optionally denotes (some .null) none
  | present {v : Json} {a : α} (h : denotes v a) : Optionally denotes (some v) (some a)

/-- The style of a piece: weight and line by the truth of any value, the color by a text only. -/
structure Members.IsStyle (members : Members) (style : Style) : Prop where
  bold : style.bold = true ↔ ∃ v, members.get? "bold" = some v ∧ v.isTrue = true
  underline : style.underline = true ↔ ∃ v, members.get? "underline" = some v ∧ v.isTrue = true
  color : ∀ c, style.color = some c ↔ members.get? "color" = some (.string c)

namespace Json

/-- A text. -/
inductive IsText : Json → Text → Prop
  | string (t : Text) : IsText (.string t) t

theorem isText_iff {v : Json} {t : Text} : v.IsText t ↔ v = .string t := by
  constructor
  · rintro ⟨⟩
    rfl
  · rintro rfl
    exact .string t

/-- A position is an object whose line and column are integers. -/
inductive IsPosition : Json → Position → Prop
  | object {members : Members} {line column : Int}
      (hline : members.get? "line" = some (.integer line))
      (hcolumn : members.get? "column" = some (.integer column)) :
      IsPosition (.object members) ⟨line, column⟩

/-- A region is an object whose start and end are positions. -/
inductive IsRegion : Json → Region → Prop
  | object {members : Members} {start stop : Json} {p q : Position}
      (hstart : members.get? "start" = some start) (hp : start.IsPosition p)
      (hstop : members.get? "end" = some stop) (hq : stop.IsPosition q) :
      IsRegion (.object members) ⟨p, q⟩

/-- A piece of a message is a text, or an object with a text and a style. -/
inductive IsFragment : Json → Fragment → Prop
  | plain (t : Text) : IsFragment (.string t) (.plain t)
  | styled {members : Members} {t : Text} {style : Style}
      (htext : members.get? "string" = some (.string t)) (hstyle : members.IsStyle style) :
      IsFragment (.object members) (.styled t style)

/-- A message is a list of pieces. -/
inductive IsMessage : Json → List Fragment → Prop
  | list {items : List Json} {pieces : List Fragment} (h : List.Forall₂ IsFragment items pieces) :
      IsMessage (.list items) pieces

/-- A problem is an object with a title, a region and a message. -/
inductive IsProblem : Json → Problem → Prop
  | object {members : Members} {title : Text} {place text : Json} {region : Region}
      {message : List Fragment}
      (htitle : members.get? "title" = some (.string title))
      (hplace : members.get? "region" = some place) (hregion : place.IsRegion region)
      (htext : members.get? "message" = some text) (hmessage : text.IsMessage message) :
      IsProblem (.object members) ⟨title, region, message⟩

/-- The problems of a file are an object with a path and a list of problems; its name counts when
it is a text. -/
inductive IsFileErrors : Json → FileErrors → Prop
  | object {members : Members} {path : Text} {name : Option Text} {items : List Json}
      {problems : List Problem}
      (hpath : members.get? "path" = some (.string path))
      (hname : ∀ n, name = some n ↔ members.get? "name" = some (.string n))
      (hitems : members.get? "problems" = some (.list items))
      (hproblems : List.Forall₂ IsProblem items problems) :
      IsFileErrors (.object members) ⟨path, name, problems⟩

/-- A problem of the project is an object with a title and a message, and perhaps with a path and a
region. -/
inductive IsProjectError : Json → ProjectError → Prop
  | object {members : Members} {path : Option Text} {title : Text} {region : Option Region}
      {text : Json} {message : List Fragment}
      (hpath : Members.Optionally IsText (members.get? "path") path)
      (htitle : members.get? "title" = some (.string title))
      (htext : members.get? "message" = some text) (hmessage : text.IsMessage message)
      (hregion : Members.Optionally IsRegion (members.get? "region") region) :
      IsProjectError (.object members) ⟨path, title, region, message⟩

/-- The form that a value claims to have: it is an object that names the form as its type. -/
def HasForm (v : Json) (form : Document.Form) : Prop :=
  ∃ members : Members, v = .object members ∧ members.get? "type" = some (.string form.tag)

/-- A report claims one of the two forms and has its parts. -/
inductive IsReport : Json → Report → Prop
  | compileErrors {members : Members} {entries : List Json} {files : List FileErrors}
      (hform : HasForm (.object members) .compileErrors)
      (hentries : members.get? "errors" = some (.list entries))
      (hfiles : List.Forall₂ IsFileErrors entries files) :
      IsReport (.object members) (.compileErrors files)
  | projectError {v : Json} {e : ProjectError} (hform : v.HasForm .projectError)
      (h : v.IsProjectError e) : IsReport v (.projectError e)

end Json

/-! ### Decoding the parts -/

theorem Position.ofJson_eq_ok_iff {v : Json} {p : Position} :
    Position.ofJson v = .ok p ↔ v.IsPosition p := by
  simp only [Position.ofJson, bind_eq_ok_iff, Json.asObject_eq_ok_iff, Members.require_eq_ok_iff,
    Json.asInteger_eq_ok_iff, pure_eq_ok_iff]
  constructor
  · rintro ⟨members, rfl, _, hline, line, rfl, _, hcolumn, column, rfl, rfl⟩
    exact .object hline hcolumn
  · rintro ⟨hline, hcolumn⟩
    exact ⟨_, rfl, _, hline, _, rfl, _, hcolumn, _, rfl, rfl⟩

theorem Region.ofJson_eq_ok_iff {v : Json} {r : Region} :
    Region.ofJson v = .ok r ↔ v.IsRegion r := by
  simp only [Region.ofJson, bind_eq_ok_iff, Json.asObject_eq_ok_iff, Members.require_eq_ok_iff,
    Position.ofJson_eq_ok_iff, pure_eq_ok_iff]
  constructor
  · rintro ⟨members, rfl, _, hstart, p, hp, _, hstop, q, hq, rfl⟩
    exact .object hstart hp hstop hq
  · rintro ⟨hstart, hp, hstop, hq⟩
    exact ⟨_, rfl, _, hstart, _, hp, _, hstop, _, hq, rfl⟩

private theorem bind_text?_eq_some_iff {v : Option Json} {t : Text} :
    v.bind Json.text? = some t ↔ v = some (.string t) := by
  rcases v with _ | v
  · simp
  · cases v <;> simp [Json.text?]

private theorem any_isTrue_iff {v : Option Json} :
    v.any Json.isTrue = true ↔ ∃ w, v = some w ∧ w.isTrue = true := by
  cases v <;> simp

/-- Members say exactly one style. -/
theorem Members.isStyle_iff {members : Members} {style : Style} :
    members.IsStyle style ↔ Style.ofMembers members = style := by
  constructor
  · intro h
    obtain ⟨bold, underline, color⟩ := style
    rw [Style.ofMembers, Style.mk.injEq]
    refine ⟨Bool.eq_iff_iff.2 ?_, Bool.eq_iff_iff.2 ?_, Option.ext fun c => ?_⟩
    · rw [any_isTrue_iff, ← h.bold]
    · rw [any_isTrue_iff, ← h.underline]
    · rw [bind_text?_eq_some_iff, ← h.color]
  · rintro rfl
    exact ⟨any_isTrue_iff, any_isTrue_iff, fun c => bind_text?_eq_some_iff⟩

theorem Fragment.ofMembers_eq_ok_iff {members : Members} {f : Fragment} :
    Fragment.ofMembers members = .ok f ↔ (Json.object members).IsFragment f := by
  simp only [Fragment.ofMembers, bind_eq_ok_iff, Members.require_eq_ok_iff,
    Json.asText_eq_ok_iff, pure_eq_ok_iff]
  constructor
  · rintro ⟨_, htext, t, rfl, rfl⟩
    exact .styled htext (Members.isStyle_iff.2 rfl)
  · rintro (_ | ⟨htext, hstyle⟩)
    exact ⟨_, htext, _, rfl, by rw [Members.isStyle_iff.1 hstyle]⟩

theorem Fragment.ofJson_eq_ok_iff {v : Json} {f : Fragment} :
    Fragment.ofJson v = .ok f ↔ v.IsFragment f := by
  cases v with
  | string t =>
    rw [Fragment.ofJson, Except.ok.injEq]
    constructor
    · rintro rfl
      exact .plain t
    · rintro ⟨⟩
      rfl
  | object members => exact Fragment.ofMembers_eq_ok_iff
  | _ =>
    constructor
    · intro h
      cases h
    · intro h
      cases h

theorem Fragment.messageOfJson_eq_ok_iff {v : Json} {message : List Fragment} :
    Fragment.messageOfJson v = .ok message ↔ v.IsMessage message := by
  simp only [Fragment.messageOfJson, bind_eq_ok_iff, Json.asList_eq_ok_iff, mapM_eq_ok_iff,
    Fragment.ofJson_eq_ok_iff]
  constructor
  · rintro ⟨items, rfl, h⟩
    exact .list h
  · rintro ⟨h⟩
    exact ⟨_, rfl, h⟩

theorem Problem.ofJson_eq_ok_iff {v : Json} {p : Problem} :
    Problem.ofJson v = .ok p ↔ v.IsProblem p := by
  simp only [Problem.ofJson, bind_eq_ok_iff, Json.asObject_eq_ok_iff, Members.require_eq_ok_iff,
    Json.asText_eq_ok_iff, Region.ofJson_eq_ok_iff, Fragment.messageOfJson_eq_ok_iff,
    pure_eq_ok_iff]
  constructor
  · rintro ⟨members, rfl, _, htitle, title, rfl, _, hplace, r, hr, _, htext, m, hm, rfl⟩
    exact .object htitle hplace hr htext hm
  · rintro ⟨htitle, hplace, hr, htext, hm⟩
    exact ⟨_, rfl, _, htitle, _, rfl, _, hplace, _, hr, _, htext, _, hm, rfl⟩

theorem FileErrors.ofJson_eq_ok_iff {v : Json} {f : FileErrors} :
    FileErrors.ofJson v = .ok f ↔ v.IsFileErrors f := by
  simp only [FileErrors.ofJson, bind_eq_ok_iff, Json.asObject_eq_ok_iff, Members.require_eq_ok_iff,
    Json.asText_eq_ok_iff, Json.asList_eq_ok_iff, mapM_eq_ok_iff, Problem.ofJson_eq_ok_iff,
    pure_eq_ok_iff]
  constructor
  · rintro ⟨members, rfl, _, hpath, path, rfl, _, hitems, items, rfl, problems, h, rfl⟩
    exact .object hpath (fun n => bind_text?_eq_some_iff) hitems h
  · rintro ⟨hpath, hname, hitems, h⟩
    refine ⟨_, rfl, _, hpath, _, rfl, _, hitems, _, rfl, _, h, ?_⟩
    rw [FileErrors.mk.injEq]
    exact ⟨rfl, Option.ext fun n => by rw [bind_text?_eq_some_iff, hname], rfl⟩

private theorem optional_of_ne_null {name : Text} {members : Members} {v : Json}
    (h : members.get? name = some v) (hv : v ≠ .null) : members.optional name = some v := by
  rw [Members.optional, h]
  cases v with
  | null => exact absurd rfl hv
  | _ => rfl

/-- A member that may be absent is decoded exactly when it is absent, null or what it should be. -/
theorem Members.mapM_optional_eq_ok_iff {α : Type} {denotes : Json → α → Prop}
    {decode : Json → Except ShapeError α} (hdecode : ∀ v a, decode v = .ok a ↔ denotes v a)
    (hnull : ∀ a, ¬ denotes .null a) {name : Text} {members : Members} {x : Option α} :
    (members.optional name).mapM decode = .ok x ↔ Optionally denotes (members.get? name) x := by
  rcases hv : members.get? name with _ | v
  · rw [Members.optional, hv]
    constructor
    · rintro ⟨⟩
      exact .absent
    · rintro ⟨⟩
      rfl
  · by_cases hne : v = .null
    · subst hne
      rw [Members.optional, hv]
      constructor
      · rintro ⟨⟩
        exact .null
      · rintro (_ | _ | h)
        · rfl
        · exact absurd h (hnull _)
    · rw [optional_of_ne_null hv hne, Option.mapM_some, map_eq_pure_bind, bind_eq_ok_iff]
      constructor
      · rintro ⟨a, ha, h⟩
        obtain rfl := pure_eq_ok_iff.1 h
        exact .present ((hdecode v a).1 ha)
      · rintro (_ | _ | h)
        · exact absurd rfl hne
        · exact ⟨_, (hdecode v _).2 h, rfl⟩

theorem ProjectError.ofMembers_eq_ok_iff {members : Members} {e : ProjectError} :
    ProjectError.ofMembers members = .ok e ↔ (Json.object members).IsProjectError e := by
  have hpath {x : Option Text} : (members.optional "path").mapM (Json.asText "path") = .ok x ↔
      Members.Optionally Json.IsText (members.get? "path") x :=
    Members.mapM_optional_eq_ok_iff (fun v t => Json.asText_eq_ok_iff.trans Json.isText_iff.symm)
      (by rintro t ⟨⟩)
  have hregion {x : Option Region} : (members.optional "region").mapM Region.ofJson = .ok x ↔
      Members.Optionally Json.IsRegion (members.get? "region") x :=
    Members.mapM_optional_eq_ok_iff (fun v r => Region.ofJson_eq_ok_iff) (by rintro r ⟨⟩)
  simp only [ProjectError.ofMembers, bind_eq_ok_iff, Members.require_eq_ok_iff, hpath, hregion,
    Json.asText_eq_ok_iff, Fragment.messageOfJson_eq_ok_iff, pure_eq_ok_iff]
  constructor
  · rintro ⟨path, hp, _, htitle, title, rfl, _, htext, m, hm, region, hr, rfl⟩
    exact .object hp htitle htext hm hr
  · rintro ⟨hp, htitle, htext, hm, hr⟩
    exact ⟨_, hp, _, htitle, _, rfl, _, htext, _, hm, _, hr, rfl⟩

/-! ### Decoding a document -/

theorem Document.form?_eq_some_iff {v : Option Json} {form : Document.Form} :
    Document.form? v = some form ↔ v = some (.string form.tag) := by
  constructor
  · intro h
    unfold Document.form? at h
    split at h
    · next t =>
      split_ifs at h with h₁ h₂
      · obtain rfl := Option.some.inj h
        rw [h₁]
      · obtain rfl := Option.some.inj h
        rw [h₂]
    · exact nomatch h
  · rintro rfl
    cases form <;> rfl

namespace Json

theorem hasForm_object {members : Members} {form : Document.Form} :
    HasForm (.object members) form ↔ Document.form? (members.get? "type") = some form := by
  rw [Document.form?_eq_some_iff]
  constructor
  · rintro ⟨_, ⟨⟩, h⟩
    exact h
  · intro h
    exact ⟨members, rfl, h⟩

/-- A value claims at most one form. -/
theorem HasForm.unique {v : Json} {f g : Document.Form} (hf : v.HasForm f) (hg : v.HasForm g) :
    f = g := by
  obtain ⟨members, rfl, _⟩ := id hf
  exact Option.some.inj ((hasForm_object.1 hf).symm.trans (hasForm_object.1 hg))

/-- A report claims a form. -/
theorem IsReport.exists_hasForm {v : Json} {r : Report} (h : v.IsReport r) :
    ∃ form, v.HasForm form := by
  cases h with
  | compileErrors hform => exact ⟨_, hform⟩
  | projectError hform => exact ⟨_, hform⟩

theorem IsReport.exists_of_compileErrors {v : Json} {r : Report} (h : v.IsReport r)
    (hform : v.HasForm .compileErrors) : ∃ members entries files, v = .object members ∧
      Members.get? "errors" members = some (.list entries) ∧
      List.Forall₂ IsFileErrors entries files ∧ r = .compileErrors files := by
  cases h with
  | compileErrors _ hentries hfiles => exact ⟨_, _, _, rfl, hentries, hfiles, rfl⟩
  | projectError hother => exact nomatch hform.unique hother

theorem IsReport.exists_of_projectError {v : Json} {r : Report} (h : v.IsReport r)
    (hform : v.HasForm .projectError) : ∃ e, v.IsProjectError e ∧ r = .projectError e := by
  cases h with
  | compileErrors hother => exact nomatch hform.unique hother
  | projectError _ he => exact ⟨_, he, rfl⟩

end Json

/-- An object that claims a form is decoded by the grammar. -/
theorem Report.ofMembers_eq_ok_iff {members : Members} {form : Document.Form} {r : Report}
    (hform : (Json.object members).HasForm form) :
    Report.ofMembers form members = .ok r ↔ (Json.object members).IsReport r := by
  cases form with
  | compileErrors =>
    simp only [Report.ofMembers, bind_eq_ok_iff, Members.require_eq_ok_iff, Json.asList_eq_ok_iff,
      mapM_eq_ok_iff, FileErrors.ofJson_eq_ok_iff, pure_eq_ok_iff]
    constructor
    · rintro ⟨_, hentries, entries, rfl, files, hfiles, rfl⟩
      exact .compileErrors hform hentries hfiles
    · rintro (⟨_, hentries, hfiles⟩ | ⟨hform', _⟩)
      · exact ⟨_, hentries, _, rfl, _, hfiles, rfl⟩
      · exact nomatch hform.unique hform'
  | projectError =>
    simp only [Report.ofMembers, bind_eq_ok_iff, ProjectError.ofMembers_eq_ok_iff, pure_eq_ok_iff]
    constructor
    · rintro ⟨e, he, rfl⟩
      exact .projectError hform he
    · rintro (⟨hform', _, _⟩ | ⟨_, he⟩)
      · exact nomatch hform.unique hform'
      · exact ⟨_, he, rfl⟩

/-! ### Decoding a line -/

namespace Document

/-- A value that claims no form is decoded, but to no report. -/
theorem ofJson_of_not_hasForm {v : Json} (h : ∀ form, ¬ v.HasForm form) :
    ∃ d, ofJson v = .ok d ∧ d.report? = none := by
  cases v with
  | object members =>
    have hform : form? (Members.get? "type" members) = none := by
      rw [Option.eq_none_iff_forall_ne_some]
      exact fun form hf => h form (Json.hasForm_object.2 hf)
    exact ⟨_, by rw [ofJson, ofMembers, hform], rfl⟩
  | _ => exact ⟨_, rfl, rfl⟩

/-- A report is decoded to what it says. -/
theorem ofJson_of_isReport {v : Json} {r : Report} (h : v.IsReport r) :
    ofJson v = .ok (.report r) := by
  obtain ⟨form, hform⟩ := h.exists_hasForm
  obtain ⟨members, rfl, -⟩ := id hform
  simp only [ofJson, ofMembers, Json.hasForm_object.1 hform, (Report.ofMembers_eq_ok_iff hform).2 h]

/-- A value that claims a form without being a report is refused in this form. -/
theorem ofJson_of_not_isReport {v : Json} {form : Form} (hform : v.HasForm form)
    (h : ∀ r, ¬ v.IsReport r) : ∃ e, ofJson v = .error (form, e) := by
  obtain ⟨members, rfl, -⟩ := id hform
  rcases hr : Report.ofMembers form members with e | r
  · exact ⟨e, by simp only [ofJson, ofMembers, Json.hasForm_object.1 hform, hr]⟩
  · exact absurd ((Report.ofMembers_eq_ok_iff hform).1 hr) (h r)

theorem ofJson_eq_report_iff {v : Json} {r : Report} :
    ofJson v = .ok (.report r) ↔ v.IsReport r := by
  refine ⟨fun h => ?_, ofJson_of_isReport⟩
  by_contra hr
  by_cases hform : ∃ form, v.HasForm form
  · obtain ⟨form, hform⟩ := hform
    by_cases hother : ∃ r', v.IsReport r'
    · obtain ⟨r', hr'⟩ := hother
      rw [ofJson_of_isReport hr'] at h
      obtain ⟨⟩ := h
      exact hr hr'
    · obtain ⟨e, he⟩ := ofJson_of_not_isReport hform (not_exists.1 hother)
      rw [he] at h
      exact nomatch h
  · obtain ⟨d, hd, hnone⟩ := ofJson_of_not_hasForm (not_exists.1 hform)
    rw [hd] at h
    obtain ⟨⟩ := h
    exact nomatch hnone

/-- A line that is JSON is what its value says; a value that is refused makes the line malformed. -/
theorem ofLine_of_read {line : Text} {v : Json} (h : Json.read .ofReports line = .ok v)
    (number : Int) : ofLine number line =
      (ofJson v).mapError fun e => .malformed ⟨number, line, .document e.1 e.2⟩ := by
  rw [ofLine, h]
  rcases hv : ofJson v with ⟨form, e⟩ | d
  · simp only [hv, Except.mapError]
  · simp only [hv, Except.mapError]

/-- **A line is decoded by the grammar of reports.** A line whose value claims no form is no
report. One whose value claims a form is the report that its value is by the grammar, and is
malformed, with its number and its text, when the value is none. -/
theorem ofLine_iff_isReport {line : Text} {v : Json} (h : Json.read .ofReports line = .ok v)
    (number : Int) :
    ((∃ d, ofLine number line = .ok d ∧ d.report? = none) ↔ ∀ form, ¬ v.HasForm form) ∧
      (∀ r, ofLine number line = .ok (.report r) ↔ v.IsReport r) ∧
      ∀ form, v.HasForm form → (∀ r, ¬ v.IsReport r) →
        ∃ e, ofLine number line = .error (.malformed ⟨number, line, .document form e⟩) := by
  rw [ofLine_of_read h]
  refine ⟨⟨?_, fun hform => ?_⟩, fun r => ?_, fun form hform hno => ?_⟩
  · rintro ⟨d, hd, hnone⟩ form hform
    by_cases hr : ∃ r, v.IsReport r
    · obtain ⟨r, hr⟩ := hr
      rw [ofJson_of_isReport hr] at hd
      obtain rfl := Except.ok.inj hd
      exact nomatch hnone
    · obtain ⟨e, he⟩ := ofJson_of_not_isReport hform (not_exists.1 hr)
      rw [he] at hd
      exact nomatch hd
  · obtain ⟨d, hd, hnone⟩ := ofJson_of_not_hasForm hform
    exact ⟨d, by rw [hd]; rfl, hnone⟩
  · rw [← ofJson_eq_report_iff]
    rcases ofJson v with e | d
    · exact ⟨nofun, nofun⟩
    · simp only [Except.mapError, Except.ok.injEq]
  · obtain ⟨e, he⟩ := ofJson_of_not_isReport hform hno
    exact ⟨e, by rw [he]; rfl⟩

set_option maxRecDepth 2000 in
/-- A problem of the project with a styled message and no file is read from its line. -/
theorem ofLine_iff_isReport_styled :
    ∃ v, Json.read .ofReports
        "\x7b\"type\":\"error\",\"path\":null,\"title\":\"T\",\"message\":[\x7b\"bold\":1,\"string\":\"a\"\x7d]\x7d" =
        .ok v ∧ v.IsReport (.projectError ⟨none, "T", none, [.styled "a" ⟨true, false, none⟩]⟩) ∧
      ofLine 3
        "\x7b\"type\":\"error\",\"path\":null,\"title\":\"T\",\"message\":[\x7b\"bold\":1,\"string\":\"a\"\x7d]\x7d" =
        .ok (.report (.projectError ⟨none, "T", none, [.styled "a" ⟨true, false, none⟩]⟩)) := by
  have hstyle : Members.IsStyle [("bold", .integer 1), ("string", .string "a")]
      ⟨true, false, none⟩ := Members.isStyle_iff.2 rfl
  have hreport : Json.IsReport (.object [("type", .string "error"), ("path", .null),
      ("title", .string "T"),
      ("message", .list [.object [("bold", .integer 1), ("string", .string "a")]])])
      (.projectError ⟨none, "T", none, [.styled "a" ⟨true, false, none⟩]⟩) :=
    .projectError ⟨_, rfl, rfl⟩
      (.object .null rfl rfl (.list (.cons (.styled rfl hstyle) .nil)) .absent)
  exact ⟨_, rfl, hreport, ((ofLine_iff_isReport rfl 3).2.1 _).2 hreport⟩

end Document

end ElmReport
