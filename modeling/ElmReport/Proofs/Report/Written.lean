import ElmReport.Proofs.Json.Written
import ElmReport.Proofs.Report.Grammar

/-!
# The line of a report

The compiler's side of the wire: every report has a document, written without blanks on a line. A
part that is absent is written as null. The line is read as the report that was written, whatever
its texts and coordinates, with two provisos that the reader sets: no text holds a pair of
surrogates, and no coordinate is longer than the integers that are read.

## Main definitions

* `Report.document`, `Report.line`: the document of a report, and its line.
* `Report.texts`, `Report.numbers`: all texts and all coordinates of a report.

## Main results

* `Report.isReport_document`: the document of a report says this report.
* `Report.fits_document`: the document comes back when it is written and read.
* `Document.ofLine_line`: the line of a report is read as the report.
-/

namespace ElmReport

/-! ### Documents -/

/-- Members with names of the library. -/
def Members.ofFields (fields : List (String × Json)) : Members :=
  fields.map fun f => ((f.1 : Text), f.2)

theorem Text.ofString_injective : Function.Injective ofString := fun _ _ h =>
  String.toList_inj.1 (List.map_injective_iff.2 (fun _ _ hc => CodePoint.scalar.inj hc) h)

theorem Members.get?_ofFields (name : String) (fields : List (String × Json)) :
    get? name (ofFields fields) = fields.lookup name := by
  induction fields with
  | nil => rfl
  | cons f fields ih =>
    have hcons : ofFields (f :: fields) = ((f.1 : Text), f.2) :: ofFields fields := rfl
    rw [hcons, get?, ih, List.lookup_cons]
    by_cases h : name = f.1
    · simp [h]
    · rw [if_neg fun e => h (Text.ofString_injective e).symm, beq_eq_false_iff_ne.2 h]

/-- The document of a part that may be absent. -/
def Json.orNull {α : Type} (document : α → Json) : Option α → Json
  | none => .null
  | some a => document a

/-- The document of a position. -/
def Position.document (p : Position) : Json :=
  .object (Members.ofFields [("line", .integer p.line), ("column", .integer p.column)])

/-- The document of a region. -/
def Region.document (r : Region) : Json :=
  .object (Members.ofFields [("start", r.start.document), ("end", r.stop.document)])

/-- The document of a piece of a message. -/
def Fragment.document : Fragment → Json
  | plain t => .string t
  | styled t style =>
    .object (Members.ofFields [("bold", .boolean style.bold),
      ("underline", .boolean style.underline), ("color", Json.orNull .string style.color),
      ("string", .string t)])

/-- The document of a message. -/
def Fragment.messageDocument (message : List Fragment) : Json := .list (message.map document)

/-- The document of a problem. -/
def Problem.document (p : Problem) : Json :=
  .object (Members.ofFields [("title", .string p.title), ("region", p.region.document),
    ("message", Fragment.messageDocument p.message)])

/-- The document of the problems of a file. -/
def FileErrors.document (f : FileErrors) : Json :=
  .object (Members.ofFields [("path", .string f.path), ("name", Json.orNull .string f.name),
    ("problems", .list (f.problems.map Problem.document))])

namespace Report

/-- The document of a report. -/
def document : Report → Json
  | compileErrors files =>
    .object (Members.ofFields [("type", .string Document.Form.compileErrors.tag),
      ("errors", .list (files.map FileErrors.document))])
  | projectError e =>
    .object (Members.ofFields [("type", .string Document.Form.projectError.tag),
      ("path", Json.orNull .string e.path), ("title", .string e.title),
      ("message", Fragment.messageDocument e.message),
      ("region", Json.orNull Region.document e.region)])

/-- The line of a report. -/
def line (r : Report) : Text := r.document.compact

end Report

/-! ### What the documents say -/

theorem Position.isPosition_document (p : Position) : p.document.IsPosition p :=
  .object (Members.get?_ofFields _ _) (Members.get?_ofFields _ _)

theorem Region.isRegion_document (r : Region) : r.document.IsRegion r :=
  .object (Members.get?_ofFields _ _) r.start.isPosition_document (Members.get?_ofFields _ _)
    r.stop.isPosition_document

section

variable {α : Type} {denotes : Json → α → Prop} {document : α → Json}

theorem forall₂_map_document (h : ∀ a, denotes (document a) a) (xs : List α) :
    List.Forall₂ denotes (xs.map document) xs :=
  List.forall₂_map_left_iff.2 (List.forall₂_same.2 fun a _ => h a)

theorem Members.optionally_orNull (h : ∀ a, denotes (document a) a) (x : Option α) :
    Optionally denotes (some (Json.orNull document x)) x := by
  cases x with
  | none => exact .null
  | some a => exact .present (h a)

end

theorem some_orNull_string_iff {t : Option Text} {u : Text} :
    some (Json.orNull .string t) = some (.string u) ↔ t = some u := by
  cases t <;> simp [Json.orNull]

theorem Fragment.isFragment_document (f : Fragment) : f.document.IsFragment f := by
  cases f with
  | plain t => exact .plain t
  | styled t style =>
    refine .styled (Members.get?_ofFields _ _) ⟨?_, ?_, fun c => ?_⟩
    · rw [Members.get?_ofFields]
      simp [Json.isTrue]
    · rw [Members.get?_ofFields]
      simp [List.lookup_cons, Json.isTrue]
    · rw [Members.get?_ofFields]
      exact some_orNull_string_iff.symm

theorem Fragment.isMessage_document (message : List Fragment) :
    (messageDocument message).IsMessage message :=
  .list (forall₂_map_document isFragment_document message)

theorem Problem.isProblem_document (p : Problem) : p.document.IsProblem p :=
  .object (Members.get?_ofFields _ _) (Members.get?_ofFields _ _) p.region.isRegion_document
    (Members.get?_ofFields _ _) (Fragment.isMessage_document p.message)

theorem FileErrors.isFileErrors_document (f : FileErrors) : f.document.IsFileErrors f := by
  refine .object (Members.get?_ofFields _ _) (fun n => ?_) (Members.get?_ofFields _ _)
    (forall₂_map_document Problem.isProblem_document f.problems)
  rw [Members.get?_ofFields]
  exact some_orNull_string_iff.symm

/-- The document of a report says this report. -/
theorem Report.isReport_document (r : Report) : r.document.IsReport r := by
  cases r with
  | compileErrors files =>
    exact .compileErrors ⟨_, rfl, Members.get?_ofFields _ _⟩ (Members.get?_ofFields _ _)
      (forall₂_map_document FileErrors.isFileErrors_document files)
  | projectError e =>
    refine .projectError ⟨_, rfl, Members.get?_ofFields _ _⟩
      (.object ?_ (Members.get?_ofFields _ _) (Members.get?_ofFields _ _)
        (Fragment.isMessage_document e.message) ?_)
    · rw [Members.get?_ofFields]
      exact Members.optionally_orNull Json.IsText.string e.path
    · rw [Members.get?_ofFields]
      exact Members.optionally_orNull Region.isRegion_document e.region

/-! ### Texts and coordinates -/

/-- The coordinates of a position. -/
def Position.numbers (p : Position) : List Int := [p.line, p.column]

/-- The coordinates of a region. -/
def Region.numbers (r : Region) : List Int := r.start.numbers ++ r.stop.numbers

/-- The texts of a piece of a message. -/
def Fragment.texts : Fragment → List Text
  | plain t => [t]
  | styled t style => t :: style.color.toList

/-- The texts of a problem. -/
def Problem.texts (p : Problem) : List Text := p.title :: p.message.flatMap Fragment.texts

/-- The texts of the problems of a file. -/
def FileErrors.texts (f : FileErrors) : List Text :=
  f.path :: (f.name.toList ++ f.problems.flatMap Problem.texts)

/-- The coordinates of the problems of a file. -/
def FileErrors.numbers (f : FileErrors) : List Int := f.problems.flatMap fun p => p.region.numbers

namespace Report

/-- All texts of a report. -/
def texts : Report → List Text
  | compileErrors files => files.flatMap FileErrors.texts
  | projectError e => e.path.toList ++ e.title :: e.message.flatMap Fragment.texts

/-- All coordinates of a report. -/
def numbers : Report → List Int
  | compileErrors files => files.flatMap FileErrors.numbers
  | projectError e => e.region.toList.flatMap Region.numbers

end Report

/-! ### The documents come back -/

open Json

section

variable {digits : Nat}

/-- An object of fields comes back when no name is given twice and every field does. -/
theorem Json.Fits.fields {depth : Nat} {fields : List (String × Json)}
    (hnames : (fields.map Prod.fst).Nodup) (h : fields.Forall fun f => Fits digits depth f.2) :
    Fits digits (depth + 1) (.object (Members.ofFields fields)) := by
  have hfields := List.forall_iff_forall_mem.1 h
  refine .object ?_ ?_ ?_
  · simpa [Members.ofFields, Function.comp_def] using hnames.map Text.ofString_injective
  · intro m hm
    obtain ⟨f, -, rfl⟩ := List.mem_map.1 hm
    exact Text.isUnpaired_of_isScalar (Text.isScalar_ofString f.1)
  · intro m hm
    obtain ⟨f, hf, rfl⟩ := List.mem_map.1 hm
    exact hfields f hf

theorem Json.Fits.orNull {α : Type} {document : α → Json} {depth : Nat} {x : Option α}
    (h : ∀ a ∈ x, Fits digits depth (document a)) : Fits digits depth (Json.orNull document x) := by
  cases x with
  | none => exact .null
  | some a => exact h a rfl

theorem Json.Fits.orNull_string {depth : Nat} {t : Option Text} (h : ∀ a ∈ t, a.IsUnpaired) :
    Fits digits depth (Json.orNull .string t) :=
  .orNull fun a ha => .string (h a ha)

theorem Position.fits_document {p : Position}
    (h : ∀ n ∈ p.numbers, (Text.ofNat n.natAbs).length ≤ digits) (depth : Nat) :
    Fits digits (depth + 1) p.document :=
  .fields (by simp) ⟨.integer (h _ (by simp [numbers])), .integer (h _ (by simp [numbers]))⟩

theorem Region.fits_document {r : Region}
    (h : ∀ n ∈ r.numbers, (Text.ofNat n.natAbs).length ≤ digits) (depth : Nat) :
    Fits digits (depth + 2) r.document :=
  .fields (by simp) ⟨r.start.fits_document (fun n hn => h n (by simp [numbers, hn])) depth,
    r.stop.fits_document (fun n hn => h n (by simp [numbers, hn])) depth⟩

theorem Fragment.fits_document {f : Fragment} (h : ∀ t ∈ f.texts, t.IsUnpaired) (depth : Nat) :
    Fits digits (depth + 1) f.document := by
  cases f with
  | plain t => exact .string (h t (by simp [texts]))
  | styled t style =>
    exact .fields (by simp) ⟨.boolean _, .boolean _,
      .orNull_string fun c hc => h c (by simp_all [texts]), .string (h t (by simp [texts]))⟩

theorem Fragment.fits_messageDocument {message : List Fragment}
    (h : ∀ t ∈ message.flatMap texts, t.IsUnpaired) (depth : Nat) :
    Fits digits (depth + 2) (messageDocument message) := by
  refine .list fun v hv => ?_
  obtain ⟨f, hf, rfl⟩ := List.mem_map.1 hv
  exact f.fits_document (fun t ht => h t (List.mem_flatMap.2 ⟨f, hf, ht⟩)) depth

theorem Problem.fits_document {p : Problem} (htexts : ∀ t ∈ p.texts, t.IsUnpaired)
    (hnumbers : ∀ n ∈ p.region.numbers, (Text.ofNat n.natAbs).length ≤ digits) (depth : Nat) :
    Fits digits (depth + 3) p.document :=
  .fields (by simp) ⟨.string (htexts _ (by simp [texts])), p.region.fits_document hnumbers depth,
    Fragment.fits_messageDocument (fun t ht => htexts t (by simp [texts, ht])) depth⟩

theorem FileErrors.fits_document {f : FileErrors} (htexts : ∀ t ∈ f.texts, t.IsUnpaired)
    (hnumbers : ∀ n ∈ f.numbers, (Text.ofNat n.natAbs).length ≤ digits) (depth : Nat) :
    Fits digits (depth + 5) f.document := by
  refine .fields (by simp) ⟨.string (htexts _ (by simp [texts])),
    .orNull_string fun n hn => htexts n (by simp_all [texts]), .list fun v hv => ?_⟩
  obtain ⟨p, hp, rfl⟩ := List.mem_map.1 hv
  have hmem {β : Type} {g : Problem → List β} {b : β} (hb : b ∈ g p) : b ∈ f.problems.flatMap g :=
    List.mem_flatMap.2 ⟨p, hp, hb⟩
  exact p.fits_document
    (fun t ht => htexts t (List.mem_cons_of_mem _ (List.mem_append_right _ (hmem ht))))
    (fun n hn => hnumbers n (hmem hn)) depth

/-- The document of a report comes back when it is written and read. -/
theorem Report.fits_document {r : Report} (htexts : ∀ t ∈ r.texts, t.IsUnpaired)
    (hnumbers : ∀ n ∈ r.numbers, (Text.ofNat n.natAbs).length ≤ digits) (depth : Nat) :
    Fits digits (depth + 7) r.document := by
  have htag (form : Document.Form) : form.tag.IsUnpaired :=
    Text.isUnpaired_of_isScalar (by cases form <;> exact Text.isScalar_ofString _)
  cases r with
  | compileErrors files =>
    refine .fields (by simp) ⟨.string (htag _), .list fun v hv => ?_⟩
    obtain ⟨f, hf, rfl⟩ := List.mem_map.1 hv
    exact f.fits_document (fun t ht => htexts t (List.mem_flatMap.2 ⟨f, hf, ht⟩))
      (fun n hn => hnumbers n (List.mem_flatMap.2 ⟨f, hf, hn⟩)) depth
  | projectError e =>
    refine .fields (by simp) ⟨.string (htag _),
      .orNull_string fun t ht => htexts t (by simp_all [texts]),
      .string (htexts _ (by simp [texts])),
      Fragment.fits_messageDocument (fun t ht => htexts t ?_) (depth + 4),
      .orNull fun r hr => r.fits_document (fun n hn => hnumbers n ?_) (depth + 4)⟩
    · exact List.mem_append_right _ (List.mem_cons_of_mem _ ht)
    · exact List.mem_flatMap.2 ⟨r, Option.mem_toList.2 hr, hn⟩

end

namespace Document

/-- **The line of a report is read as the report.** Any number of files, problems and pieces comes
back, with texts in which no surrogates make a pair and with coordinates of at most 4300 digits. -/
theorem ofLine_line {r : Report} (htexts : ∀ t ∈ r.texts, t.IsUnpaired)
    (hnumbers : ∀ n ∈ r.numbers, (Text.ofNat n.natAbs).length ≤ 4300) (number : Int) :
    ofLine number r.line = .ok (.report r) := by
  have hread : Json.read .ofReports r.line = .ok r.document :=
    Json.Fits.read_compact (Report.fits_document htexts hnumbers 973)
  rw [ofLine_of_read hread, ofJson_of_isReport r.isReport_document]
  rfl

/-- A file without a name, whose problem has a surrogate that stands alone, a styled piece and a
negative line, is read from its line. -/
theorem ofLine_line_surrogate :
    let r : Report := .compileErrors [⟨"src/A.elm", none, [⟨[.surrogate 0, .scalar '\x22'],
      ⟨⟨-7, 0⟩, ⟨2, 3⟩⟩, [.plain "a\n", .styled [.ofNat 0x1F600] ⟨true, false, some "RED"⟩]⟩]⟩]
    (∀ t ∈ r.texts, t.IsUnpaired) ∧ (∀ n ∈ r.numbers, (Text.ofNat n.natAbs).length ≤ 4300) ∧
      ofLine 3 r.line = .ok (.report r) := by
  intro r
  have htexts : ∀ t ∈ r.texts, t.IsUnpaired := by decide
  have hnumbers : ∀ n ∈ r.numbers, (Text.ofNat n.natAbs).length ≤ 4300 := by decide
  exact ⟨htexts, hnumbers, ofLine_line htexts hnumbers 3⟩

end Document

end ElmReport
