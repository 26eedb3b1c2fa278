import ElmReport.Batch.Run
import ElmReport.Proofs.Json.Indented
import Mathlib.Data.Nat.Digits.Defs

/-!
# What a batch run prints

The results of a batch run are written as one array with an object for every file. An indentation of
any width that the writer takes gives the same array, and it is read back from what is printed, as
long as no coordinate is too long and no text holds a pair of surrogates.

## Main definitions

* `FileDiagnostics.IsShort`: diagnostics whose coordinates have at most so many digits.
* `FileDiagnostics.HasUnpairedTexts`: diagnostics whose texts come back when they are read.
* `Batch.resultArray`: the results as an array.

## Main results

* `Batch.hasLongInteger_resultArray`: short coordinates leave no long integer.
* `Batch.fits_resultArray`: which results come back when they are read.
* `Batch.resultText_eq_ok`, `Batch.exists_resultText_eq_error`: what is printed, and when nothing
  is.
* `Batch.read_printed`: what is printed is read as the array of the results.
-/

namespace ElmReport

namespace Json

theorem anyLongItem_eq_any (digits : Nat) (items : List Json) :
    anyLongItem digits items = items.any (hasLongInteger digits) := by
  induction items with
  | nil => rfl
  | cons v items ih => rw [anyLongItem, ih, List.any_cons]

theorem anyLongMember_eq_any (digits : Nat) (members : List (Text × Json)) :
    anyLongMember digits members = members.any fun m => m.2.hasLongInteger digits := by
  induction members with
  | nil => rfl
  | cons m members ih => rw [anyLongMember, ih, List.any_cons]

/-- A list holds no long integer exactly when none of its items does. -/
theorem hasLongInteger_list {digits : Nat} {items : List Json} :
    (list items).hasLongInteger digits = false ↔
      ∀ v ∈ items, v.hasLongInteger digits = false := by
  change anyLongItem digits items = false ↔ _
  rw [anyLongItem_eq_any, List.any_eq_false]
  simp only [Bool.not_eq_true]

/-- An object holds no long integer exactly when none of its members does. -/
theorem hasLongInteger_object {digits : Nat} {members : List (Text × Json)} :
    (object members).hasLongInteger digits = false ↔
      ∀ m ∈ members, m.2.hasLongInteger digits = false := by
  change anyLongMember digits members = false ↔ _
  rw [anyLongMember_eq_any, List.any_eq_false]
  simp only [Bool.not_eq_true]

theorem hasLongInteger_integer {digits : Nat} {n : Int} :
    (integer n).hasLongInteger digits = false ↔ n.natAbs < 10 ^ digits := by
  change decide (10 ^ digits ≤ n.natAbs) = false ↔ _
  rw [decide_eq_false_iff_not, Nat.not_le]

theorem hasLongInteger_string {digits : Nat} {t : Text} :
    (string t).hasLongInteger digits = false := rfl

/-- An integer that is not long comes back when it is read. -/
theorem fits_integer {digits depth : Nat} (hdigits : 0 < digits) {n : Int}
    (h : n.natAbs < 10 ^ digits) : Fits digits depth (.integer n) := by
  refine .integer ?_
  rw [Text.ofNat, List.length_map]
  exact Nat.toDigits_length 10 _ digits hdigits h

/-- An object whose names are different and unpaired comes back when its values do. -/
theorem fits_object {digits depth : Nat} {members : List (Text × Json)} (names : List Text)
    (heq : members.map Prod.fst = names) (hnodup : names.Nodup)
    (hnames : ∀ name ∈ names, name.IsUnpaired) (h : ∀ m ∈ members, Fits digits depth m.2) :
    Fits digits (depth + 1) (.object members) := by
  subst heq
  exact .object hnodup (List.forall_mem_map.1 hnames) h

end Json

open Json

/-- Coordinates of at most so many digits. -/
def Position.IsShort (digits : Nat) (p : Position) : Prop :=
  p.line.natAbs < 10 ^ digits ∧ p.column.natAbs < 10 ^ digits

theorem Position.hasLongInteger_toJson {digits : Nat} {p : Position} :
    p.toJson.hasLongInteger digits = false ↔ p.IsShort digits := by
  simp only [toJson, hasLongInteger_object, List.forall_mem_cons, hasLongInteger_integer,
    List.not_mem_nil, false_imp_iff, implies_true, and_true, IsShort]

theorem Position.fits_toJson {digits depth : Nat} (hdigits : 0 < digits) {p : Position}
    (h : p.IsShort digits) : Fits digits (depth + 1) p.toJson :=
  fits_object ["line", "character"] rfl (by decide) (by decide) (List.forall_mem_cons.2
    ⟨fits_integer hdigits h.1, List.forall_mem_singleton.2 (fits_integer hdigits h.2)⟩)

/-- A range whose coordinates have at most so many digits. -/
def Range.IsShort (digits : Nat) (r : Range) : Prop :=
  r.start.IsShort digits ∧ r.stop.IsShort digits

theorem Range.hasLongInteger_toJson {digits : Nat} {r : Range} :
    r.toJson.hasLongInteger digits = false ↔ r.IsShort digits := by
  simp only [toJson, hasLongInteger_object, List.forall_mem_cons, Position.hasLongInteger_toJson,
    List.not_mem_nil, false_imp_iff, implies_true, and_true, IsShort]

theorem Range.fits_toJson {digits depth : Nat} (hdigits : 0 < digits) {r : Range}
    (h : r.IsShort digits) : Fits digits (depth + 2) r.toJson :=
  fits_object ["start", "end"] rfl (by decide) (by decide) (List.forall_mem_cons.2
    ⟨Position.fits_toJson hdigits h.1,
      List.forall_mem_singleton.2 (Position.fits_toJson hdigits h.2)⟩)

/-- The number of a severity is a single digit. -/
theorem Severity.code_lt (s : Severity) : s.code < 10 := by
  cases s <;> decide

theorem Severity.natAbs_code_lt {digits : Nat} (hdigits : 0 < digits) (s : Severity) :
    (s.code : Int).natAbs < 10 ^ digits :=
  Nat.lt_of_lt_of_le s.code_lt (Nat.le_self_pow (Nat.ne_of_gt hdigits) 10)

theorem Diagnostic.hasLongInteger_toJson {digits : Nat} (hdigits : 0 < digits) {d : Diagnostic} :
    d.toJson.hasLongInteger digits = false ↔ d.range.IsShort digits := by
  simp only [toJson, hasLongInteger_object, List.forall_mem_cons, Range.hasLongInteger_toJson,
    hasLongInteger_integer, d.severity.natAbs_code_lt hdigits, List.not_mem_nil, false_imp_iff,
    implies_true, and_true, hasLongInteger_string]

/-- A diagnostic whose message and source come back when they are read. -/
def Diagnostic.HasUnpairedTexts (d : Diagnostic) : Prop :=
  d.message.IsUnpaired ∧ d.source.IsUnpaired

theorem Diagnostic.fits_toJson {digits depth : Nat} (hdigits : 0 < digits) {d : Diagnostic}
    (h : d.range.IsShort digits) (htexts : d.HasUnpairedTexts) :
    Fits digits (depth + 3) d.toJson := by
  have hmembers : ∀ m ∈ [(("range" : Text), d.range.toJson), ("message", .string d.message),
      ("severity", .integer d.severity.code), ("source", .string d.source)],
      Fits digits (depth + 2) m.2 := by
    simp only [List.forall_mem_cons, List.not_mem_nil, false_imp_iff, implies_true, and_true]
    exact ⟨Range.fits_toJson hdigits h, .string htexts.1,
      fits_integer hdigits (d.severity.natAbs_code_lt hdigits), .string htexts.2⟩
  exact fits_object ["range", "message", "severity", "source"] rfl (by decide) (by decide) hmembers

namespace FileDiagnostics

/-- Diagnostics whose coordinates have at most so many digits. -/
def IsShort (digits : Nat) (f : FileDiagnostics) : Prop :=
  ∀ d ∈ f.diagnostics, d.range.IsShort digits

/-- Diagnostics whose texts come back when they are read. -/
def HasUnpairedTexts (f : FileDiagnostics) : Prop :=
  f.uri.IsUnpaired ∧ ∀ d ∈ f.diagnostics, d.HasUnpairedTexts

theorem hasLongInteger_toJson {digits : Nat} (hdigits : 0 < digits) {f : FileDiagnostics} :
    f.toJson.hasLongInteger digits = false ↔ f.IsShort digits := by
  simp only [toJson, hasLongInteger_object, List.forall_mem_cons, hasLongInteger_list,
    List.forall_mem_map, Diagnostic.hasLongInteger_toJson hdigits, List.not_mem_nil,
    false_imp_iff, implies_true, and_true, hasLongInteger_string, true_and, IsShort]

theorem fits_toJson {digits depth : Nat} (hdigits : 0 < digits) {f : FileDiagnostics}
    (h : f.IsShort digits) (htexts : f.HasUnpairedTexts) : Fits digits (depth + 5) f.toJson := by
  refine fits_object ["uri", "diagnostics"] rfl (by decide) (by decide) (List.forall_mem_cons.2
    ⟨.string htexts.1, List.forall_mem_singleton.2 (.list ?_)⟩)
  exact List.forall_mem_map.2 fun d hd =>
    Diagnostic.fits_toJson hdigits (h d hd) (htexts.2 d hd)

end FileDiagnostics

namespace Batch

/-! ### Results -/

/-- The results as an array. -/
def resultArray (results : List FileResult) : Json := .list (results.map FileResult.toJson)

/-- Results hold no long integer exactly when all their coordinates are short. -/
theorem hasLongInteger_resultArray {digits : Nat} (hdigits : 0 < digits)
    {results : List FileResult} :
    (resultArray results).hasLongInteger digits = false ↔
      ∀ r ∈ results, ∀ f ∈ r.files, f.IsShort digits := by
  simp only [resultArray, FileResult.toJson, hasLongInteger_list, hasLongInteger_object,
    List.forall_mem_map, List.forall_mem_cons, FileDiagnostics.hasLongInteger_toJson hdigits,
    List.not_mem_nil, false_imp_iff, implies_true, and_true, hasLongInteger_string, true_and]

/-- Results with short coordinates and unpaired texts come back when they are read. -/
theorem fits_resultArray {digits depth : Nat} (hdigits : 0 < digits) (hdepth : 8 ≤ depth)
    {results : List FileResult} (hshort : ∀ r ∈ results, ∀ f ∈ r.files, f.IsShort digits)
    (htexts : ∀ r ∈ results, r.path.text.IsUnpaired ∧ ∀ f ∈ r.files, f.HasUnpairedTexts) :
    Fits digits depth (resultArray results) := by
  obtain ⟨depth, rfl⟩ := Nat.exists_eq_add_of_le' hdepth
  refine .list (List.forall_mem_map.2 fun r hr => ?_)
  refine fits_object ["file", "groups"] rfl (by decide) (by decide) (List.forall_mem_cons.2
    ⟨.string (htexts r hr).1, List.forall_mem_singleton.2 (.list ?_)⟩)
  exact List.forall_mem_map.2 fun f hf =>
    FileDiagnostics.fits_toJson hdigits (hshort r hr f hf) ((htexts r hr).2 f hf)

/-- What is printed: the array of the results, indented, and a line feed. -/
def printed (width : Int) (results : List FileResult) : Text :=
  (resultArray results).indented width.toNat 0 ++ ("\n" : Text)

/-- Results with short coordinates are printed with an indentation of any width that the writer
takes. -/
theorem resultText_eq_ok {width : Int} (hlow : -widthBound ≤ width) (hhigh : width < widthBound)
    {results : List FileResult}
    (hshort : ∀ r ∈ results, ∀ f ∈ r.files, f.IsShort Arguments.digitLimit) :
    resultText (some width) results = .ok (printed width results) := by
  have hwidth : ¬ (widthBound ≤ width ∨ width < -widthBound) := by omega
  have hlong := (hasLongInteger_resultArray (by decide)).2 hshort
  rw [resultArray] at hlong
  simp only [resultText, if_neg hwidth, hlong, Bool.false_eq_true, if_false]
  rfl

/-- Otherwise nothing is printed: there is no indentation that the writer takes, or a coordinate is
too long. -/
theorem exists_resultText_eq_error {indent : Option Int} {results : List FileResult}
    (h : ∀ width, indent = some width → -widthBound ≤ width → width < widthBound →
      ¬ ∀ r ∈ results, ∀ f ∈ r.files, f.IsShort Arguments.digitLimit) :
    ∃ e, resultText indent results = .error e := by
  rcases indent with _ | width
  · exact ⟨_, rfl⟩
  by_cases hwidth : widthBound ≤ width ∨ width < -widthBound
  · exact ⟨_, if_pos hwidth⟩
  have hlong : (resultArray results).hasLongInteger Arguments.digitLimit = true := by
    rw [← Bool.not_eq_false, hasLongInteger_resultArray (by decide)]
    exact h width rfl (by omega) (by omega)
  rw [resultArray] at hlong
  refine ⟨.longInteger Arguments.digitLimit, ?_⟩
  simp only [resultText, if_neg hwidth, hlong, if_true]

/-- What is printed is read as the array of the results. -/
theorem read_printed {limits : Limits} (hdigits : 0 < limits.digits) (hdepth : 8 ≤ limits.depth)
    {results : List FileResult}
    (hshort : ∀ r ∈ results, ∀ f ∈ r.files, f.IsShort limits.digits)
    (htexts : ∀ r ∈ results, r.path.text.IsUnpaired ∧ ∀ f ∈ r.files, f.HasUnpairedTexts)
    (width : Int) : read limits (printed width results) = .ok (resultArray results) := by
  have hfeed : IsBlanks ("\n" : Text) := List.forall_mem_singleton.2 rfl
  exact (fits_resultArray hdigits hdepth hshort htexts).read_indented_append width.toNat 0 hfeed

end Batch

end ElmReport
