import ElmReport.Proofs.Json.Written

/-!
# Reading what is written with indentation

The indented form of a value spells this value, whatever the width of the indentation and however
deep it starts, for the same values whose compact form does: what stands between the parts are
blanks.

## Main definitions

* `Json.indentedMember`: a member of an object, indented.

## Main results

* `Json.exists_bracketed_eq`: pieces between brackets, each on a line of its own.
* `Json.Fits.spells_indented`: the indented form of a value is spelled as it.
* `Json.Fits.read_indented_append`: it is read as the value, also with a line feed after it.
-/

namespace ElmReport.Json

theorem isBlanks_newLine (width level : Nat) : IsBlanks (newLine width level) := by
  intro p hp
  rcases List.mem_cons.1 hp with rfl | hp
  · decide
  · rw [List.eq_of_mem_replicate hp]
    decide

theorem indentedItems_eq_map (width level : Nat) (items : List Json) :
    indentedItems width level items = items.map (indented width level) := by
  induction items with
  | nil => rfl
  | cons v items ih => rw [indentedItems, ih, List.map_cons]

/-- A member of an object, indented. -/
def indentedMember (width level : Nat) (m : Text × Json) : Text :=
  stringLiteral m.1 ++ ((": " : Text) ++ m.2.indented width level)

theorem indentedMembers_eq_map (width level : Nat) (members : List (Text × Json)) :
    indentedMembers width level members = members.map (indentedMember width level) := by
  induction members with
  | nil => rfl
  | cons m members ih => rw [indentedMembers, ih, List.map_cons, indentedMember]

/-- Pieces that spell entries spell all of them when each stands on a line of its own. -/
theorem exists_bracketed_eq {α : Type} {entry : Text → α → Prop} {write : α → Text}
    {xs : List α} (h : ∀ x ∈ xs, entry (write x) x) (left : Text) (close : CodePoint)
    (width level : Nat) :
    ∃ b t, bracketed left [close] width level (xs.map write) = left ++ (b ++ t) ∧ IsBlanks b ∧
      Enclosed entry close t xs := by
  cases xs with
  | nil => exact ⟨[], [close], rfl, isBlanks_nil, .empty⟩
  | cons x xs =>
    refine ⟨newLine width (level + 1), _, ?_, isBlanks_newLine _ _,
      .entries (entries_join_append (isBlanks_newLine width (level + 1))
        (isBlanks_newLine width level) h)⟩
    rw [bracketed, if_neg (by simp)]
    simp only [List.append_assoc]

theorem isMember_indentedMember {value : Text → Json → Prop} {m : Text × Json}
    {width level : Nat} (hname : m.1.IsUnpaired) (hvalue : value (m.2.indented width level) m.2) :
    IsMember value (indentedMember width level m) m := by
  have hgap : IsBlanks [.scalar ' '] := List.forall_mem_singleton.2 rfl
  exact isMember_stringLiteral hname hgap hvalue

/-- The indented form of a value is spelled as it. -/
theorem Fits.spells_indented {limits : Limits} {depth : Nat} {v : Json}
    (h : Fits limits.digits depth v) (width level : Nat) :
    Spells limits depth (v.indented width level) v := by
  induction h generalizing level with
  | null => exact Fits.null.spells_compact
  | @boolean depth b =>
    have hatom : Spells limits depth (compact (.boolean b)) (.boolean b) :=
      (Fits.boolean b).spells_compact
    cases b <;> exact hatom
  | integer h => exact (Fits.integer h).spells_compact
  | string h => exact (Fits.string h).spells_compact
  | @list depth items h ih =>
    obtain ⟨b, t, ht, hb, hinside⟩ :=
      exists_bracketed_eq (fun v hv => ih v hv (level + 1)) "[" (.scalar ']') width level
    rw [indented, indentedItems_eq_map]
    exact .inr ⟨.list, b, t, ht, hb, .list hinside⟩
  | @object depth members hnames htexts h ih =>
    obtain ⟨b, t, ht, hb, henclosed⟩ := exists_bracketed_eq
      (fun m hm => isMember_indentedMember (htexts m hm) (ih m hm (level + 1))) "\x7b"
      (.scalar '\x7d') width level
    have hinside : Inside (Spells limits depth) .object t (.object (Members.ofPairs members)) :=
      .object henclosed
    rw [Members.ofPairs_of_nodup hnames] at hinside
    rw [indented, indentedMembers_eq_map]
    exact .inr ⟨.object, b, t, ht, hb, hinside⟩

/-- A value is read from its indented form with blanks after it. -/
theorem Fits.read_indented_append {limits : Limits} {v : Json}
    (h : Fits limits.digits limits.depth v) (width level : Nat) {b : Text} (hb : IsBlanks b) :
    read limits (v.indented width level ++ b) = .ok v :=
  read_eq_ok_iff.2 ⟨[], _, b, rfl, isBlanks_nil, hb, h.spells_indented width level⟩

end ElmReport.Json
