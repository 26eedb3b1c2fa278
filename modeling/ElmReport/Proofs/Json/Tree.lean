import ElmReport.Proofs.Json.Reading

/-!
# JSON trees

A value forgets part of its text: of the pairs with the same name in an object only the last one
counts. A tree keeps all of them. It is a value as well, but one whose objects hold their pairs as
they are written, in their order and with their repetitions. Every text of a value spells a tree
that settles to this value.

## Main definitions

* `settled`: the value that a tree stands for.
* `SpellsTree`, `IsTextOf`: the texts of a tree, and the whole texts with blanks around them.
* `under?`: the value that counts under a name of a tree.

## Main results

* `get?_settled`: what counts under a name of a tree is what the settled object has there.
* `spells_iff_exists_tree`: a text of a value spells a tree that settles to it.
* `read_eq_ok_iff_exists_tree`: a text is read as what its tree settles to.
-/

namespace ElmReport

theorem Members.get?_map (name : Text) (f : Json → Json) (pairs : List (Text × Json)) :
    get? name (pairs.map fun m => (m.1, f m.2)) = (get? name pairs).map f := by
  induction pairs with
  | nil => rfl
  | cons m pairs ih =>
    rw [List.map_cons, get?, get?, ih]
    split <;> rfl

namespace Json

/-! ### Trees and their values -/

mutual

/-- The value that a tree stands for: at every level the last of the pairs with a name counts. -/
def settled : Json → Json
  | null => null
  | boolean b => boolean b
  | integer n => integer n
  | float x => float x
  | string t => string t
  | list items => list (settledItems items)
  | object pairs => object (Members.ofPairs (settledPairs pairs))

/-- The values that the items of a list stand for. -/
def settledItems : List Json → List Json
  | [] => []
  | v :: items => v.settled :: settledItems items

/-- The pairs of an object with the values that their trees stand for. -/
def settledPairs : List (Text × Json) → List (Text × Json)
  | [] => []
  | (name, v) :: pairs => (name, v.settled) :: settledPairs pairs

end

theorem settledItems_eq_map (items : List Json) : settledItems items = items.map settled := by
  induction items with
  | nil => rfl
  | cons v items ih => rw [settledItems, ih, List.map_cons]

/-- A pair with the value that its tree stands for. -/
def settledPair (pair : Text × Json) : Text × Json := (pair.1, pair.2.settled)

theorem settledPairs_eq_map (pairs : List (Text × Json)) :
    settledPairs pairs = pairs.map settledPair := by
  induction pairs with
  | nil => rfl
  | cons pair pairs ih => rw [settledPairs, ih, List.map_cons, settledPair]

@[simp] theorem settled_string (t : Text) : (string t).settled = string t := by rw [settled]

@[simp] theorem settled_null : null.settled = null := by rw [settled]

@[simp] theorem settled_list (items : List Json) :
    (list items).settled = list (items.map settled) := by
  rw [settled, settledItems_eq_map]

@[simp] theorem settled_object (pairs : List (Text × Json)) :
    (object pairs).settled = object (Members.ofPairs (pairs.map settledPair)) := by
  rw [settled, settledPairs_eq_map]

/-- A tree that stands for an object is one. -/
theorem exists_pairs_of_settled {tree : Json} {members : Members}
    (h : tree.settled = object members) : ∃ pairs, tree = object pairs ∧
      members = Members.ofPairs (pairs.map settledPair) := by
  cases tree with
  | object pairs =>
    rw [settled_object] at h
    exact ⟨pairs, rfl, (object.inj h).symm⟩
  | list items =>
    rw [settled_list] at h
    exact nomatch h
  | _ =>
    rw [settled] at h
    exact nomatch h

/-- A tree that stands for a list is one. -/
theorem exists_items_of_settled {tree : Json} {items : List Json} (h : tree.settled = list items) :
    ∃ trees, tree = list trees ∧ items = trees.map settled := by
  cases tree with
  | list trees =>
    rw [settled_list] at h
    exact ⟨trees, rfl, (list.inj h).symm⟩
  | object pairs =>
    rw [settled_object] at h
    exact nomatch h
  | _ =>
    rw [settled] at h
    exact nomatch h

/-- A value that is neither a list nor an object has no tree but itself. -/
theorem eq_of_settled_eq {tree v : Json} (h : tree.settled = v) (hlist : ∀ items, v ≠ list items)
    (hobject : ∀ pairs, v ≠ object pairs) : tree = v := by
  cases tree with
  | list trees =>
    rw [settled_list] at h
    exact absurd h.symm (hlist _)
  | object pairs =>
    rw [settled_object] at h
    exact absurd h.symm (hobject _)
  | _ =>
    rw [settled] at h
    exact h

/-! ### What counts under a name -/

/-- The value that counts under a name of a tree: the one of the last pair with this name. -/
def under? (name : Text) : Json → Option Json
  | object pairs => Members.get? name pairs.reverse
  | _ => none

/-- Something counts only under the names of an object. -/
theorem exists_pairs_of_under? {name : Text} {tree v : Json} (h : tree.under? name = some v) :
    ∃ pairs, tree = object pairs := by
  cases tree with
  | object pairs => exact ⟨pairs, rfl⟩
  | _ => exact nomatch h

/-- What counts under a name of a tree is what the settled object has there. -/
theorem get?_settled {tree : Json} {members : Members} (h : tree.settled = object members)
    (name : Text) : members.get? name = (tree.under? name).map settled := by
  obtain ⟨pairs, rfl, rfl⟩ := exists_pairs_of_settled h
  rw [Members.get?_ofPairs, ← List.map_reverse]
  exact Members.get?_map name settled pairs.reverse

/-! ### The texts of a tree -/

/-- What follows an opening bracket up to the closing one, given the texts of the trees inside. -/
inductive InsideTree (tree : Text → Json → Prop) : Bracket → Text → Json → Prop
  | list {t : Text} {items : List Json} (h : Enclosed tree (.scalar ']') t items) :
      InsideTree tree .list t (.list items)
  | object {t : Text} {pairs : List (Text × Json)}
      (h : Enclosed (IsMember tree) (.scalar '\x7d') t pairs) :
      InsideTree tree .object t (.object pairs)

/-- The texts of a tree inside which at most `depth` brackets are open at a time. -/
def SpellsTree (limits : Limits) : Nat → Text → Json → Prop
  | 0, s, tree => SpellsAtom limits s tree
  | depth + 1, s, tree =>
    SpellsAtom limits s tree ∨
      ∃ (bracket : Bracket) (b t : Text), s = bracket.left :: (b ++ t) ∧ IsBlanks b ∧
        InsideTree (SpellsTree limits depth) bracket t tree

/-- A value without brackets is its own tree. -/
theorem SpellsAtom.settled_eq {limits : Limits} {s : Text} {v : Json} (h : SpellsAtom limits s v) :
    v.settled = v := by
  cases h with
  | string => exact settled_string _
  | word h =>
    simp only [words, List.mem_cons, Prod.mk.injEq, List.not_mem_nil, or_false] at h
    rcases h with h | h | h | h | h | h <;> rw [h.2, settled]
  | number _ hv =>
    unfold NumberLiteral.value at hv
    split_ifs at hv <;> obtain rfl := Except.ok.inj hv <;> rw [settled]

section

variable {α β : Type} {entry : Text → α → Prop} {entry' : Text → β → Prop} {close : CodePoint}
  {t : Text} {f : α → β}

theorem Entries.map (h : ∀ s x, entry s x → entry' s (f x)) {xs : List α}
    (ht : Entries entry close t xs) : Entries entry' close t (xs.map f) := by
  induction ht with
  | last hs hb => exact .last (h _ _ hs) hb
  | cons hs hb hb' _ ih => exact .cons (h _ _ hs) hb hb' ih

theorem Enclosed.map (h : ∀ s x, entry s x → entry' s (f x)) {xs : List α}
    (ht : Enclosed entry close t xs) : Enclosed entry' close t (xs.map f) := by
  cases ht with
  | empty => exact .empty
  | entries ht => exact .entries (ht.map h)

theorem Entries.exists_map (h : ∀ s y, entry' s y → ∃ x, entry s x ∧ f x = y) {ys : List β}
    (ht : Entries entry' close t ys) : ∃ xs, Entries entry close t xs ∧ xs.map f = ys := by
  induction ht with
  | last hs hb =>
    obtain ⟨x, hx, rfl⟩ := h _ _ hs
    exact ⟨[x], .last hx hb, rfl⟩
  | cons hs hb hb' _ ih =>
    obtain ⟨x, hx, rfl⟩ := h _ _ hs
    obtain ⟨xs, hxs, rfl⟩ := ih
    exact ⟨x :: xs, .cons hx hb hb' hxs, rfl⟩

theorem Enclosed.exists_map (h : ∀ s y, entry' s y → ∃ x, entry s x ∧ f x = y) {ys : List β}
    (ht : Enclosed entry' close t ys) : ∃ xs, Enclosed entry close t xs ∧ xs.map f = ys := by
  cases ht with
  | empty => exact ⟨[], .empty, rfl⟩
  | entries ht =>
    obtain ⟨xs, hxs, hmap⟩ := ht.exists_map h
    exact ⟨xs, .entries hxs, hmap⟩

end

section

variable {value tree : Text → Json → Prop}

theorem IsMember.settle (h : ∀ s v, tree s v → value s v.settled) (s : Text)
    (pair : Text × Json) (hs : IsMember tree s pair) : IsMember value s (settledPair pair) := by
  obtain ⟨hname, hb, hb', hv⟩ := hs
  exact .intro hname hb hb' (h _ _ hv)

theorem IsMember.exists_tree (h : ∀ s v, value s v → ∃ w, tree s w ∧ w.settled = v)
    (s : Text) (member : Text × Json) (hs : IsMember value s member) :
    ∃ pair, IsMember tree s pair ∧ settledPair pair = member := by
  obtain ⟨hname, hb, hb', hv⟩ := hs
  obtain ⟨w, hw, rfl⟩ := h _ _ hv
  exact ⟨_, .intro hname hb hb' hw, rfl⟩

end

/-- A text of a value spells a tree that settles to it. -/
theorem spells_iff_exists_tree {limits : Limits} {depth : Nat} {s : Text} {v : Json} :
    Spells limits depth s v ↔ ∃ tree, SpellsTree limits depth s tree ∧ tree.settled = v := by
  induction depth generalizing s v with
  | zero =>
    constructor
    · intro h
      exact ⟨v, h, SpellsAtom.settled_eq h⟩
    · rintro ⟨tree, h, rfl⟩
      rw [SpellsAtom.settled_eq h]
      exact h
  | succ depth ih =>
    have hsettle (s : Text) (w : Json) (h : SpellsTree limits depth s w) :
        Spells limits depth s w.settled := ih.2 ⟨w, h, rfl⟩
    have htree (s : Text) (v : Json) (h : Spells limits depth s v) :
        ∃ w, SpellsTree limits depth s w ∧ w.settled = v := ih.1 h
    constructor
    · rintro (h | ⟨bracket, b, t, rfl, hb, h | h⟩)
      · exact ⟨v, .inl h, h.settled_eq⟩
      · obtain ⟨items, hitems, rfl⟩ := h.exists_map htree
        exact ⟨.list items, .inr ⟨_, b, t, rfl, hb, .list hitems⟩, settled_list items⟩
      · obtain ⟨pairs, hpairs, rfl⟩ := h.exists_map (IsMember.exists_tree htree)
        exact ⟨.object pairs, .inr ⟨_, b, t, rfl, hb, .object hpairs⟩, settled_object pairs⟩
    · rintro ⟨tree, h | ⟨bracket, b, t, rfl, hb, h | h⟩, rfl⟩
      · rw [h.settled_eq]
        exact .inl h
      · rw [settled_list]
        exact .inr ⟨_, b, t, rfl, hb, .list (h.map hsettle)⟩
      · rw [settled_object]
        exact .inr ⟨_, b, t, rfl, hb, .object (h.map (IsMember.settle hsettle))⟩

/-- A whole text spells a tree, with blanks around it. -/
def IsTextOf (limits : Limits) (t : Text) (tree : Json) : Prop :=
  ∃ b s b', t = b ++ (s ++ b') ∧ IsBlanks b ∧ IsBlanks b' ∧ SpellsTree limits limits.depth s tree

/-- A text is read as what its tree settles to. -/
theorem read_eq_ok_iff_exists_tree {limits : Limits} {t : Text} {v : Json} :
    read limits t = .ok v ↔ ∃ tree, IsTextOf limits t tree ∧ tree.settled = v := by
  rw [read_eq_ok_iff]
  constructor
  · rintro ⟨b, s, b', rfl, hb, hb', hs⟩
    obtain ⟨tree, htree, hv⟩ := spells_iff_exists_tree.1 hs
    exact ⟨tree, ⟨b, s, b', rfl, hb, hb', htree⟩, hv⟩
  · rintro ⟨tree, ⟨b, s, b', rfl, hb, hb', hs⟩, hv⟩
    exact ⟨b, s, b', rfl, hb, hb', spells_iff_exists_tree.2 ⟨tree, hs, hv⟩⟩

end Json

end ElmReport
