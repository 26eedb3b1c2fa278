import ElmReport.Proofs.Json.Overrun

/-!
# Values that end by themselves

A value with brackets is over at its closing bracket, whatever follows it. So a text that is read
as such a value is no longer read once it is cut before this bracket, or once anything but blanks
stands behind it. A cut text may only pass a limit where the whole text does not: a number that the
cut deprives of its fraction is a whole number, and whole numbers must not be too long.

## Main definitions

* `OpensBracket`: the texts that open with a bracket, blanks aside.
* `HoldsLongRow`: the texts with a row of digits that is too long for a whole number.

## Main results

* `read_append_of_opensBracket`: anything behind a value with brackets is a fault.
* `read_cut_ne_ok`: a value with brackets is not read when its end is cut off.
* `holdsLongRow_of_cut`: which limit a cut text may pass.
-/

namespace ElmReport.Json

/-- A text that opens with a bracket, blanks aside. -/
def OpensBracket (t : Text) : Prop :=
  ∃ (bracket : Bracket) (u : Text), skipBlanks t = bracket.left :: u

/-! ### What follows a value with brackets -/

theorem skipBlanks_append_of_cons {t u : Text} {p : CodePoint} (h : skipBlanks t = p :: u)
    (tail : Text) : skipBlanks (t ++ tail) = p :: u ++ tail := by
  obtain ⟨b, hb, heq⟩ := exists_isBlanks_append_skipBlanks t
  have hp : isJsonBlank p = false := by
    have hnot := List.head?_dropWhile_not isJsonBlank t
    rw [← skipBlanks, h] at hnot
    simpa using hnot
  rw [heq, h, List.append_assoc, List.cons_append, skipBlanks_append_cons hb hp]

/-- No value without brackets is an object. -/
theorem SpellsAtom.ne_object {limits : Limits} {s : Text} {v : Json} (h : SpellsAtom limits s v)
    (members : Members) : v ≠ .object members := by
  rintro rfl
  cases h with
  | word h => simp [words] at h
  | number _ hv =>
    unfold NumberLiteral.value at hv
    split_ifs at hv <;> cases hv

/-- An object opens with a bracket. -/
theorem opensBracket_of_read {limits : Limits} {t : Text} {members : Members}
    (h : read limits t = .ok (.object members)) : OpensBracket t := by
  obtain ⟨b, s, b', rfl, hb, -, hs⟩ := read_eq_ok_iff.1 h
  have hatom : ¬ SpellsAtom limits s (.object members) := fun h => h.ne_object members rfl
  generalize limits.depth = depth at hs
  cases depth with
  | zero => exact absurd hs hatom
  | succ depth =>
    obtain ⟨bracket, b₁, u, rfl, -, -⟩ := hs.resolve_left hatom
    have hblank := not_isJsonBlank_of_opensValue (opensValue_left bracket)
    exact ⟨bracket, _, skipBlanks_append_cons hb hblank _⟩

/-- A value with brackets is read up to its closing bracket, whatever follows. -/
theorem readValue_append_of_left {limits : Limits} {size depth : Nat} {bracket : Bracket}
    {s : Text} {v : Json} (h : Spells limits depth (bracket.left :: s) v)
    (hsize : s.length ≤ size) (rest : Text) :
    readValue limits size depth (bracket.left :: s ++ rest) = .ok (v, rest) := by
  have hatom : ¬ SpellsAtom limits (bracket.left :: s) v := by
    intro h
    obtain ⟨p, t, heq, -, hp⟩ := h.exists_cons
    exact hp bracket (List.cons.inj heq).1.symm
  cases depth with
  | zero => exact absurd h hatom
  | succ depth =>
    obtain ⟨bracket', b, t, heq, hb, hinside⟩ := h.resolve_left hatom
    obtain ⟨hbracket, rfl⟩ := List.cons.inj heq
    rw [hbracket, List.cons_append, readValue, opening?_left, List.append_assoc]
    exact (readsBy_readValue limits size depth).readInside_append hb hinside
      (by simp at hsize; omega) rest

/-- Anything but blanks behind a value with brackets is a fault. -/
theorem read_append_of_opensBracket {limits : Limits} {t tail : Text} {v : Json}
    (h : read limits t = .ok v) (hopens : OpensBracket t) (htail : ¬ IsBlanks tail) :
    read limits (t ++ tail) = .error (.fault .extraData) := by
  obtain ⟨b, s, b', rfl, hb, hb', hs⟩ := read_eq_ok_iff.1 h
  obtain ⟨bracket, u, hleft⟩ := hopens
  obtain ⟨p, s, rfl, hp⟩ := hs.exists_cons
  have hblank := not_isJsonBlank_of_opensValue hp
  rw [List.cons_append, skipBlanks_append_cons hb hblank] at hleft
  obtain rfl := (List.cons.inj hleft).1
  have htext : b ++ (bracket.left :: s ++ b') ++ tail =
      b ++ bracket.left :: (s ++ (b' ++ tail)) := by
    simp
  have hvalue : readValue limits (b ++ bracket.left :: (s ++ (b' ++ tail))).length limits.depth
      (bracket.left :: (s ++ (b' ++ tail))) = .ok (v, b' ++ tail) :=
    readValue_append_of_left hs (by simp; omega) (b' ++ tail)
  rw [htext, read_eq_readWhole hb hp, readWhole, skipBlanks_append_cons hb hblank, hvalue]
  have hrest : ¬ (skipBlanks (b' ++ tail)).isEmpty = true := by
    rw [skipBlanks_append hb']
    exact fun hempty => htail (isBlanks_of_isEmpty_skipBlanks hempty)
  simp only [if_neg hrest]

/-- A value with brackets is not read when its end is cut off. -/
theorem read_cut_ne_ok {limits : Limits} {cut tail : Text} {v : Json}
    (h : read limits (cut ++ tail) = .ok v) (hopens : OpensBracket (cut ++ tail))
    (htail : ¬ IsBlanks tail) (w : Json) : read limits cut ≠ .ok w := by
  intro hcut
  obtain ⟨b, s, b', rfl, hb, hb', hs⟩ := read_eq_ok_iff.1 hcut
  obtain ⟨p, s, rfl, hp⟩ := hs.exists_cons
  have hskip : skipBlanks (b ++ (p :: s ++ b')) = p :: (s ++ b') :=
    skipBlanks_append_cons hb (not_isJsonBlank_of_opensValue hp) _
  obtain ⟨bracket, u, hleft⟩ := hopens
  rw [skipBlanks_append_of_cons hskip] at hleft
  have hopens : OpensBracket (b ++ (p :: s ++ b')) :=
    ⟨bracket, s ++ b', by rw [hskip, (List.cons.inj hleft).1]⟩
  exact nomatch h.symm.trans (read_append_of_opensBracket hcut hopens htail)

/-! ### Limits that a cut text passes -/

section

variable {α : Type} {entry : Text → α → Prop} {value : Text → Json → Prop} {stop : Text → Prop}

theorem EntriesUpTo.append (hstop : ∀ {t : Text}, stop t → ∀ tail, stop (t ++ tail)) {t : Text}
    (h : EntriesUpTo entry stop t) (tail : Text) : EntriesUpTo entry stop (t ++ tail) := by
  induction h with
  | here h => exact .here (hstop h tail)
  | next hs hb hb' _ ih =>
    have hnext := EntriesUpTo.next hs hb hb' ih
    simpa using hnext

theorem MemberUpTo.append (hstop : ∀ {t : Text}, stop t → ∀ tail, stop (t ++ tail)) {t : Text}
    (h : MemberUpTo stop t) (tail : Text) : MemberUpTo stop (t ++ tail) := by
  obtain ⟨hname, hb, hb', ht⟩ := h
  have hmember := MemberUpTo.intro hname hb hb' (hstop ht tail)
  simpa using hmember

theorem InsideUpTo.append (hstop : ∀ {t : Text}, stop t → ∀ tail, stop (t ++ tail))
    {bracket : Bracket} {t : Text} (h : InsideUpTo value stop bracket t) (tail : Text) :
    InsideUpTo value stop bracket (t ++ tail) := by
  cases h with
  | list h => exact .list (h.append hstop tail)
  | object h => exact .object (h.append (fun hm => hm.append hstop) tail)

theorem EntriesUpTo.exists_suffix {t : Text} (h : EntriesUpTo entry stop t) :
    ∃ u, u <:+ t ∧ stop u := by
  induction h with
  | here h => exact ⟨_, List.suffix_rfl, h⟩
  | @next s b b' t x _ _ _ _ ih =>
    obtain ⟨u, ⟨a, rfl⟩, hu⟩ := ih
    exact ⟨u, ⟨s ++ (b ++ .scalar ',' :: (b' ++ a)), by simp⟩, hu⟩

theorem MemberUpTo.exists_suffix {t : Text} (h : MemberUpTo stop t) : ∃ u, u <:+ t ∧ stop u := by
  obtain @⟨body, name, b, b', t, -, -, -, ht⟩ := h
  exact ⟨t, ⟨.scalar '\x22' :: (body ++ .scalar '\x22' :: (b ++ .scalar ':' :: b')), by simp⟩, ht⟩

theorem InsideUpTo.exists_suffix {bracket : Bracket} {t : Text}
    (h : InsideUpTo value stop bracket t) : ∃ u, u <:+ t ∧ stop u := by
  cases h with
  | list h => exact h.exists_suffix
  | object h =>
    obtain ⟨u, hu, hmember⟩ := h.exists_suffix
    obtain ⟨w, hw, hstop⟩ := hmember.exists_suffix
    exact ⟨w, hw.trans hu, hstop⟩

end

/-- A nesting that is too deep is so whatever follows. -/
theorem Overruns.append_of_deepNesting {limits : Limits} {bracket : Bracket} {depth : Nat}
    {t : Text} (h : Overruns limits (.deepNesting bracket) depth t) (tail : Text) :
    Overruns limits (.deepNesting bracket) depth (t ++ tail) := by
  induction depth generalizing t tail with
  | zero =>
    rcases h with h | ⟨bracket', u, rfl, he⟩
    · cases h
    · exact .inr ⟨bracket', u ++ tail, rfl, he⟩
  | succ depth ih =>
    rcases h with h | ⟨bracket', b, u, rfl, hb, hu⟩
    · cases h
    · exact .inr ⟨bracket', b, u ++ tail, by simp, hb, hu.append (fun ht => ih ht) tail⟩

/-- Where a limit is passed, a whole number is too long or the nesting is too deep. -/
theorem Overruns.exists_suffix {limits : Limits} {e : LimitError} {depth : Nat} {t : Text}
    (h : Overruns limits e depth t) :
    ∃ u, u <:+ t ∧ (OpensLongInteger limits e u ∨ ∃ bracket, e = .deepNesting bracket) := by
  induction depth generalizing t with
  | zero =>
    rcases h with h | ⟨bracket, -, -, he⟩
    · exact ⟨t, List.suffix_rfl, .inl h⟩
    · exact ⟨t, List.suffix_rfl, .inr ⟨bracket, he⟩⟩
  | succ depth ih =>
    rcases h with h | ⟨bracket, b, u, rfl, -, hu⟩
    · exact ⟨t, List.suffix_rfl, .inl h⟩
    · obtain ⟨w, hw, hoverruns⟩ := hu.exists_suffix
      obtain ⟨x, hx, hlimit⟩ := ih hoverruns
      have hwhole : u <:+ bracket.left :: (b ++ u) := ⟨bracket.left :: b, by simp⟩
      exact ⟨x, (hx.trans hw).trans hwhole, hlimit⟩

/-- A text holds a row of digits that is longer than whole numbers may be, and `e` names it. -/
def HoldsLongRow (limits : Limits) (e : LimitError) (t : Text) : Prop :=
  ∃ ds, IsDigits ds ∧ limits.digits < ds.length ∧ ds <:+: t ∧
    e = .longInteger limits.digits ds.length

theorem NumberLiteral.IsWhole.isDigits {w : Text} (h : IsWhole w) : IsDigits w := by
  cases h with
  | zero => simp [IsDigits, CodePoint.isAsciiDigit]
  | digits _ hp ht =>
    intro q hq
    rcases List.mem_cons.1 hq with rfl | hq
    · exact hp
    · exact ht q hq

theorem OpensLongInteger.holdsLongRow {limits : Limits} {e : LimitError} {t : Text}
    (h : OpensLongInteger limits e t) : HoldsLongRow limits e t := by
  obtain ⟨⟨hwhole, -, -⟩, -, -, hlong⟩ := h
  rename_i rest negative whole fraction f x exponent
  exact ⟨whole, hwhole.isDigits, hlong,
    ⟨NumberLiteral.minus negative, f ++ x ++ rest, by simp⟩, rfl⟩

/-- A text that is read passes no limit when its end is cut off, unless a long row of digits is
left. -/
theorem holdsLongRow_of_cut {limits : Limits} {cut tail : Text} {v : Json} {e : LimitError}
    (h : read limits (cut ++ tail) = .ok v) (hcut : PassesLimit limits e cut) :
    HoldsLongRow limits e cut := by
  obtain ⟨b, u, rfl, hb, hu⟩ := hcut
  obtain ⟨w, hw, hlong | ⟨bracket, rfl⟩⟩ := hu.exists_suffix
  · obtain ⟨ds, hds, hlength, hinfix, he⟩ := hlong.holdsLongRow
    exact ⟨ds, hds, hlength, hinfix.trans (hw.trans (List.suffix_append b u)).isInfix, he⟩
  · have hwhole : PassesLimit limits (.deepNesting bracket) (b ++ u ++ tail) :=
      ⟨b, u ++ tail, by simp, hb, hu.append_of_deepNesting tail⟩
    exact nomatch h.symm.trans (read_eq_limit_iff.2 hwhole)

end ElmReport.Json
