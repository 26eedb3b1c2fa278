import ElmReport.Proofs.Json.Delimited

/-!
# Blanks around a text

A value neither opens nor ends by a blank, so the blanks around it can be told from it. A text is
read as the same value with more blanks around it or with fewer, and no blanks turn a text that is
not read into one that is.

## Main definitions

* `EndsPlain`: the texts that end by something else than a blank.

## Main results

* `Spells.endsPlain`: values end so.
* `read_padded_iff`: blanks around a text do not matter.
-/

namespace ElmReport.Json

/-- A text that ends by a code point that is no blank. -/
def EndsPlain (t : Text) : Prop := ∃ u p, t = u ++ [p] ∧ isJsonBlank p = false

theorem EndsPlain.append {t : Text} (h : EndsPlain t) (s : Text) : EndsPlain (s ++ t) := by
  obtain ⟨u, p, rfl, hp⟩ := h
  exact ⟨s ++ u, p, (List.append_assoc s u [p]).symm, hp⟩

/-! ### How a value ends -/

theorem IsDigits.endsPlain {ds : Text} (h : IsDigits ds) (hne : ds ≠ []) : EndsPlain ds := by
  have hlast : (ds.getLast hne).isAsciiDigit = true := h _ (List.getLast_mem hne)
  refine ⟨ds.dropLast, ds.getLast hne, (List.dropLast_append_getLast hne).symm, ?_⟩
  exact not_isJsonBlank_of_opensValue (by simp [opensValue, hlast])

/-- A literal of a number ends by a digit: of its exponent, of its fraction or of its whole part. -/
theorem NumberLiteral.Spells.endsPlain {s : Text} {n : NumberLiteral} (h : n.Spells s) :
    EndsPlain s := by
  obtain ⟨hwhole, hf, hx⟩ := h
  refine .append ?_ _
  cases hx with
  | digits _ _ hne hds => exact (((hds.endsPlain hne).append (_ :: _)).append _).append _
  | absent =>
    rw [List.append_nil]
    cases hf with
    | digits hne hds => exact ((hds.endsPlain hne).append [_]).append _
    | absent =>
      obtain ⟨p, t, rfl, -⟩ := hwhole.exists_cons
      rw [List.append_nil]
      exact hwhole.isDigits.endsPlain (List.cons_ne_nil p t)

theorem SpellsAtom.endsPlain {limits : Limits} {s : Text} {v : Json} (h : SpellsAtom limits s v) :
    EndsPlain s := by
  cases h with
  | string => exact ⟨_ :: _, .scalar '\x22', (List.cons_append ..).symm, by decide⟩
  | word h =>
    simp only [words, List.mem_cons, Prod.mk.injEq, List.not_mem_nil, or_false] at h
    rcases h with ⟨rfl, -⟩ | ⟨rfl, -⟩ | ⟨rfl, -⟩ | ⟨rfl, -⟩ | ⟨rfl, -⟩ | ⟨rfl, -⟩ <;>
      exact ⟨_, _, (List.dropLast_append_getLast (by decide)).symm, by decide⟩
  | number h => exact h.endsPlain

theorem Entries.endsPlain {α : Type} {entry : Text → α → Prop} {close : CodePoint}
    (hclose : isJsonBlank close = false) {t : Text} {xs : List α} (h : Entries entry close t xs) :
    EndsPlain t := by
  induction h with
  | @last s b =>
    have hlast : EndsPlain [close] := ⟨[], close, rfl, hclose⟩
    exact (hlast.append b).append s
  | @cons s b b' t x xs _ _ _ _ ih => exact (((ih.append b').append [_]).append b).append s

theorem Enclosed.endsPlain {α : Type} {entry : Text → α → Prop} {close : CodePoint}
    (hclose : isJsonBlank close = false) {t : Text} {xs : List α} (h : Enclosed entry close t xs) :
    EndsPlain t := by
  cases h with
  | empty => exact ⟨[], close, rfl, hclose⟩
  | entries h => exact h.endsPlain hclose

/-- No value ends by a blank. -/
theorem Spells.endsPlain {limits : Limits} {depth : Nat} {s : Text} {v : Json}
    (h : Spells limits depth s v) : EndsPlain s := by
  cases depth with
  | zero => exact SpellsAtom.endsPlain h
  | succ depth =>
    rcases h with h | ⟨bracket, b, t, rfl, -, h | h⟩
    · exact h.endsPlain
    · exact ((h.endsPlain (by decide)).append b).append [_]
    · exact ((h.endsPlain (by decide)).append b).append [_]

/-! ### Blanks around a text -/

theorem IsBlanks.append {b b' : Text} (hb : IsBlanks b) (hb' : IsBlanks b') : IsBlanks (b ++ b') :=
  List.forall_mem_append.2 ⟨hb, hb'⟩

/-- Blanks in front of a text can be told from what does not open by a blank. -/
theorem exists_isBlanks_front {v t b s : Text} {p : CodePoint} (hv : IsBlanks v) (hb : IsBlanks b)
    (hp : isJsonBlank p = false) (h : v ++ t = b ++ p :: s) :
    ∃ b', IsBlanks b' ∧ t = b' ++ p :: s := by
  have hskip : skipBlanks t = p :: s := by
    rw [← skipBlanks_append hv, h, skipBlanks_append_cons hb hp]
  obtain ⟨b', hb', ht⟩ := exists_isBlanks_append_skipBlanks t
  exact ⟨b', hb', hskip ▸ ht⟩

/-- Blanks behind a text can be told from what does not end by a blank. -/
theorem exists_isBlanks_back {t w s b : Text} (hw : IsBlanks w) (hb : IsBlanks b)
    (hs : EndsPlain s) (h : t ++ w = s ++ b) : ∃ b', IsBlanks b' ∧ t = s ++ b' := by
  obtain ⟨u, p, rfl, hp⟩ := hs
  have hreverse (x : Text) (hx : IsBlanks x) : IsBlanks x.reverse :=
    fun q hq => hx q (List.mem_reverse.1 hq)
  have hback : w.reverse ++ t.reverse = b.reverse ++ p :: u.reverse := by
    simpa using congrArg List.reverse h
  obtain ⟨b', hb', ht⟩ := exists_isBlanks_front (hreverse w hw) (hreverse b hb) hp hback
  exact ⟨b'.reverse, hreverse b' hb', by simpa using congrArg List.reverse ht⟩

/-- Blanks around a text do not matter. -/
theorem read_padded_iff {limits : Limits} {v w : Text} (hv : IsBlanks v) (hw : IsBlanks w)
    (t : Text) {x : Json} : read limits (v ++ t ++ w) = .ok x ↔ read limits t = .ok x := by
  constructor
  · intro h
    obtain ⟨b, s, b', heq, hb, hb', hs⟩ := read_eq_ok_iff.1 h
    obtain ⟨c, hc, hfront⟩ : ∃ c, IsBlanks c ∧ t ++ w = c ++ (s ++ b') := by
      obtain ⟨p, u, rfl, hp⟩ := hs.exists_cons
      rw [List.append_assoc] at heq
      exact exists_isBlanks_front hv hb (not_isJsonBlank_of_opensValue hp) heq
    rw [← List.append_assoc] at hfront
    obtain ⟨c', hc', ht⟩ := exists_isBlanks_back hw hb' (hs.endsPlain.append c) hfront
    exact read_eq_ok_iff.2 ⟨c, s, c', by rw [ht, List.append_assoc], hc, hc', hs⟩
  · intro h
    obtain ⟨b, s, b', rfl, hb, hb', hs⟩ := read_eq_ok_iff.1 h
    exact read_eq_ok_iff.2 ⟨v ++ b, s, b' ++ w, by simp, hv.append hb, hb'.append hw, hs⟩

end ElmReport.Json
