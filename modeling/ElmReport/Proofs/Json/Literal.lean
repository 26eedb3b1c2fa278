import ElmReport.Proofs.Json.Grammar
import ElmReport.Proofs.Outcome

/-!
# Reading literals by the grammar

Strings, numbers and words are read exactly as they are spelled. A string is read up to its closing
quote whatever follows it; a number is read up to where its literal cannot go on.

## Main results

* `StringLiteral.exists_spells_of_scan`, `StringLiteral.Spells.scan_append`: strings.
* `NumberLiteral.scan?_eq_some_iff`: numbers.
* `exists_spellsAtom_of_readAtom`, `SpellsAtom.readAtom_append`: values without brackets.
-/

namespace ElmReport.Json

open Outcome

/-! ### Strings -/

namespace StringLiteral

theorem continued_eq_ok_iff {done s rest : Text} {r : Except Fault (Text × Text)} :
    continued done r = .ok (s, rest) ↔ ∃ t, r = .ok (t, rest) ∧ s = done ++ t := by
  rw [continued, map_eq_ok_iff]
  constructor
  · rintro ⟨⟨t, rest'⟩, rfl, h⟩
    obtain ⟨rfl, rfl⟩ := Prod.mk.inj h
    exact ⟨t, rfl, rfl⟩
  · rintro ⟨t, rfl, rfl⟩
    exact ⟨(t, rest), rfl, rfl⟩

/-- After the escape of an opening surrogate either the pair is closed, or the surrogate stands
alone and no closing one follows before the quote. -/
private theorem afterHigh_cases {high q : CodePoint} {t : Text} {width : Nat}
    (h : afterHigh high t = .ok (q, width)) :
    (q = high ∧ width = 5 ∧
        ∀ body tail, t = body ++ .scalar '\x22' :: tail → ¬ ClosesPair high body) ∨
      ∃ a b c d m rest, t = .scalar '\x5c' :: .scalar 'u' :: a :: b :: c :: d :: rest ∧
        hexValue? a b c d = some m ∧ CodePoint.pair? high (.ofNat m) = some q ∧ width = 11 := by
  unfold afterHigh at h
  split at h
  · next a b c d x rest =>
    rcases hm : hexValue? a b c d with _ | m
    · simp [hm] at h
    · rcases hq : CodePoint.pair? high (.ofNat m) with _ | p
      · simp only [hm, hq, Except.ok.injEq, Prod.mk.injEq] at h
        refine .inl ⟨h.1.symm, h.2.symm, ?_⟩
        rintro body tail heq ⟨a', b', c', d', rest', m', q', rfl, hm', hq'⟩
        simp only [List.cons_append, List.cons.injEq, true_and] at heq
        obtain ⟨rfl, rfl, rfl, rfl, -⟩ := heq
        obtain rfl : m = m' := Option.some.inj (hm.symm.trans hm')
        exact nomatch hq.symm.trans hq'
      · simp only [hm, hq, Except.ok.injEq, Prod.mk.injEq] at h
        exact .inr ⟨a, b, c, d, m, x :: rest, rfl, hm, by rw [hq, h.1], h.2.symm⟩
  · next hno =>
    simp only [Except.ok.injEq, Prod.mk.injEq] at h
    refine .inl ⟨h.1.symm, h.2.symm, ?_⟩
    rintro body tail rfl ⟨a, b, c, d, rest, m, q', rfl, -, -⟩
    rcases rest with _ | ⟨x, rest⟩
    · exact hno a b c d _ _ rfl
    · exact hno a b c d _ _ rfl

/-- An escape that is read is one letter, four digits, or two times four digits for a pair of
surrogates. Four digits alone are not followed by the second half of a pair. -/
theorem escape_cases {t : Text} {q : CodePoint} {width : Nat} (h : escape t = .ok (q, width)) :
    (∃ p rest, t = p :: rest ∧ shortEscape? p = some q ∧ width = 1) ∨
      (∃ a b c d n rest, t = .scalar 'u' :: a :: b :: c :: d :: rest ∧
        hexValue? a b c d = some n ∧ q = .ofNat n ∧ width = 5 ∧
        ∀ body tail, rest = body ++ .scalar '\x22' :: tail → ¬ ClosesPair (.ofNat n) body) ∨
      ∃ a b c d n a' b' c' d' m rest,
        t = .scalar 'u' :: a :: b :: c :: d ::
          .scalar '\x5c' :: .scalar 'u' :: a' :: b' :: c' :: d' :: rest ∧
        hexValue? a b c d = some n ∧ hexValue? a' b' c' d' = some m ∧
        CodePoint.pair? (.ofNat n) (.ofNat m) = some q ∧ width = 11 := by
  unfold escape at h
  split at h
  · exact nomatch h
  · split at h
    · next a b c d x rest =>
      right
      rcases hn : hexValue? a b c d with _ | n
      · simp [hn] at h
      · simp only [hn] at h
        split_ifs at h with hhigh
        · rcases afterHigh_cases h with ⟨hq, hw, hno⟩ | ⟨a', b', c', d', m, rest', ht, hm, hq, hw⟩
          · exact .inl ⟨a, b, c, d, n, x :: rest, rfl, hn, hq, hw, hno⟩
          · exact .inr ⟨a, b, c, d, n, a', b', c', d', m, rest', by rw [ht], hn, hm, hq, hw⟩
        · simp only [Except.ok.injEq, Prod.mk.injEq] at h
          refine .inl ⟨a, b, c, d, n, x :: rest, rfl, hn, h.1.symm, h.2.symm, ?_⟩
          rintro body tail - ⟨_, _, _, _, _, m, p, -, -, hp⟩
          simp [CodePoint.pair?, hhigh] at hp
    · exact nomatch h
  · next p rest hp =>
    rcases hs : shortEscape? p with _ | q'
    · simp [hs] at h
    · simp only [hs, Except.ok.injEq, Prod.mk.injEq] at h
      exact .inl ⟨p, rest, rfl, by rw [hs, h.1], h.2.symm⟩

/-- What is read up to the closing quote is spelled there. -/
theorem exists_spells_of_scan {t s rest : Text} (h : scan t = .ok (s, rest)) :
    ∃ body, t = body ++ .scalar '\x22' :: rest ∧ Spells body s := by
  -- An escape takes up several code points, so the induction is on the length of the text.
  induction hk : t.length using Nat.strong_induction_on generalizing t s with
  | _ k ih =>
    rcases t with _ | ⟨p, t⟩
    · exact nomatch h
    · by_cases hquote : p = .scalar '\x22'
      · subst hquote
        rw [scan_quote, Except.ok.injEq, Prod.mk.injEq] at h
        obtain ⟨rfl, rfl⟩ := h
        exact ⟨[], rfl, .nil⟩
      · by_cases hbackslash : p = .scalar '\x5c'
        · subst hbackslash
          rw [scan_backslash] at h
          rcases he : escape t with e | ⟨q, width⟩
          · simp [he] at h
          · simp only [he] at h
            obtain ⟨s', hs', rfl⟩ := continued_eq_ok_iff.1 h
            obtain ⟨body, hbody, hspells⟩ := ih _ (by simp at hk ⊢; omega) hs' rfl
            rcases escape_cases he with ⟨p, rest', rfl, hp, rfl⟩ |
              ⟨a, b, c, d, n, rest', rfl, hn, rfl, rfl, hno⟩ |
              ⟨a, b, c, d, n, a', b', c', d', m, rest', rfl, hn, hm, hq, rfl⟩
            · obtain rfl : rest' = body ++ .scalar '\x22' :: rest := hbody
              exact ⟨_ :: p :: body, rfl, .short hp hspells⟩
            · obtain rfl : rest' = body ++ .scalar '\x22' :: rest := hbody
              exact ⟨_ :: _ :: a :: b :: c :: d :: body, rfl,
                .unicode hn (hno body rest rfl) hspells⟩
            · obtain rfl : rest' = body ++ .scalar '\x22' :: rest := hbody
              exact ⟨_ :: _ :: a :: b :: c :: d :: _ :: _ :: a' :: b' :: c' :: d' :: body, rfl,
                .pair hn hm hq hspells⟩
        · by_cases hcontrol : p.val < 0x20
          · rw [scan_control hcontrol] at h
            exact nomatch h
          · rw [scan_plain hquote hbackslash hcontrol] at h
            obtain ⟨s', hs', rfl⟩ := continued_eq_ok_iff.1 h
            obtain ⟨body, rfl, hspells⟩ := ih _ (by simp at hk; omega) hs' rfl
            exact ⟨p :: body, rfl, .plain hquote hbackslash hcontrol hspells⟩

/-- A spelled text that goes on with an escape of four digits has four digits there. -/
private theorem Spells.exists_hexValue? {u t : Text}
    (h : Spells (.scalar '\x5c' :: .scalar 'u' :: u) t) :
    ∃ a b c d rest n, u = a :: b :: c :: d :: rest ∧ hexValue? a b c d = some n := by
  cases h with
  | plain _ hbackslash => exact absurd rfl hbackslash
  | short hp => exact nomatch (hp : shortEscape? (.scalar 'u') = some _)
  | unicode hn => exact ⟨_, _, _, _, _, _, rfl, hn⟩
  | pair hn => exact ⟨_, _, _, _, _, _, rfl, hn⟩

/-- An opening surrogate stands alone when its pair is not closed by what is spelled after it. -/
private theorem afterHigh_of_not_closesPair {high : CodePoint} {body t : Text}
    (h : Spells body t) (hpair : ¬ ClosesPair high body) (rest : Text) :
    afterHigh high (body ++ .scalar '\x22' :: rest) = .ok (high, 5) := by
  unfold afterHigh
  split
  · next a b c d x tail heq =>
    -- The escape lies in the spelled text, since a quote is neither of its first two code points.
    rcases body with _ | ⟨p, _ | ⟨p', u⟩⟩
    · simp at heq
    · simp at heq
    · simp only [List.cons_append, List.cons.injEq] at heq
      obtain ⟨rfl, rfl, hu⟩ := heq
      obtain ⟨a', b', c', d', rest', n, rfl, hn⟩ := h.exists_hexValue?
      simp only [List.cons_append, List.cons.injEq] at hu
      obtain ⟨rfl, rfl, rfl, rfl, -⟩ := hu
      rcases hq : CodePoint.pair? high (.ofNat n) with _ | q
      · simp only [hn, hq]
      · exact absurd ⟨_, _, _, _, rest', n, q, rfl, hn, hq⟩ hpair
  · rfl

private theorem escape_short {p q : CodePoint} (hp : shortEscape? p = some q) (t : Text) :
    escape (p :: t) = .ok (q, 1) := by
  have hu : p ≠ .scalar 'u' := by
    rintro rfl
    exact nomatch (hp : shortEscape? (.scalar 'u') = some q)
  unfold escape
  split
  · next heq => exact nomatch heq
  · next heq => exact absurd (List.cons.inj heq).1 hu
  · next heq =>
    obtain ⟨rfl, -⟩ := List.cons.inj heq
    rw [hp]

private theorem escape_unicode {a b c d : CodePoint} {n : Nat} (hn : hexValue? a b c d = some n)
    {rest : Text} (hrest : rest ≠ []) :
    escape (.scalar 'u' :: a :: b :: c :: d :: rest) =
      if (CodePoint.ofNat n).isHigh then afterHigh (.ofNat n) rest else .ok (.ofNat n, 5) := by
  obtain ⟨x, tail, rfl⟩ := List.exists_cons_of_ne_nil hrest
  simp only [escape, hn]

private theorem isHigh_of_pair? {high low q : CodePoint}
    (h : CodePoint.pair? high low = some q) : high.isHigh = true := by
  by_contra hhigh
  simp [CodePoint.pair?, hhigh] at h

/-- What is spelled is read up to the closing quote, whatever follows. -/
theorem Spells.scan_append {body t : Text} (h : Spells body t) (rest : Text) :
    scan (body ++ .scalar '\x22' :: rest) = .ok (t, rest) := by
  induction h with
  | nil => exact scan_quote rest
  | plain hquote hbackslash hcontrol h ih =>
    rw [List.cons_append, scan_plain hquote hbackslash hcontrol, ih]
    rfl
  | short hp h ih =>
    rw [List.cons_append, List.cons_append, scan_backslash, escape_short hp]
    simp only [List.drop_succ_cons, List.drop_zero, ih]
    rfl
  | unicode hn hpair h ih =>
    have hafter := afterHigh_of_not_closesPair h hpair rest
    simp only [List.cons_append]
    rw [scan_backslash, escape_unicode hn (by simp), hafter, ite_self]
    simp only [List.drop_succ_cons, List.drop_zero, ih]
    rfl
  | @pair a b c d a' b' c' d' q n m body t hn hm hq h ih =>
    have hafter : afterHigh (.ofNat n) (.scalar '\x5c' :: .scalar 'u' :: a' :: b' :: c' :: d' ::
        (body ++ .scalar '\x22' :: rest)) = .ok (q, 11) := by
      obtain ⟨x, tail, hx⟩ : ∃ x tail, body ++ .scalar '\x22' :: rest = x :: tail :=
        List.exists_cons_of_ne_nil (by simp)
      rw [hx]
      simp only [afterHigh, hm, hq]
    simp only [List.cons_append]
    rw [scan_backslash, escape_unicode hn (by simp), if_pos (isHigh_of_pair? hq), hafter]
    simp only [List.drop_succ_cons, List.drop_zero, ih]
    rfl

/-- A text is read up to the closing quote exactly when it is spelled there. -/
theorem scan_eq_ok_iff {t s rest : Text} :
    scan t = .ok (s, rest) ↔ ∃ body, t = body ++ .scalar '\x22' :: rest ∧ Spells body s := by
  constructor
  · exact exists_spells_of_scan
  · rintro ⟨body, rfl, h⟩
    exact h.scan_append rest

end StringLiteral

/-! ### Numbers -/

theorem startsDigit_cons {p : CodePoint} {t : Text} :
    StartsDigit (p :: t) ↔ p.isAsciiDigit = true := by
  constructor
  · rintro ⟨_, _, ⟨⟩, hp⟩
    exact hp
  · intro hp
    exact ⟨p, t, rfl, hp⟩

/-- The digits at the head of a text are those after which no digit follows. -/
theorem scanDigits_eq_iff {t ds rest : Text} :
    scanDigits t = (ds, rest) ↔ t = ds ++ rest ∧ IsDigits ds ∧ ¬ StartsDigit rest := by
  rw [scanDigits, Prod.mk.injEq]
  constructor
  · rintro ⟨rfl, rfl⟩
    refine ⟨(List.takeWhile_append_dropWhile ..).symm, fun p hp => List.mem_takeWhile_imp hp, ?_⟩
    rintro ⟨p, rest, h, hp⟩
    have hnot := List.head?_dropWhile_not CodePoint.isAsciiDigit t
    rw [h] at hnot
    simp [hp] at hnot
  · rintro ⟨rfl, hds, hrest⟩
    rw [List.takeWhile_append_of_pos hds, List.dropWhile_append_of_pos hds]
    rcases rest with _ | ⟨p, rest⟩
    · simp
    · rw [startsDigit_cons, Bool.not_eq_true] at hrest
      simp [hrest]

namespace NumberLiteral

theorem scanWhole?_eq_some_iff {t w rest : Text} :
    scanWhole? t = some (w, rest) ↔
      t = w ++ rest ∧ IsWhole w ∧ (w ≠ [.scalar '0'] → ¬ StartsDigit rest) := by
  rcases t with _ | ⟨p, t⟩
  · constructor
    · exact nofun
    · rintro ⟨h, hw, -⟩
      obtain ⟨p, t, rfl, -⟩ := hw.exists_cons
      exact nomatch h
  · rw [scanWhole?]
    split_ifs with hzero hp
    · subst hzero
      rw [Option.some.injEq, Prod.mk.injEq]
      constructor
      · rintro ⟨rfl, rfl⟩
        exact ⟨rfl, .zero, fun h => absurd rfl h⟩
      · rintro ⟨h, hw, -⟩
        cases hw with
        | zero => exact ⟨rfl, (List.cons.inj h).2⟩
        | digits hne => exact absurd (List.cons.inj h).1.symm hne
    · rw [Option.some.injEq, Prod.mk.injEq]
      constructor
      · rcases hscan : scanDigits t with ⟨ds, rest'⟩
        obtain ⟨rfl, hds, hrest⟩ := scanDigits_eq_iff.1 hscan
        rintro ⟨rfl, rfl⟩
        exact ⟨rfl, .digits hzero hp hds, fun _ => hrest⟩
      · rintro ⟨h, hw, hrest⟩
        cases hw with
        | zero => exact absurd (List.cons.inj h).1 hzero
        | digits hne _ hds =>
          obtain ⟨rfl, ht⟩ := List.cons.inj h
          have hscan := scanDigits_eq_iff.2 ⟨ht, hds, hrest fun h => hne (List.cons.inj h).1⟩
          rw [hscan]
          exact ⟨rfl, rfl⟩
    · constructor
      · exact nofun
      · rintro ⟨h, hw, -⟩
        obtain ⟨p', t', rfl, hp'⟩ := hw.exists_cons
        rw [(List.cons.inj h).1] at hp
        exact absurd hp' hp

theorem scanFraction_eq_iff {t ds rest : Text} :
    scanFraction t = (ds, rest) ↔ ∃ f, t = f ++ rest ∧ SpellsFraction f ds ∧
      (ds = [] → ¬ StartsFraction rest) ∧ (ds ≠ [] → ¬ StartsDigit rest) := by
  constructor
  · intro h
    unfold scanFraction at h
    split at h
    · next u =>
      rcases hscan : scanDigits u with ⟨ds', rest'⟩
      obtain ⟨rfl, hds, hrest⟩ := scanDigits_eq_iff.1 hscan
      rw [hscan] at h
      split_ifs at h with hempty
      · obtain rfl : ds' = [] := List.isEmpty_iff.1 hempty
        obtain ⟨rfl, rfl⟩ := Prod.mk.inj h
        refine ⟨[], rfl, .absent, fun _ => ?_, fun h => absurd rfl h⟩
        rintro ⟨_, ⟨⟩, hdigit⟩
        exact hrest hdigit
      · have hne : ds' ≠ [] := fun h => hempty (List.isEmpty_iff.2 h)
        obtain ⟨rfl, rfl⟩ := Prod.mk.inj h
        exact ⟨_ :: ds', rfl, .digits hne hds, fun h => absurd h hne, fun _ => hrest⟩
    · next hno =>
      obtain ⟨rfl, rfl⟩ := Prod.mk.inj h
      refine ⟨[], rfl, .absent, fun _ => ?_, fun h => absurd rfl h⟩
      rintro ⟨u, rfl, -⟩
      exact hno u rfl
  · rintro ⟨f, rfl, hf, hfraction, hdigit⟩
    cases hf with
    | absent =>
      rw [List.nil_append]
      unfold scanFraction
      split
      · next u =>
        rcases hscan : scanDigits u with ⟨ds', rest'⟩
        obtain ⟨rfl, hds, -⟩ := scanDigits_eq_iff.1 hscan
        rcases ds' with _ | ⟨p, ds'⟩
        · rfl
        · exact absurd ⟨_, rfl, startsDigit_cons.2 (hds p List.mem_cons_self)⟩ (hfraction rfl)
      · rfl
    | digits hne hds =>
      have hscan := scanDigits_eq_iff.2 ⟨rfl, hds, hdigit hne⟩
      rw [List.cons_append, scanFraction, hscan]
      simp [hne]

/-- The sign at the head of a text that goes on with a digit. -/
theorem scanSign_append {sign ds : Text} {negative : Bool} (hsign : SpellsSign sign negative)
    (hds : StartsDigit ds) : scanSign (sign ++ ds) = (negative, ds) := by
  cases hsign with
  | absent =>
    obtain ⟨p, rest, rfl, hp⟩ := hds
    rw [List.nil_append, scanSign]
    · rintro rest' h
      rw [(List.cons.inj h).1] at hp
      exact absurd hp (by decide)
    · rintro rest' h
      rw [(List.cons.inj h).1] at hp
      exact absurd hp (by decide)
  | plus => rfl
  | minus => rfl

theorem exists_spellsSign_of_scanSign {t rest : Text} {negative : Bool}
    (h : scanSign t = (negative, rest)) : ∃ sign, t = sign ++ rest ∧ SpellsSign sign negative := by
  unfold scanSign at h
  split at h
  · obtain ⟨rfl, rfl⟩ := Prod.mk.inj h
    exact ⟨[_], rfl, .minus⟩
  · obtain ⟨rfl, rfl⟩ := Prod.mk.inj h
    exact ⟨[_], rfl, .plus⟩
  · obtain ⟨rfl, rfl⟩ := Prod.mk.inj h
    exact ⟨[], rfl, .absent⟩

private theorem scanExponent_cons {mark : CodePoint}
    (hmark : mark = .scalar 'e' ∨ mark = .scalar 'E') {u after ds rest : Text} {negative : Bool}
    (hsign : scanSign u = (negative, after)) (hds : scanDigits after = (ds, rest)) :
    scanExponent (mark :: u) =
      if ds.isEmpty then (none, mark :: u) else (some (negative, ds), rest) := by
  simp only [scanExponent, if_pos hmark, hsign, hds]

/-- There is no exponent at the head of a text exactly when it does not open with one. -/
private theorem scanExponent_eq_none_iff {t : Text} :
    scanExponent t = (none, t) ↔ ¬ StartsExponent t := by
  rcases t with _ | ⟨mark, u⟩
  · refine ⟨fun _ => ?_, fun _ => rfl⟩
    rintro ⟨_, _, _, _, h, -⟩
    exact nomatch h
  · by_cases hmark : mark = .scalar 'e' ∨ mark = .scalar 'E'
    · rcases hsign : scanSign u with ⟨negative, after⟩
      rcases hds : scanDigits after with ⟨ds, rest⟩
      obtain ⟨rfl, hdigits, hrest⟩ := scanDigits_eq_iff.1 hds
      rw [scanExponent_cons hmark hsign hds]
      constructor
      · rintro h ⟨_, sign, negative', v, heq, -, hspells, hv⟩
        obtain ⟨-, rfl⟩ := List.cons.inj heq
        obtain ⟨-, rfl⟩ := Prod.mk.inj ((scanSign_append hspells hv).symm.trans hsign)
        rcases ds with _ | ⟨p, ds⟩
        · exact hrest hv
        · exact nomatch h
      · intro h
        rcases ds with _ | ⟨p, ds⟩
        · rfl
        · obtain ⟨sign, rfl, hspells⟩ := exists_spellsSign_of_scanSign hsign
          refine absurd ⟨mark, sign, negative, _, rfl, hmark, hspells, ?_⟩ h
          exact startsDigit_cons.2 (hdigits p List.mem_cons_self)
    · refine ⟨fun _ => ?_, fun _ => by simp only [scanExponent, if_neg hmark]⟩
      rintro ⟨_, _, _, _, heq, hmark', -⟩
      rw [← (List.cons.inj heq).1] at hmark'
      exact hmark hmark'

theorem scanExponent_eq_iff {t rest : Text} {x : Option (Bool × Text)} :
    scanExponent t = (x, rest) ↔ ∃ s, t = s ++ rest ∧ SpellsExponent s x ∧
      (x = none → ¬ StartsExponent rest) ∧ (x ≠ none → ¬ StartsDigit rest) := by
  constructor
  · intro h
    by_cases hnone : ¬ StartsExponent t
    · obtain ⟨rfl, rfl⟩ := Prod.mk.inj ((scanExponent_eq_none_iff.2 hnone).symm.trans h)
      exact ⟨[], rfl, .absent, fun _ => hnone, fun h => absurd rfl h⟩
    · obtain ⟨mark, sign, negative, u, rfl, hmark, hsign, hu⟩ := not_not.1 hnone
      rcases hds : scanDigits u with ⟨ds, rest'⟩
      obtain ⟨rfl, hdigits, hrest⟩ := scanDigits_eq_iff.1 hds
      have hne : ds ≠ [] := by
        rintro rfl
        exact hrest hu
      rw [scanExponent_cons hmark (scanSign_append hsign hu) hds, if_neg (by simpa using hne)] at h
      obtain ⟨rfl, rfl⟩ := Prod.mk.inj h
      exact ⟨mark :: (sign ++ ds), by simp, .digits hmark hsign hne hdigits, nofun,
        fun _ => hrest⟩
  · rintro ⟨s, rfl, hs, hexponent, hdigit⟩
    cases hs with
    | absent => exact scanExponent_eq_none_iff.2 (hexponent rfl)
    | @digits mark sign ds negative hmark hsign hne hds =>
      obtain ⟨p, tail, rfl⟩ := List.exists_cons_of_ne_nil hne
      have hstarts : StartsDigit (p :: tail ++ rest) :=
        startsDigit_cons.2 (hds p List.mem_cons_self)
      have hscan := scanDigits_eq_iff.2 ⟨rfl, hds, hdigit nofun⟩
      rw [List.cons_append, List.append_assoc,
        scanExponent_cons hmark (scanSign_append hsign hstarts) hscan]
      rfl

/-- What stands in front of a text keeps it from opening with a digit. -/
private theorem not_startsDigit_append {f x ds rest : Text} {exponent : Option (Bool × Text)}
    (hf : SpellsFraction f ds) (hx : SpellsExponent x exponent)
    (h : ds = [] → exponent = none → ¬ StartsDigit rest) : ¬ StartsDigit (f ++ (x ++ rest)) := by
  cases hf with
  | digits =>
    rw [List.cons_append, startsDigit_cons]
    decide
  | absent =>
    cases hx with
    | absent => exact h rfl rfl
    | digits hmark =>
      rw [List.nil_append, List.cons_append, startsDigit_cons]
      rcases hmark with rfl | rfl <;> decide

private theorem not_startsFraction_append {x rest : Text} {exponent : Option (Bool × Text)}
    (hx : SpellsExponent x exponent) (h : exponent = none → ¬ StartsFraction rest) :
    ¬ StartsFraction (x ++ rest) := by
  cases hx with
  | absent => exact h rfl
  | digits hmark =>
    rintro ⟨u, heq, -⟩
    rw [(List.cons.inj heq).1] at hmark
    exact absurd hmark (by decide)

/-- A literal after its minus sign is read up to where it stops. -/
theorem scanUnsigned?_eq_some_iff {negative : Bool} {t rest : Text} {n : NumberLiteral} :
    scanUnsigned? negative t = some (n, rest) ↔ n.negative = negative ∧ n.Stops rest ∧
      ∃ f x, t = n.whole ++ (f ++ (x ++ rest)) ∧ IsWhole n.whole ∧ SpellsFraction f n.fraction ∧
        SpellsExponent x n.exponent := by
  constructor
  · intro h
    unfold scanUnsigned? at h
    split at h
    · exact nomatch h
    · next whole t₁ hwhole =>
      rcases hfraction : scanFraction t₁ with ⟨fraction, t₂⟩
      rcases hexponent : scanExponent t₂ with ⟨exponent, t₃⟩
      simp only [hfraction, hexponent, Option.some.injEq, Prod.mk.injEq] at h
      obtain ⟨rfl, rfl⟩ := h
      obtain ⟨rfl, hw, hw'⟩ := scanWhole?_eq_some_iff.1 hwhole
      obtain ⟨f, rfl, hf, hf', hf''⟩ := scanFraction_eq_iff.1 hfraction
      obtain ⟨x, rfl, hx, hx', hx''⟩ := scanExponent_eq_iff.1 hexponent
      refine ⟨rfl, ⟨fun hlone => ?_, fun hfr hex => ?_, hx'⟩, f, x, rfl, hw, hf, hx⟩
      · by_cases hex : exponent = none
        · subst hex
          obtain ⟨⟩ := hx
          by_cases hfr : fraction = []
          · subst hfr
            cases hf with
            | absent => exact hw' fun hzero => hlone hzero rfl rfl
            | digits hne => exact absurd rfl hne
          · exact hf'' hfr
        · exact hx'' hex
      · obtain rfl : exponent = none := hex
        obtain ⟨⟩ := hx
        exact hf' hfr
  · rintro ⟨hneg, ⟨hdigit, hfraction, hexponent⟩, f, x, rfl, hw, hf, hx⟩
    obtain ⟨negative', whole, fraction, exponent⟩ := n
    obtain rfl : negative' = negative := hneg
    have hscanWhole : scanWhole? (whole ++ (f ++ (x ++ rest))) = some (whole, _) :=
      scanWhole?_eq_some_iff.2 ⟨rfl, hw, fun hne => not_startsDigit_append hf hx
        fun _ _ => hdigit fun hzero => absurd hzero hne⟩
    have hscanFraction : scanFraction (f ++ (x ++ rest)) = (fraction, _) :=
      scanFraction_eq_iff.2 ⟨f, rfl, hf, fun hfr => not_startsFraction_append hx (hfraction hfr),
        fun hfr => not_startsDigit_append .absent hx
          fun _ _ => hdigit fun _ hnil => absurd hnil hfr⟩
    have hscanExponent : scanExponent (x ++ rest) = (exponent, rest) :=
      scanExponent_eq_iff.2 ⟨x, rfl, hx, hexponent, fun hex => hdigit fun _ _ => hex⟩
    simp only [scanUnsigned?, hscanWhole, hscanFraction, hscanExponent]

/-- A number is read exactly as a literal that stops where the rest begins. -/
theorem scan?_eq_some_iff {t rest : Text} {n : NumberLiteral} :
    scan? t = some (n, rest) ↔ ∃ s, t = s ++ rest ∧ n.Spells s ∧ n.Stops rest := by
  constructor
  · intro h
    unfold scan? at h
    split at h
    · obtain ⟨hneg, hstops, f, x, rfl, hw, hf, hx⟩ := scanUnsigned?_eq_some_iff.1 h
      obtain ⟨_, whole, fraction, exponent⟩ := n
      obtain rfl : _ = true := hneg
      exact ⟨_, by simp [minus], .parts hw hf hx, hstops⟩
    · obtain ⟨hneg, hstops, f, x, rfl, hw, hf, hx⟩ := scanUnsigned?_eq_some_iff.1 h
      obtain ⟨_, whole, fraction, exponent⟩ := n
      obtain rfl : _ = false := hneg
      exact ⟨_, by simp [minus], .parts hw hf hx, hstops⟩
  · rintro ⟨s, rfl, ⟨hw, hf, hx⟩, hstops⟩
    rename_i negative whole fraction f x exponent
    have hunsigned : scanUnsigned? negative (whole ++ (f ++ (x ++ rest))) =
        some (⟨negative, whole, fraction, exponent⟩, rest) :=
      scanUnsigned?_eq_some_iff.2 ⟨rfl, hstops, f, x, rfl, hw, hf, hx⟩
    cases negative with
    | true => simpa [minus, scan?] using hunsigned
    | false =>
      obtain ⟨p, u, rfl, hp⟩ := hw.exists_cons
      have hscan (t : Text) : scan? (p :: t) = scanUnsigned? false (p :: t) := by
        rw [scan?]
        intro t' heq
        rw [(List.cons.inj heq).1] at hp
        exact absurd hp (by decide)
      simpa [minus, hscan] using hunsigned

end NumberLiteral

/-! ### Values without brackets -/

theorem after?_eq_some_iff {w t rest : Text} : after? w t = some rest ↔ t = w ++ rest := by
  constructor
  · intro h
    induction w generalizing t with
    | nil => exact Option.some.inj h
    | cons p w ih =>
      rcases t with _ | ⟨q, t⟩
      · exact nomatch h
      · rw [after?] at h
        split_ifs at h with hpq
        rw [hpq, ih h]
        rfl
  · rintro rfl
    exact after?_append w rest

/-- A word is read as its value: no other word stands at the head of the same text. -/
theorem readWord?_append {w : Text} {v : Json} (h : (w, v) ∈ words) (rest : Text) :
    readWord? (w ++ rest) = some (v, rest) := by
  simp only [words, List.mem_cons, Prod.mk.injEq, List.not_mem_nil, or_false] at h
  rcases h with h | h | h | h | h | h <;> obtain ⟨rfl, rfl⟩ := h <;> rfl

theorem exists_mem_words_of_readWord? {t rest : Text} {v : Json}
    (h : readWord? t = some (v, rest)) : ∃ w, (w, v) ∈ words ∧ t = w ++ rest := by
  obtain ⟨⟨w, v'⟩, hmem, hw⟩ := List.exists_of_findSome?_eq_some h
  obtain ⟨rest', hafter, heq⟩ := Option.map_eq_some_iff.1 hw
  obtain ⟨rfl, rfl⟩ := Prod.mk.inj heq
  exact ⟨w, hmem, after?_eq_some_iff.1 hafter⟩

/-- A number is no word. -/
theorem NumberLiteral.Spells.readWord?_append {s : Text} {n : NumberLiteral} (h : n.Spells s)
    (rest : Text) : readWord? (s ++ rest) = none := by
  rw [Option.eq_none_iff_forall_ne_some]
  rintro ⟨v, rest'⟩ hw
  obtain ⟨w, hmem, heq⟩ := exists_mem_words_of_readWord? hw
  obtain ⟨hwhole, -, -⟩ := h
  rename_i negative whole fraction f x exponent
  obtain ⟨p, u, rfl, hp⟩ := hwhole.exists_cons
  simp only [words, List.mem_cons, Prod.mk.injEq, List.not_mem_nil, or_false] at hmem
  -- Every word opens with a letter, or with a minus sign and a letter.
  cases negative with
  | false =>
    rcases hmem with h | h | h | h | h | h <;> obtain ⟨rfl, -⟩ := h <;>
      rw [(List.cons.inj heq).1] at hp <;> exact absurd hp (by decide)
  | true =>
    rcases hmem with h | h | h | h | h | h <;> obtain ⟨rfl, -⟩ := h <;>
      obtain ⟨hminus, heq⟩ := List.cons.inj heq
    · exact absurd hminus (by decide)
    · exact absurd hminus (by decide)
    · exact absurd hminus (by decide)
    · exact absurd hminus (by decide)
    · exact absurd hminus (by decide)
    · rw [(List.cons.inj heq).1] at hp
      exact absurd hp (by decide)

/-- No number goes on with what may follow a value. -/
theorem Delimits.stops {rest : Text} (h : Delimits rest) (n : NumberLiteral) : n.Stops rest := by
  have hhead {p : CodePoint} {u : Text} (hu : rest = p :: u) :
      p.isAsciiDigit = false ∧ p ≠ .scalar '.' ∧ p ≠ .scalar 'e' ∧ p ≠ .scalar 'E' := by
    rcases h p (by rw [hu]; rfl) with hp | rfl | ⟨b, rfl⟩
    · rcases isJsonBlank_iff.1 hp with rfl | rfl | rfl | rfl <;> decide
    · decide
    · cases b <;> decide
  refine ⟨fun _ => ?_, fun _ _ => ?_, fun _ => ?_⟩
  · rintro ⟨p, u, hu, hp⟩
    rw [(hhead hu).1] at hp
    exact nomatch hp
  · rintro ⟨u, hu, -⟩
    exact (hhead hu).2.1 rfl
  · rintro ⟨mark, _, _, _, hu, hmark, -⟩
    exact hmark.elim (hhead hu).2.2.1 (hhead hu).2.2.2

theorem readString_eq_ok_iff {t s rest : Text} : readString t = .ok (s, rest) ↔
    ∃ body, t = body ++ .scalar '\x22' :: rest ∧ StringLiteral.Spells body s := by
  rw [← StringLiteral.scan_eq_ok_iff, readString]
  rcases StringLiteral.scan t with e | r
  · exact ⟨nofun, nofun⟩
  · simp only [Except.ok.injEq]

/-- What is read without brackets is spelled at the head of the text. -/
theorem exists_spellsAtom_of_readAtom {limits : Limits} {t rest : Text} {v : Json}
    (h : readAtom limits t = .ok (v, rest)) : ∃ s, t = s ++ rest ∧ SpellsAtom limits s v := by
  unfold readAtom at h
  split at h
  · obtain ⟨⟨s, rest'⟩, hs, heq⟩ := map_eq_ok_iff.1 h
    obtain ⟨rfl, rfl⟩ := Prod.mk.inj heq
    obtain ⟨body, rfl, hspells⟩ := readString_eq_ok_iff.1 hs
    exact ⟨_, by simp, .string hspells⟩
  · split at h
    · next r hw =>
      obtain rfl : r = (v, rest) := Except.ok.inj h
      obtain ⟨w, hmem, rfl⟩ := exists_mem_words_of_readWord? hw
      exact ⟨w, rfl, .word hmem⟩
    · split at h
      · next n rest' hn =>
        obtain ⟨v', hv, heq⟩ := map_eq_ok_iff.1 h
        obtain ⟨rfl, rfl⟩ := Prod.mk.inj heq
        obtain ⟨s, rfl, hspells, -⟩ := NumberLiteral.scan?_eq_some_iff.1 hn
        exact ⟨s, rfl, .number hspells hv⟩
      · exact nomatch h

/-- What is spelled without brackets is read, if a delimiter follows. -/
theorem SpellsAtom.readAtom_append {limits : Limits} {s rest : Text} {v : Json}
    (h : SpellsAtom limits s v) (hrest : Delimits rest) :
    readAtom limits (s ++ rest) = .ok (v, rest) := by
  cases h with
  | @string body t h =>
    have hs : readString (body ++ .scalar '\x22' :: rest) = .ok (t, rest) :=
      readString_eq_ok_iff.2 ⟨body, rfl, h⟩
    rw [List.cons_append, List.append_assoc, readAtom]
    exact map_eq_ok_iff.2 ⟨_, hs, rfl⟩
  | word h =>
    have hw := readWord?_append h rest
    unfold readAtom
    split
    · next heq =>
      rw [heq] at hw
      exact nomatch hw
    · rw [hw]
  | @number s n v h hv =>
    have hn : NumberLiteral.scan? (s ++ rest) = some (n, rest) :=
      NumberLiteral.scan?_eq_some_iff.2 ⟨s, rfl, h, hrest.stops n⟩
    unfold readAtom
    split
    · next heq =>
      rw [heq] at hn
      exact nomatch hn
    · rw [h.readWord?_append]
      simp only [hn, hv]
      rfl

end ElmReport.Json
