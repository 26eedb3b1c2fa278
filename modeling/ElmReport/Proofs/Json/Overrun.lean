import ElmReport.Proofs.Json.Reading

/-!
# Texts that pass a limit

Reading fails by a limit exactly where a text passes one before it has any fault: up to there the
text goes on as texts of values do, and what comes next is a whole number with too many digits or a
bracket that nests too deep. What follows does not matter any more.

## Main definitions

* `OpensLongInteger`: a whole number with too many digits at the head of a text.
* `EntriesUpTo`, `MemberUpTo`, `InsideUpTo`: what stands between two brackets, up to a place.
* `Overruns`: the limit that a value passes.
* `PassesLimit`: the limit that a whole text passes.

## Main results

* `readAtom_eq_limit_iff`: long whole numbers are all that fails without brackets.
* `stopsAt_readValue`: values fail by a limit where they overrun it.
* `read_eq_limit_iff`: whole texts fail by a limit exactly where they pass it.
-/

namespace ElmReport.Json

open Outcome

/-! ### Where a limit is passed -/

/-- A whole number with too many digits at the head of a text. -/
inductive OpensLongInteger (limits : Limits) : LimitError → Text → Prop
  | intro {n : NumberLiteral} {s rest : Text} (hs : n.Spells s) (hstops : n.Stops rest)
      (hinteger : n.isInteger = true) (hlong : limits.digits < n.whole.length) :
      OpensLongInteger limits (.longInteger limits.digits n.whole.length) (s ++ rest)

/-- Entries with commas between them, up to an entry that opens with a place to stop at. -/
inductive EntriesUpTo {α : Type} (entry : Text → α → Prop) (stop : Text → Prop) : Text → Prop
  | here {t : Text} (h : stop t) : EntriesUpTo entry stop t
  | next {s b b' t : Text} {x : α} (hs : entry s x) (hb : IsBlanks b) (hb' : IsBlanks b')
      (ht : EntriesUpTo entry stop t) :
      EntriesUpTo entry stop (s ++ (b ++ .scalar ',' :: (b' ++ t)))

/-- A member of an object whose value opens with a place to stop at. -/
inductive MemberUpTo (stop : Text → Prop) : Text → Prop
  | intro {body name b b' t : Text} (hname : StringLiteral.Spells body name) (hb : IsBlanks b)
      (hb' : IsBlanks b') (ht : stop t) :
      MemberUpTo stop
        (.scalar '\x22' :: (body ++ .scalar '\x22' :: (b ++ .scalar ':' :: (b' ++ t))))

/-- What follows an opening bracket, up to a value that opens with a place to stop at. -/
inductive InsideUpTo (value : Text → Json → Prop) (stop : Text → Prop) : Bracket → Text → Prop
  | list {t : Text} (h : EntriesUpTo value stop t) : InsideUpTo value stop .list t
  | object {t : Text} (h : EntriesUpTo (IsMember value) (MemberUpTo stop) t) :
      InsideUpTo value stop .object t

/-- A value inside which at most `depth` brackets may be open at a time passes a limit: one bracket
more is opened, or there is a long whole number, in the value or in a value inside. -/
def Overruns (limits : Limits) (e : LimitError) : Nat → Text → Prop
  | 0, t =>
    OpensLongInteger limits e t ∨
      ∃ (bracket : Bracket) (u : Text), t = bracket.left :: u ∧ e = .deepNesting bracket
  | depth + 1, t =>
    OpensLongInteger limits e t ∨
      ∃ (bracket : Bracket) (b u : Text), t = bracket.left :: (b ++ u) ∧ IsBlanks b ∧
        InsideUpTo (Spells limits depth) (Overruns limits e depth) bracket u

/-- A whole text passes a limit, before it has any fault. -/
def PassesLimit (limits : Limits) (e : LimitError) (t : Text) : Prop :=
  ∃ b u, t = b ++ u ∧ IsBlanks b ∧ Overruns limits e limits.depth u

/-! ### Values without brackets -/

theorem OpensLongInteger.exists_cons {limits : Limits} {e : LimitError} {t : Text}
    (h : OpensLongInteger limits e t) :
    ∃ p u, t = p :: u ∧ (p = .scalar '-' ∨ p.isAsciiDigit = true) := by
  obtain ⟨hs, -, -, -⟩ := h
  obtain ⟨p, u, rfl, hp⟩ := hs.exists_cons
  exact ⟨p, _, rfl, hp⟩

/-- Whole numbers are the only literals without a value. -/
theorem NumberLiteral.value_eq_error_iff {limits : Limits} {n : NumberLiteral} {e : ReadError} :
    n.value limits = .error e ↔ n.isInteger = true ∧ limits.digits < n.whole.length ∧
      e = .limit (.longInteger limits.digits n.whole.length) := by
  unfold NumberLiteral.value
  split_ifs with hinteger hlong
  · simp [hinteger, hlong, eq_comm]
  · simp [hlong]
  · simp [hinteger]

theorem readString_ne_limit {t : Text} {e : LimitError} : readString t ≠ .error (.limit e) := by
  rw [readString]
  split <;> simp

/-- Without brackets only long whole numbers pass a limit. -/
theorem readAtom_eq_limit_iff {limits : Limits} {t : Text} {e : LimitError} :
    readAtom limits t = .error (.limit e) ↔ OpensLongInteger limits e t := by
  constructor
  · intro h
    unfold readAtom at h
    split at h
    · exact absurd (map_eq_error_iff.1 h) readString_ne_limit
    · split at h
      · exact nomatch h
      · split at h
        · next n rest hn =>
          obtain ⟨s, rfl, hs, hstops⟩ := NumberLiteral.scan?_eq_some_iff.1 hn
          obtain ⟨hinteger, hlong, heq⟩ :=
            NumberLiteral.value_eq_error_iff.1 (map_eq_error_iff.1 h)
          obtain rfl := ReadError.limit.inj heq
          exact .intro hs hstops hinteger hlong
        · exact nomatch h
  · intro h
    obtain ⟨p, u, hcons, hp⟩ := h.exists_cons
    obtain ⟨hs, hstops, hinteger, hlong⟩ := h
    rename_i n s rest
    unfold readAtom
    split
    · next heq =>
      rw [hcons] at heq
      rw [(List.cons.inj heq).1] at hp
      exact absurd hp (by decide)
    · rw [hs.readWord?_append]
      simp only [NumberLiteral.scan?_eq_some_iff.2 ⟨s, rfl, hs, hstops⟩]
      exact map_eq_error_iff.2 (NumberLiteral.value_eq_error_iff.2 ⟨hinteger, hlong, rfl⟩)

/-! ### Readers that fail by a limit -/

/-- A reader that fails by a limit exactly at the texts to stop at, if they are no longer than
`size`. -/
structure StopsAt {α : Type} (size : Nat) (e : LimitError)
    (read : Text → Except ReadError (α × Text)) (stop : Text → Prop) : Prop where
  eq_limit_iff : ∀ {t : Text}, t.length ≤ size → (read t = .error (.limit e) ↔ stop t)
  opens : ∀ {t : Text}, stop t → ∃ p u, t = p :: u ∧ opensValue p = true

theorem length_skipBlanks_le (t : Text) : (skipBlanks t).length ≤ t.length :=
  (List.dropWhile_sublist _).length_le

section

variable {α : Type} {size : Nat} {e : LimitError} {entry : Text → Except ReadError (α × Text)}
  {spells : Text → α → Prop} {stop : Text → Prop}

/-- Entries fail by a limit at the first of them, or after it and a comma. -/
theorem readEntries_succ_eq_limit_iff {bracket : Bracket} {fault : Fault} {fuel : Nat} {t : Text} :
    readEntries entry bracket.right fault (fuel + 1) t = .error (.limit e) ↔
      entry t = .error (.limit e) ∨
        ∃ x u w, entry t = .ok (x, u) ∧ skipBlanks u = .scalar ',' :: w ∧
          readEntries entry bracket.right fault fuel (skipBlanks w) = .error (.limit e) := by
  rw [readEntries, bind_eq_error_iff, Prod.exists]
  refine or_congr_right (exists_congr fun x => exists_congr fun u => ?_)
  simp only [exists_and_left]
  refine and_congr_right fun _ => ?_
  rcases readMore_cases bracket (readEntries entry bracket.right fault fuel) x u with
    ⟨w, hu, hmore⟩ | ⟨w, hu, hmore⟩ | ⟨hclose, hother, hmore⟩
  · rw [hmore, hu]
    constructor
    · rintro ⟨⟩
    · rintro ⟨_, h, -⟩
      exact absurd (List.cons.inj h).1 bracket.right_ne_comma
  · rw [hmore, hu, bind_eq_error_iff]
    constructor
    · rintro (h | ⟨_, _, h⟩)
      · exact ⟨w, rfl, h⟩
      · cases h
    · rintro ⟨_, h, hw⟩
      obtain ⟨-, rfl⟩ := List.cons.inj h
      exact .inl hw
  · simp [hmore, hother]

theorem EntriesUpTo.exists_cons (h : ReadsBy size entry spells) (hstop : StopsAt size e entry stop)
    {t : Text} (ht : EntriesUpTo spells stop t) : ∃ p u, t = p :: u ∧ opensValue p = true := by
  cases ht with
  | here h => exact hstop.opens h
  | next hs =>
    obtain ⟨p, s, rfl, hp⟩ := h.opens hs
    exact ⟨p, _, rfl, hp⟩

/-- Entries fail by a limit at the first entry that does, when those before it are spelled. -/
theorem StopsAt.readEntries_eq_limit_iff (hstop : StopsAt size e entry stop)
    (h : ReadsBy size entry spells) (bracket : Bracket) (fault : Fault) {fuel : Nat} {t : Text}
    (hsize : t.length ≤ size) (hfuel : t.length ≤ fuel) :
    readEntries entry bracket.right fault fuel t = .error (.limit e) ↔
      EntriesUpTo spells stop t := by
  induction fuel generalizing t with
  | zero =>
    refine ⟨nofun, fun ht => ?_⟩
    obtain ⟨p, u, rfl, -⟩ := ht.exists_cons h hstop
    exact absurd hfuel (by simp)
  | succ fuel ih =>
    rw [readEntries_succ_eq_limit_iff, hstop.eq_limit_iff hsize]
    constructor
    · rintro (ht | ⟨x, u, w, hx, hcomma, ht⟩)
      · exact .here ht
      obtain ⟨s, rfl, hs⟩ := h.sound hx
      obtain ⟨b, hb, hu⟩ := exists_isBlanks_append_skipBlanks u
      obtain ⟨b', hb', hw⟩ := exists_isBlanks_append_skipBlanks w
      have hlength : (skipBlanks w).length + 1 ≤ (s ++ u).length := by
        have := congrArg List.length hu
        have := length_skipBlanks_le w
        simp [hcomma] at *
        omega
      rw [ih (by omega) (by omega)] at ht
      rw [hu, hcomma, hw]
      exact .next hs hb hb' ht
    · rintro (ht | @⟨s, b, b', t, x, hs, hb, hb', ht⟩)
      · exact .inl ht
      obtain ⟨p, u, rfl, hp⟩ := ht.exists_cons h hstop
      have hx : entry (s ++ (b ++ .scalar ',' :: (b' ++ p :: u))) = .ok (x, _) :=
        h.complete (by simp at hsize; omega) hs (delimits_blanks_append hb (.inl rfl))
      refine .inr ⟨x, _, _, hx, skipBlanks_append_cons hb (by decide) _, ?_⟩
      rw [skipBlanks_append_cons hb' (not_isJsonBlank_of_opensValue hp),
        ih (by simp at hsize ⊢; omega) (by simp at hfuel ⊢; omega)]
      exact ht

/-- What stands between two brackets fails by a limit where an entry does. -/
theorem StopsAt.readEnclosed_eq_limit_iff (hstop : StopsAt size e entry stop)
    (h : ReadsBy size entry spells) (bracket : Bracket) (fault : Fault) {t : Text}
    (hsize : t.length ≤ size) :
    readEnclosed entry bracket fault size t = .error (.limit e) ↔
      ∃ b u, t = b ++ u ∧ IsBlanks b ∧ EntriesUpTo spells stop u := by
  have hlength := (length_skipBlanks_le t).trans hsize
  have hentries := hstop.readEntries_eq_limit_iff h bracket fault hlength hlength
  constructor
  · intro ht
    obtain ⟨b, hb, heq⟩ := exists_isBlanks_append_skipBlanks t
    refine ⟨b, skipBlanks t, heq, hb, hentries.1 ?_⟩
    unfold readEnclosed at ht
    split at ht
    · next hnil => rwa [hnil]
    · next p u hcons =>
      split_ifs at ht
      rwa [hcons]
  · rintro ⟨b, u, rfl, hb, hu⟩
    obtain ⟨p, u, rfl, hp⟩ := hu.exists_cons h hstop
    have hskip := skipBlanks_append_cons hb (not_isJsonBlank_of_opensValue hp) u
    rw [hskip] at hentries
    simp only [readEnclosed, hskip, if_neg (ne_right_of_opensValue hp bracket)]
    exact hentries.2 hu

end

/-! ### Members and values -/

section

variable {size : Nat} {e : LimitError} {value : ValueReader} {spells : Text → Json → Prop}
  {stop : Text → Prop}

/-- A member fails by a limit exactly at its value. -/
theorem readMember_eq_limit_iff {t : Text} : readMember value t = .error (.limit e) ↔
    ∃ body name u w, t = .scalar '\x22' :: (body ++ .scalar '\x22' :: u) ∧
      StringLiteral.Spells body name ∧ skipBlanks u = .scalar ':' :: w ∧
      value (skipBlanks w) = .error (.limit e) := by
  constructor
  · intro h
    unfold readMember at h
    split at h
    · next t =>
      rcases bind_eq_error_iff.1 h with hname | ⟨⟨name, u⟩, hname, hrest⟩
      · exact absurd hname readString_ne_limit
      obtain ⟨body, rfl, hbody⟩ := readString_eq_ok_iff.1 hname
      simp only at hrest
      split at hrest
      · next w hcolon =>
        rcases bind_eq_error_iff.1 hrest with hv | ⟨_, _, hpair⟩
        · exact ⟨body, name, u, w, rfl, hbody, hcolon, hv⟩
        · exact nomatch hpair
      · exact nomatch hrest
    · exact nomatch h
  · rintro ⟨body, name, u, w, rfl, hbody, hcolon, hv⟩
    rw [readMember_quote, bind_eq_error_iff]
    refine .inr ⟨_, readString_eq_ok_iff.2 ⟨body, rfl, hbody⟩, ?_⟩
    simp only [hcolon]
    exact bind_eq_error_iff.2 (.inl hv)

/-- A member fails by a limit where its value does. -/
theorem StopsAt.readMember (hstop : StopsAt size e value stop) :
    StopsAt size e (readMember value) (MemberUpTo stop) where
  eq_limit_iff := by
    intro t hsize
    rw [readMember_eq_limit_iff]
    constructor
    · rintro ⟨body, name, u, w, rfl, hbody, hcolon, hv⟩
      obtain ⟨b, hb, hu⟩ := exists_isBlanks_append_skipBlanks u
      obtain ⟨b', hb', hw⟩ := exists_isBlanks_append_skipBlanks w
      have hlength : (skipBlanks w).length ≤ size := by
        have := congrArg List.length hu
        have := length_skipBlanks_le w
        simp [hcolon] at *
        omega
      rw [hstop.eq_limit_iff hlength] at hv
      rw [hu, hcolon, hw]
      exact .intro hbody hb hb' hv
    · rintro @⟨body, name, b, b', t, hbody, hb, hb', ht⟩
      obtain ⟨p, u, rfl, hp⟩ := hstop.opens ht
      refine ⟨body, name, _, _, rfl, hbody, skipBlanks_append_cons hb (by decide) _, ?_⟩
      rw [skipBlanks_append_cons hb' (not_isJsonBlank_of_opensValue hp),
        hstop.eq_limit_iff (by simp at hsize ⊢; omega)]
      exact ht
  opens := by
    rintro t ⟨-, -, -, -⟩
    exact ⟨_, _, rfl, by decide⟩

/-- What stands between two brackets fails by a limit where a value inside does. -/
theorem StopsAt.readInside_eq_limit_iff (hstop : StopsAt size e value stop)
    (h : ReadsBy size value spells) {bracket : Bracket} {t : Text} (hsize : t.length ≤ size) :
    readInside value size bracket t = .error (.limit e) ↔
      ∃ b u, t = b ++ u ∧ IsBlanks b ∧ InsideUpTo spells stop bracket u := by
  cases bracket with
  | list =>
    rw [readInside_list, map_eq_error_iff,
      hstop.readEnclosed_eq_limit_iff h .list .noValue hsize]
    refine exists_congr fun b => exists_congr fun u => and_congr_right fun _ =>
      and_congr_right fun _ => ⟨.list, ?_⟩
    rintro ⟨hu⟩
    exact hu
  | object =>
    rw [readInside_object, map_eq_error_iff,
      hstop.readMember.readEnclosed_eq_limit_iff h.readMember .object .noName hsize]
    refine exists_congr fun b => exists_congr fun u => and_congr_right fun _ =>
      and_congr_right fun _ => ⟨.object, ?_⟩
    rintro (_ | hu)
    exact hu

end

theorem OpensLongInteger.opens {limits : Limits} {e : LimitError} {t : Text}
    (h : OpensLongInteger limits e t) : ∃ p u, t = p :: u ∧ opensValue p = true := by
  obtain ⟨p, u, rfl, rfl | hp⟩ := h.exists_cons
  · exact ⟨_, u, rfl, by decide⟩
  · exact ⟨p, u, rfl, by simp [opensValue, hp]⟩

theorem OpensLongInteger.opening?_eq_none {limits : Limits} {e : LimitError} {t : Text}
    (h : OpensLongInteger limits e t) : opening? t = none := by
  obtain ⟨p, u, rfl, hp⟩ := h.exists_cons
  rw [Option.eq_none_iff_forall_ne_some]
  rintro ⟨bracket, w⟩ heq
  rw [(List.cons.inj (opening?_eq_some_iff.1 heq)).1] at hp
  cases bracket <;> exact absurd hp (by decide)

theorem Overruns.exists_cons {limits : Limits} {e : LimitError} {depth : Nat} {t : Text}
    (h : Overruns limits e depth t) : ∃ p u, t = p :: u ∧ opensValue p = true := by
  cases depth with
  | zero =>
    rcases h with h | ⟨bracket, u, rfl, -⟩
    · exact h.opens
    · exact ⟨_, u, rfl, opensValue_left bracket⟩
  | succ depth =>
    rcases h with h | ⟨bracket, b, u, rfl, -, -⟩
    · exact h.opens
    · exact ⟨_, _, rfl, opensValue_left bracket⟩

/-- Values fail by a limit where they overrun it, whatever the depth. -/
theorem stopsAt_readValue (limits : Limits) (e : LimitError) (size depth : Nat) :
    StopsAt size e (readValue limits size depth) (Overruns limits e depth) := by
  induction depth with
  | zero =>
    refine ⟨fun {t} _ => ?_, Overruns.exists_cons⟩
    rw [readValue]
    split
    · next bracket u hopen =>
      obtain rfl := opening?_eq_some_iff.1 hopen
      constructor
      · intro h
        obtain rfl := ReadError.limit.inj (Except.error.inj h)
        exact .inr ⟨bracket, u, rfl, rfl⟩
      · rintro (h | ⟨bracket', u', heq, rfl⟩)
        · cases hopen.symm.trans h.opening?_eq_none
        · rw [heq, opening?_left] at hopen
          rw [(Prod.mk.inj (Option.some.inj hopen)).1]
    · next hopen =>
      rw [readAtom_eq_limit_iff]
      refine ⟨.inl, ?_⟩
      rintro (h | ⟨bracket, u, rfl, -⟩)
      · exact h
      · cases hopen.symm.trans (opening?_left bracket u)
  | succ depth ih =>
    refine ⟨fun {t} hsize => ?_, Overruns.exists_cons⟩
    rw [readValue]
    split
    · next bracket u hopen =>
      obtain rfl := opening?_eq_some_iff.1 hopen
      rw [ih.readInside_eq_limit_iff (readsBy_readValue limits size depth)
        (by simp at hsize; omega)]
      constructor
      · rintro ⟨b, w, rfl, hb, hw⟩
        exact .inr ⟨bracket, b, w, rfl, hb, hw⟩
      · rintro (h | ⟨bracket', b, w, heq, hb, hw⟩)
        · cases hopen.symm.trans h.opening?_eq_none
        · rw [heq, opening?_left] at hopen
          obtain ⟨rfl, rfl⟩ := Prod.mk.inj (Option.some.inj hopen)
          exact ⟨b, w, rfl, hb, hw⟩
    · next hopen =>
      rw [readAtom_eq_limit_iff]
      refine ⟨.inl, ?_⟩
      rintro (h | ⟨bracket, b, w, rfl, -, -⟩)
      · exact h
      · cases hopen.symm.trans (opening?_left bracket _)

/-! ### Whole texts -/

/-- A text fails by a limit exactly where it passes it. -/
theorem read_eq_limit_iff {limits : Limits} {e : LimitError} {t : Text} :
    read limits t = .error (.limit e) ↔ PassesLimit limits e t := by
  have hvalue := (stopsAt_readValue limits e t.length limits.depth).eq_limit_iff
    (length_skipBlanks_le t)
  constructor
  · intro h
    unfold read at h
    split at h
    · cases h
    rw [readWhole] at h
    split at h
    · next heq =>
      obtain rfl := Except.error.inj h
      obtain ⟨b, hb, hblanks⟩ := exists_isBlanks_append_skipBlanks t
      exact ⟨b, skipBlanks t, hblanks, hb, hvalue.1 heq⟩
    · split_ifs at h
      cases h
  · rintro ⟨b, u, rfl, hb, hu⟩
    obtain ⟨p, u, rfl, hp⟩ := hu.exists_cons
    rw [skipBlanks_append_cons hb (not_isJsonBlank_of_opensValue hp)] at hvalue
    rw [read_eq_readWhole hb hp, readWhole,
      skipBlanks_append_cons hb (not_isJsonBlank_of_opensValue hp), hvalue.2 hu]

end ElmReport.Json
