import ElmReport.Proofs.Json.Literal

/-!
# Reading values by the grammar

A text is read exactly when the grammar spells its value. Depth is followed by induction: one level
of brackets is read by the grammar as soon as the values inside are. The items of a list and the
members of an object are both entries with commas between them, so they are read by one function.

## Main definitions

* `readEntries`, `readEnclosed`: entries of any kind, and what stands between two brackets.
* `readMember`: the entry of an object.
* `ReadsBy`: a reader that takes exactly what is spelled.

## Main results

* `readInside_list`, `readInside_object`: lists and objects are read as entries.
* `readsBy_readValue`: values are read by the grammar.
* `read_eq_ok_iff`: whole texts are read by the grammar.
-/

namespace ElmReport.Json

open Outcome

/-! ### Entries -/

/-- Reads on after an entry: the closing bracket, or a comma and what `more` reads. -/
def readMore {α : Type} (close : CodePoint) (more : Text → Except ReadError (List α × Text)) (x : α)
    (t : Text) : Except ReadError (List α × Text) :=
  match skipBlanks t with
  | [] => throw (.fault .noComma)
  | p :: t =>
    if p = close then return ([x], t)
    else if p = .scalar ',' then do
      let (xs, t) ← more (skipBlanks t)
      return (x :: xs, t)
    else throw (.fault .noComma)

/-- Reads entries with commas between them, from the first one to the closing bracket. -/
def readEntries {α : Type} (entry : Text → Except ReadError (α × Text)) (close : CodePoint)
    (fault : Fault) : Nat → Text → Except ReadError (List α × Text)
  | 0, _ => .error (.fault fault)
  | fuel + 1, t => do
    let (x, t) ← entry t
    readMore close (readEntries entry close fault fuel) x t

section

variable {α : Type} {bracket : Bracket} {more : Text → Except ReadError (List α × Text)} {x : α}
  {t w : Text}

theorem Bracket.right_ne_comma (bracket : Bracket) : bracket.right ≠ .scalar ',' := by
  cases bracket <;> decide

theorem Bracket.not_isJsonBlank_right (bracket : Bracket) : isJsonBlank bracket.right = false := by
  cases bracket <;> decide

theorem readMore_close (h : skipBlanks t = bracket.right :: w) :
    readMore bracket.right more x t = .ok ([x], w) := by
  simp only [readMore, h, if_pos]
  rfl

theorem readMore_comma (h : skipBlanks t = .scalar ',' :: w) :
    readMore bracket.right more x t = more (skipBlanks w) >>= fun r => .ok (x :: r.1, r.2) := by
  simp only [readMore, h, if_neg bracket.right_ne_comma.symm, if_pos]
  rfl

theorem readMore_other (hclose : ∀ w, skipBlanks t ≠ bracket.right :: w)
    (hcomma : ∀ w, skipBlanks t ≠ .scalar ',' :: w) :
    readMore bracket.right more x t = .error (.fault .noComma) := by
  rw [readMore]
  rcases ht : skipBlanks t with _ | ⟨p, w⟩
  · rfl
  · have hp : p ≠ bracket.right := fun h => hclose w (h ▸ ht)
    have hp' : p ≠ .scalar ',' := fun h => hcomma w (h ▸ ht)
    simp only [if_neg hp, if_neg hp']
    rfl

/-- After an entry there is the closing bracket, a comma, or a fault. -/
theorem readMore_cases (bracket : Bracket) (more : Text → Except ReadError (List α × Text)) (x : α)
    (t : Text) :
    (∃ w, skipBlanks t = bracket.right :: w ∧ readMore bracket.right more x t = .ok ([x], w)) ∨
      (∃ w, skipBlanks t = .scalar ',' :: w ∧
        readMore bracket.right more x t =
          more (skipBlanks w) >>= fun r => .ok (x :: r.1, r.2)) ∨
      ((∀ w, skipBlanks t ≠ bracket.right :: w) ∧ (∀ w, skipBlanks t ≠ .scalar ',' :: w) ∧
        readMore bracket.right more x t = .error (.fault .noComma)) := by
  by_cases hclose : ∃ w, skipBlanks t = bracket.right :: w
  · obtain ⟨w, hw⟩ := hclose
    exact .inl ⟨w, hw, readMore_close hw⟩
  by_cases hcomma : ∃ w, skipBlanks t = .scalar ',' :: w
  · obtain ⟨w, hw⟩ := hcomma
    exact .inr (.inl ⟨w, hw, readMore_comma hw⟩)
  · exact .inr (.inr ⟨not_exists.1 hclose, not_exists.1 hcomma,
      readMore_other (not_exists.1 hclose) (not_exists.1 hcomma)⟩)

end

/-- Reads a member of an object: a name, a colon and a value. -/
def readMember (value : ValueReader) (t : Text) : Except ReadError ((Text × Json) × Text) :=
  match t with
  | .scalar '\x22' :: t => do
    let (name, t) ← readString t
    match skipBlanks t with
    | .scalar ':' :: t =>
      let (v, t) ← value (skipBlanks t)
      return ((name, v), t)
    | _ => throw (.fault .noColon)
  | _ => throw (.fault .noName)

/-- The items of a list are entries. -/
theorem readItems_eq_readEntries (value : ValueReader) (fuel : Nat) (t : Text) :
    readItems value fuel t = readEntries value Bracket.list.right .noValue fuel t := by
  induction fuel generalizing t with
  | zero => rfl
  | succ fuel ih =>
    rw [readItems, readEntries]
    congr 1
    funext ⟨v, u⟩
    simp only
    split
    · next hclose => exact (readMore_close hclose).symm
    · next hcomma =>
      simp only [ih]
      exact (readMore_comma hcomma).symm
    · next hclose hcomma => exact (readMore_other hclose hcomma).symm

theorem readMember_quote (value : ValueReader) (t : Text) :
    readMember value (.scalar '\x22' :: t) = (do
      let (name, t) ← readString t
      match skipBlanks t with
      | .scalar ':' :: t =>
        let (v, t) ← value (skipBlanks t)
        return ((name, v), t)
      | _ => throw (.fault .noColon)) := rfl

theorem readMember_of_not_quote (value : ValueReader) {t : Text}
    (h : ∀ u, t ≠ .scalar '\x22' :: u) : readMember value t = .error (.fault .noName) := by
  unfold readMember
  split
  · next u => exact absurd rfl (h u)
  · rfl

/-- The members of an object are entries. -/
theorem readMembers_eq_readEntries (value : ValueReader) (fuel : Nat) (t : Text) :
    readMembers value fuel t =
      readEntries (readMember value) Bracket.object.right .noName fuel t := by
  induction fuel generalizing t with
  | zero => rfl
  | succ fuel ih =>
    by_cases hquote : ∃ u, t = .scalar '\x22' :: u
    · obtain ⟨u, rfl⟩ := hquote
      rw [readMembers, readEntries, readMember_quote, bind_assoc]
      congr 1
      funext read
      obtain ⟨name, u⟩ := read
      by_cases hcolon : ∃ t, skipBlanks u = .scalar ':' :: t
      · obtain ⟨t, hcolon⟩ := hcolon
        simp only [hcolon, bind_assoc, pure_bind]
        congr 1
        funext read
        obtain ⟨v, w⟩ := read
        simp only
        split
        · next hclose => exact (readMore_close hclose).symm
        · next hcomma =>
          simp only [ih]
          exact (readMore_comma hcomma).symm
        · next hclose hcomma => exact (readMore_other hclose hcomma).symm
      · have hother (t : Text) : skipBlanks u = .scalar ':' :: t → False :=
          fun h => hcolon ⟨t, h⟩
        simp only
        rfl
    · have hother (u : Text) : t ≠ .scalar '\x22' :: u := fun h => hquote ⟨u, h⟩
      rw [readMembers, readEntries, readMember_of_not_quote value hother]
      · rfl
      · exact hother

/-- Reads what stands between two brackets: entries up to the closing one, or nothing. -/
def readEnclosed {α : Type} (entry : Text → Except ReadError (α × Text)) (bracket : Bracket)
    (fault : Fault) (fuel : Nat) (t : Text) : Except ReadError (List α × Text) :=
  match skipBlanks t with
  | [] => readEntries entry bracket.right fault fuel []
  | p :: u =>
    if p = bracket.right then .ok ([], u)
    else readEntries entry bracket.right fault fuel (p :: u)

theorem readInside_list (value : ValueReader) (fuel : Nat) (t : Text) :
    readInside value fuel .list t =
      (readEnclosed value .list .noValue fuel t).map fun r => (.list r.1, r.2) := by
  rw [readInside, readList, readEnclosed]
  split
  · next u hclose =>
    rw [hclose]
    rfl
  · next hclose =>
    rw [readItems_eq_readEntries]
    rcases ht : skipBlanks t with _ | ⟨p, u⟩
    · rfl
    · have hp : p ≠ Bracket.list.right := fun h => hclose u (by rw [ht, h]; rfl)
      simp only [if_neg hp]

theorem readInside_object (value : ValueReader) (fuel : Nat) (t : Text) :
    readInside value fuel .object t =
      (readEnclosed (readMember value) .object .noName fuel t).map fun r =>
        (.object (Members.ofPairs r.1), r.2) := by
  rw [readInside, readObject, readEnclosed]
  split
  · next u hclose =>
    rw [hclose]
    rfl
  · next hclose =>
    rw [readMembers_eq_readEntries]
    rcases ht : skipBlanks t with _ | ⟨p, u⟩
    · rfl
    · have hp : p ≠ Bracket.object.right := fun h => hclose u (by rw [ht, h]; rfl)
      simp only [if_neg hp]

section

variable {α : Type} {entry : Text → Except ReadError (α × Text)} {bracket : Bracket} {fault : Fault}
  {fuel : Nat}

/-- Entries are read up to the closing bracket after the first of them, or after a comma and the
entries that are left. -/
theorem readEntries_succ_eq_ok_iff {t rest : Text} {xs : List α} :
    readEntries entry bracket.right fault (fuel + 1) t = .ok (xs, rest) ↔
      ∃ x u, entry t = .ok (x, u) ∧
        ((skipBlanks u = bracket.right :: rest ∧ xs = [x]) ∨
          ∃ w ys, skipBlanks u = .scalar ',' :: w ∧
            readEntries entry bracket.right fault fuel (skipBlanks w) = .ok (ys, rest) ∧
            xs = x :: ys) := by
  rw [readEntries, bind_eq_ok_iff, Prod.exists]
  refine exists_congr fun x => exists_congr fun u => and_congr_right fun _ => ?_
  have hcomma := bracket.right_ne_comma
  simp only
  rcases readMore_cases bracket (readEntries entry bracket.right fault fuel) x u with
    ⟨w, hu, hmore⟩ | ⟨w, hu, hmore⟩ | ⟨hclose, hother, hmore⟩
  · rw [hmore, hu]
    constructor
    · intro h
      obtain ⟨rfl, rfl⟩ := Prod.mk.inj (Except.ok.inj h)
      exact .inl ⟨rfl, rfl⟩
    · rintro (⟨h, rfl⟩ | ⟨_, _, h, -⟩)
      · rw [(List.cons.inj h).2]
      · exact absurd (List.cons.inj h).1 hcomma
  · rw [hmore, hu, bind_eq_ok_iff]
    constructor
    · rintro ⟨⟨ys, rest'⟩, hys, h⟩
      obtain ⟨rfl, rfl⟩ := Prod.mk.inj (Except.ok.inj h)
      exact .inr ⟨w, ys, rfl, hys, rfl⟩
    · rintro (⟨h, -⟩ | ⟨_, ys, h, hys, rfl⟩)
      · exact absurd (List.cons.inj h).1.symm hcomma
      · obtain ⟨-, rfl⟩ := List.cons.inj h
        exact ⟨_, hys, rfl⟩
  · simp [hmore, hclose, hother]

end

/-! ### Readers that follow a grammar -/

/-- A reader that takes from the head of a text exactly what is spelled, if that is no longer than
`size`. -/
structure ReadsBy {α : Type} (size : Nat) (read : Text → Except ReadError (α × Text))
    (spells : Text → α → Prop) : Prop where
  sound : ∀ {t rest : Text} {x : α}, read t = .ok (x, rest) → ∃ s, t = s ++ rest ∧ spells s x
  complete : ∀ {s rest : Text} {x : α}, s.length ≤ size → spells s x → Delimits rest →
    read (s ++ rest) = .ok (x, rest)
  opens : ∀ {s : Text} {x : α}, spells s x → ∃ p t, s = p :: t ∧ opensValue p = true

namespace ReadsBy

theorem skipBlanks_append {α : Type} {size : Nat} {read : Text → Except ReadError (α × Text)}
    {spells : Text → α → Prop} (h : ReadsBy size read spells) {b s : Text} {x : α}
    (hb : IsBlanks b) (hs : spells s x) (rest : Text) :
    skipBlanks (b ++ (s ++ rest)) = s ++ rest := by
  obtain ⟨p, t, rfl, hp⟩ := h.opens hs
  exact skipBlanks_append_cons hb (not_isJsonBlank_of_opensValue hp) _

end ReadsBy

theorem delimits_blanks_append {b : Text} (hb : IsBlanks b) {p : CodePoint} {rest : Text}
    (hp : p = .scalar ',' ∨ ∃ bracket : Bracket, p = bracket.right) :
    Delimits (b ++ p :: rest) := by
  intro q hq
  rcases b with _ | ⟨b, bs⟩
  · obtain rfl : p = q := by simpa using hq
    exact .inr hp
  · obtain rfl : b = q := by simpa using hq
    exact .inl (hb b (by simp))

section

variable {α : Type} {size : Nat} {entry : Text → Except ReadError (α × Text)}
  {spells : Text → α → Prop}

theorem Entries.exists_cons (h : ReadsBy size entry spells) {close : CodePoint} {s : Text}
    {xs : List α} (hs : Entries spells close s xs) : ∃ p t, s = p :: t ∧ opensValue p = true := by
  cases hs with
  | last hs =>
    obtain ⟨p, t, rfl, hp⟩ := h.opens hs
    exact ⟨p, _, rfl, hp⟩
  | cons hs =>
    obtain ⟨p, t, rfl, hp⟩ := h.opens hs
    exact ⟨p, _, rfl, hp⟩

/-- What is read as entries is spelled as entries. -/
theorem ReadsBy.exists_entries (h : ReadsBy size entry spells) (bracket : Bracket) (fault : Fault)
    {fuel : Nat} {t rest : Text} {xs : List α}
    (ht : readEntries entry bracket.right fault fuel t = .ok (xs, rest)) :
    ∃ s, t = s ++ rest ∧ Entries spells bracket.right s xs := by
  induction fuel generalizing t xs with
  | zero => exact nomatch ht
  | succ fuel ih =>
    obtain ⟨x, u, hx, hu⟩ := readEntries_succ_eq_ok_iff.1 ht
    obtain ⟨s, rfl, hs⟩ := h.sound hx
    obtain ⟨b, hb, heq⟩ := exists_isBlanks_append_skipBlanks u
    rcases hu with ⟨hclose, rfl⟩ | ⟨w, ys, hcomma, hys, rfl⟩
    · rw [heq, hclose]
      exact ⟨s ++ (b ++ [bracket.right]), by simp, .last hs hb⟩
    · obtain ⟨b', hb', hw⟩ := exists_isBlanks_append_skipBlanks w
      obtain ⟨s', hs', hentries⟩ := ih hys
      rw [heq, hcomma, hw, hs']
      exact ⟨s ++ (b ++ .scalar ',' :: (b' ++ s')), by simp, .cons hs hb hb' hentries⟩

/-- What is spelled as entries is read as entries, if there is a unit of fuel for each code
point. -/
theorem ReadsBy.readEntries_append (h : ReadsBy size entry spells) (bracket : Bracket)
    (fault : Fault) {s : Text} {xs : List α} (hs : Entries spells bracket.right s xs)
    (hsize : s.length ≤ size) {fuel : Nat} (hfuel : s.length ≤ fuel) (rest : Text) :
    readEntries entry bracket.right fault fuel (s ++ rest) = .ok (xs, rest) := by
  induction hs generalizing fuel with
  | @last s b x hs hb =>
    obtain ⟨p, s', rfl, -⟩ := h.opens hs
    obtain ⟨fuel, rfl⟩ : ∃ n, fuel = n + 1 := ⟨fuel - 1, by simp at hfuel; omega⟩
    have hread : entry ((p :: s') ++ (b ++ bracket.right :: rest)) = .ok (x, _) :=
      h.complete (by simp at hsize ⊢; omega) hs (delimits_blanks_append hb (.inr ⟨bracket, rfl⟩))
    rw [readEntries_succ_eq_ok_iff]
    refine ⟨x, _, by simpa using hread, .inl ⟨?_, rfl⟩⟩
    exact skipBlanks_append_cons hb bracket.not_isJsonBlank_right rest
  | @cons s b b' t x xs hs hb hb' ht ih =>
    obtain ⟨p, s', rfl, -⟩ := h.opens hs
    obtain ⟨fuel, rfl⟩ : ∃ n, fuel = n + 1 := ⟨fuel - 1, by simp at hfuel; omega⟩
    have hread : entry ((p :: s') ++ (b ++ .scalar ',' :: (b' ++ (t ++ rest)))) = .ok (x, _) :=
      h.complete (by simp at hsize ⊢; omega) hs (delimits_blanks_append hb (.inl rfl))
    rw [readEntries_succ_eq_ok_iff]
    refine ⟨x, _, by simpa using hread, .inr ⟨b' ++ (t ++ rest), xs, ?_, ?_, rfl⟩⟩
    · exact skipBlanks_append_cons hb (by decide) _
    · obtain ⟨q, t', rfl, hq⟩ := ht.exists_cons h
      have hskip : skipBlanks (b' ++ ((q :: t') ++ rest)) = (q :: t') ++ rest :=
        skipBlanks_append_cons hb' (not_isJsonBlank_of_opensValue hq) _
      rw [hskip]
      exact ih (by simp at hsize ⊢; omega) (by simp at hfuel ⊢; omega)

/-- What is read between two brackets is spelled there, after some blanks. -/
theorem ReadsBy.exists_enclosed (h : ReadsBy size entry spells) {bracket : Bracket} {fault : Fault}
    {fuel : Nat} {t rest : Text} {xs : List α}
    (ht : readEnclosed entry bracket fault fuel t = .ok (xs, rest)) :
    ∃ b s, t = b ++ (s ++ rest) ∧ IsBlanks b ∧ Enclosed spells bracket.right s xs := by
  obtain ⟨b, hb, heq⟩ := exists_isBlanks_append_skipBlanks t
  unfold readEnclosed at ht
  split at ht
  · next hnil =>
    obtain ⟨s, hs, hentries⟩ := h.exists_entries bracket fault ht
    rw [heq, hnil, hs]
    exact ⟨b, s, rfl, hb, .entries hentries⟩
  · next p u hcons =>
    rw [heq, hcons]
    split_ifs at ht with hp
    · obtain ⟨rfl, rfl⟩ := Prod.mk.inj (Except.ok.inj ht)
      exact ⟨b, [p], rfl, hb, hp ▸ .empty⟩
    · obtain ⟨s, hs, hentries⟩ := h.exists_entries bracket fault ht
      rw [hs]
      exact ⟨b, s, rfl, hb, .entries hentries⟩

/-- What is spelled between two brackets is read there, after any blanks. -/
theorem ReadsBy.readEnclosed_append (h : ReadsBy size entry spells) (bracket : Bracket)
    (fault : Fault) {b s : Text} {xs : List α} (hb : IsBlanks b)
    (hs : Enclosed spells bracket.right s xs) (hsize : s.length ≤ size) (rest : Text) :
    readEnclosed entry bracket fault size (b ++ (s ++ rest)) = .ok (xs, rest) := by
  cases hs with
  | empty =>
    have hskip : skipBlanks (b ++ ([bracket.right] ++ rest)) = bracket.right :: rest :=
      skipBlanks_append_cons hb bracket.not_isJsonBlank_right rest
    simp only [readEnclosed, hskip, if_pos]
  | entries hentries =>
    obtain ⟨p, s', rfl, hp⟩ := hentries.exists_cons h
    have hskip : skipBlanks (b ++ ((p :: s') ++ rest)) = p :: (s' ++ rest) :=
      skipBlanks_append_cons hb (not_isJsonBlank_of_opensValue hp) _
    simp only [readEnclosed, hskip, if_neg (ne_right_of_opensValue hp bracket)]
    exact h.readEntries_append bracket fault hentries hsize hsize rest

end

/-! ### Members -/

theorem readMember_eq_ok_iff {value : ValueReader} {t rest name : Text} {v : Json} :
    readMember value t = .ok ((name, v), rest) ↔
      ∃ body u w, t = .scalar '\x22' :: (body ++ .scalar '\x22' :: u) ∧
        StringLiteral.Spells body name ∧ skipBlanks u = .scalar ':' :: w ∧
        value (skipBlanks w) = .ok (v, rest) := by
  constructor
  · intro h
    unfold readMember at h
    split at h
    · next t =>
      obtain ⟨⟨name', u⟩, hname, hrest⟩ := bind_eq_ok_iff.1 h
      obtain ⟨body, rfl, hbody⟩ := readString_eq_ok_iff.1 hname
      simp only at hrest
      split at hrest
      · next w hcolon =>
        obtain ⟨⟨v', rest'⟩, hv, hpair⟩ := bind_eq_ok_iff.1 hrest
        have heq : ((name', v'), rest') = ((name, v), rest) := pure_eq_ok_iff.1 hpair
        simp only [Prod.mk.injEq] at heq
        obtain ⟨⟨rfl, rfl⟩, rfl⟩ := heq
        exact ⟨body, u, w, rfl, hbody, hcolon, hv⟩
      · exact nomatch hrest
    · exact nomatch h
  · rintro ⟨body, u, w, rfl, hbody, hcolon, hv⟩
    rw [readMember_quote, bind_eq_ok_iff]
    refine ⟨_, readString_eq_ok_iff.2 ⟨body, rfl, hbody⟩, ?_⟩
    simp only [hcolon]
    exact bind_eq_ok_iff.2 ⟨_, hv, rfl⟩

/-- A member is read by the grammar if its value is. -/
theorem ReadsBy.readMember {size : Nat} {value : ValueReader} {spells : Text → Json → Prop}
    (h : ReadsBy size value spells) : ReadsBy size (readMember value) (IsMember spells) where
  sound := by
    rintro t rest ⟨name, v⟩ ht
    obtain ⟨body, u, w, rfl, hbody, hcolon, hv⟩ := readMember_eq_ok_iff.1 ht
    obtain ⟨s, hs, hspells⟩ := h.sound hv
    obtain ⟨b, hb, hu⟩ := exists_isBlanks_append_skipBlanks u
    obtain ⟨b', hb', hw⟩ := exists_isBlanks_append_skipBlanks w
    rw [hu, hcolon, hw, hs]
    exact ⟨_, by simp, .intro hbody hb hb' hspells⟩
  complete := by
    rintro s rest x hsize ⟨hbody, hb, hb', hs⟩ hrest
    rename_i body name b b' s v
    have hv : value (s ++ rest) = .ok (v, rest) :=
      h.complete (by simp at hsize; omega) hs hrest
    refine readMember_eq_ok_iff.2 ⟨body, b ++ .scalar ':' :: (b' ++ (s ++ rest)), _, by simp, hbody,
      skipBlanks_append_cons hb (by decide) _, ?_⟩
    rw [h.skipBlanks_append hb' hs, hv]
  opens := by
    rintro s x ⟨-, -, -, -⟩
    exact ⟨_, _, rfl, by decide⟩

/-! ### Values -/

section

variable {size : Nat} {value : ValueReader} {spells : Text → Json → Prop}

/-- What stands between two brackets is read by the grammar. -/
theorem ReadsBy.exists_inside (h : ReadsBy size value spells) {bracket : Bracket} {t rest : Text}
    {v : Json} (ht : readInside value size bracket t = .ok (v, rest)) :
    ∃ b s, t = b ++ (s ++ rest) ∧ IsBlanks b ∧ Inside spells bracket s v := by
  cases bracket with
  | list =>
    rw [readInside_list] at ht
    obtain ⟨⟨vs, rest'⟩, hvs, hv⟩ := map_eq_ok_iff.1 ht
    obtain ⟨rfl, rfl⟩ := Prod.mk.inj hv
    obtain ⟨b, s, hs, hb, henclosed⟩ := h.exists_enclosed hvs
    exact ⟨b, s, hs, hb, .list henclosed⟩
  | object =>
    rw [readInside_object] at ht
    obtain ⟨⟨ms, rest'⟩, hms, hv⟩ := map_eq_ok_iff.1 ht
    obtain ⟨rfl, rfl⟩ := Prod.mk.inj hv
    obtain ⟨b, s, hs, hb, henclosed⟩ := h.readMember.exists_enclosed hms
    exact ⟨b, s, hs, hb, .object henclosed⟩

theorem ReadsBy.readInside_append (h : ReadsBy size value spells) {bracket : Bracket} {b s : Text}
    {v : Json} (hb : IsBlanks b) (hs : Inside spells bracket s v) (hsize : s.length ≤ size)
    (rest : Text) : readInside value size bracket (b ++ (s ++ rest)) = .ok (v, rest) := by
  cases hs with
  | list henclosed =>
    rw [readInside_list]
    exact map_eq_ok_iff.2 ⟨_, h.readEnclosed_append .list .noValue hb henclosed hsize rest, rfl⟩
  | object henclosed =>
    rw [readInside_object]
    exact map_eq_ok_iff.2
      ⟨_, h.readMember.readEnclosed_append .object .noName hb henclosed hsize rest, rfl⟩

end

theorem opening?_left (bracket : Bracket) (t : Text) :
    opening? (bracket.left :: t) = some (bracket, t) := by
  cases bracket <;> rfl

theorem opening?_eq_some_iff {t u : Text} {bracket : Bracket} :
    opening? t = some (bracket, u) ↔ t = bracket.left :: u := by
  constructor
  · intro h
    unfold opening? at h
    split at h
    · obtain ⟨rfl, rfl⟩ := Prod.mk.inj (Option.some.inj h)
      rfl
    · obtain ⟨rfl, rfl⟩ := Prod.mk.inj (Option.some.inj h)
      rfl
    · exact nomatch h
  · rintro rfl
    exact opening?_left bracket u

/-- No value without brackets opens with one. -/
theorem SpellsAtom.opening?_append {limits : Limits} {s : Text} {v : Json}
    (h : SpellsAtom limits s v) (rest : Text) : opening? (s ++ rest) = none := by
  rw [Option.eq_none_iff_forall_ne_some]
  rintro ⟨bracket, u⟩ heq
  obtain ⟨p, t, rfl, -, hp⟩ := h.exists_cons
  exact hp bracket (List.cons.inj (opening?_eq_some_iff.1 heq)).1

/-- Values are read by the grammar, whatever the depth. -/
theorem readsBy_readValue (limits : Limits) (size depth : Nat) :
    ReadsBy size (readValue limits size depth) (Spells limits depth) := by
  induction depth with
  | zero =>
    refine ⟨fun {t rest v} h => ?_, fun {s rest v} _ hs hrest => ?_, Spells.exists_cons⟩
    · rw [readValue] at h
      split at h
      · exact nomatch h
      · exact exists_spellsAtom_of_readAtom h
    · have hs : SpellsAtom limits s v := hs
      rw [readValue, hs.opening?_append]
      exact hs.readAtom_append hrest
  | succ depth ih =>
    refine ⟨fun {t rest v} h => ?_, fun {s rest v} hsize hs hrest => ?_, Spells.exists_cons⟩
    · rw [readValue] at h
      split at h
      · next bracket u hopen =>
        obtain rfl := opening?_eq_some_iff.1 hopen
        obtain ⟨b, s, rfl, hb, hs⟩ := ih.exists_inside h
        exact ⟨bracket.left :: (b ++ s), by simp, .inr ⟨bracket, b, s, rfl, hb, hs⟩⟩
      · obtain ⟨s, rfl, hs⟩ := exists_spellsAtom_of_readAtom h
        exact ⟨s, rfl, .inl hs⟩
    · rcases hs with hs | ⟨bracket, b, u, rfl, hb, hu⟩
      · rw [readValue, hs.opening?_append]
        exact hs.readAtom_append hrest
      · rw [List.cons_append, readValue, opening?_left, List.append_assoc]
        exact ih.readInside_append hb hu (by simp at hsize; omega) rest

/-! ### Whole texts -/

theorem isBlanks_of_isEmpty_skipBlanks {t : Text} (h : (skipBlanks t).isEmpty = true) :
    IsBlanks t := by
  obtain ⟨b, hb, heq⟩ := exists_isBlanks_append_skipBlanks t
  rw [List.isEmpty_iff.1 h, List.append_nil] at heq
  rwa [heq]

theorem delimits_of_isBlanks {b : Text} (hb : IsBlanks b) : Delimits b :=
  fun p hp => .inl (hb p (List.mem_of_mem_head? hp))

/-- Neither blanks nor values open with a byte order mark. -/
theorem read_eq_readWhole {limits : Limits} {b t : Text} {p : CodePoint} (hb : IsBlanks b)
    (hp : opensValue p = true) : read limits (b ++ p :: t) = readWhole limits (b ++ p :: t) := by
  unfold read
  split
  · next heq =>
    rcases b with _ | ⟨q, b⟩
    · rw [(List.cons.inj heq).1] at hp
      exact absurd hp (by decide)
    · have hq : isJsonBlank q = true := hb q (by simp)
      rw [(List.cons.inj heq).1] at hq
      exact absurd hq (by decide)
  · rfl

/-- A text is read exactly as the value that it spells, with blanks around it. -/
theorem read_eq_ok_iff {limits : Limits} {t : Text} {v : Json} :
    read limits t = .ok v ↔ ∃ b s b', t = b ++ (s ++ b') ∧ IsBlanks b ∧ IsBlanks b' ∧
      Spells limits limits.depth s v := by
  constructor
  · intro h
    unfold read at h
    split at h
    · exact nomatch h
    rw [readWhole] at h
    split at h
    · exact nomatch h
    · next v' rest hv =>
      split_ifs at h with hrest
      obtain rfl := Except.ok.inj h
      obtain ⟨b, hb, heq⟩ := exists_isBlanks_append_skipBlanks t
      obtain ⟨s, hs, hspells⟩ := (readsBy_readValue limits t.length limits.depth).sound hv
      exact ⟨b, s, rest, by rw [← hs, ← heq], hb, isBlanks_of_isEmpty_skipBlanks hrest, hspells⟩
  · rintro ⟨b, s, b', rfl, hb, hb', hs⟩
    have hreads := readsBy_readValue limits (b ++ (s ++ b')).length limits.depth
    have hwhole : read limits (b ++ (s ++ b')) = readWhole limits (b ++ (s ++ b')) := by
      obtain ⟨p, u, rfl, hp⟩ := hs.exists_cons
      exact read_eq_readWhole hb hp
    rw [hwhole, readWhole, hreads.skipBlanks_append hb hs,
      hreads.complete (by simp; omega) hs (delimits_of_isBlanks hb')]
    simp [skipBlanks_of_isBlanks hb']

end ElmReport.Json
