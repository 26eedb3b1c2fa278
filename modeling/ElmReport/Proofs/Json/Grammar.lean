import ElmReport.Json.Reader
import Mathlib.Data.List.TakeWhile

/-!
# The grammar of JSON texts

Which texts spell which values. The grammar follows the nesting of brackets: what is spelled inside
at most `depth + 1` brackets is laid down by what is spelled inside at most `depth` of them. The
limits of the reader are part of the grammar, so that a text is spelled exactly when it is read.

## Main definitions

* `IsBlanks`: the texts that may stand between the parts of a value.
* `StringLiteral.Spells`: what stands between two quotes.
* `NumberLiteral.Spells`: the literals of a number.
* `Entries`, `Enclosed`, `IsMember`: what stands between two brackets.
* `Spells`: the texts of a value.
* `Delimits`: what may follow a value.

## Main results

* `Spells.exists_cons`: by which code points a value opens.
-/

namespace ElmReport.Json

/-- Blanks, which may stand between the parts of a value. -/
def IsBlanks (t : Text) : Prop := ∀ p ∈ t, isJsonBlank p = true

instance (t : Text) : Decidable (IsBlanks t) :=
  inferInstanceAs (Decidable (∀ p ∈ t, isJsonBlank p = true))

theorem isBlanks_nil : IsBlanks [] := by simp [IsBlanks]

theorem not_isBlanks_of_mem {t : Text} {p : CodePoint} (h : p ∈ t) (hp : isJsonBlank p = false) :
    ¬ IsBlanks t := fun ht => absurd (ht p h) (by simp [hp])

/-- What is left after the blanks at the head of a text follows some blanks. -/
theorem exists_isBlanks_append_skipBlanks (t : Text) :
    ∃ b, IsBlanks b ∧ t = b ++ skipBlanks t :=
  ⟨t.takeWhile isJsonBlank, fun _ hp => List.mem_takeWhile_imp hp,
    (List.takeWhile_append_dropWhile ..).symm⟩

theorem skipBlanks_cons_of_not_blank {p : CodePoint} (h : isJsonBlank p = false) (t : Text) :
    skipBlanks (p :: t) = p :: t := by
  simp [skipBlanks, h]

/-- Blanks in front of a code point that is none are passed over. -/
theorem skipBlanks_append_cons {b : Text} (hb : IsBlanks b) {p : CodePoint}
    (h : isJsonBlank p = false) (t : Text) : skipBlanks (b ++ p :: t) = p :: t := by
  rw [skipBlanks_append hb, skipBlanks_cons_of_not_blank h]

theorem skipBlanks_of_isBlanks {b : Text} (hb : IsBlanks b) : skipBlanks b = [] := by
  rw [skipBlanks, List.dropWhile_eq_nil_iff]
  exact hb

/-! ### Strings -/

namespace StringLiteral

/-- The text goes on with an escape that closes the pair of surrogates that `high` opens. -/
def ClosesPair (high : CodePoint) (t : Text) : Prop :=
  ∃ (a b c d : CodePoint) (rest : Text) (n : Nat) (q : CodePoint),
    t = .scalar '\x5c' :: .scalar 'u' :: a :: b :: c :: d :: rest ∧ hexValue? a b c d = some n ∧
      CodePoint.pair? high (.ofNat n) = some q

/-- What stands between two quotes, and the text that it spells. -/
inductive Spells : Text → Text → Prop
  | nil : Spells [] []
  | plain {p : CodePoint} {body t : Text} (hquote : p ≠ .scalar '\x22')
      (hbackslash : p ≠ .scalar '\x5c') (hcontrol : ¬ p.val < 0x20) (h : Spells body t) :
      Spells (p :: body) (p :: t)
  | short {p q : CodePoint} {body t : Text} (hp : shortEscape? p = some q) (h : Spells body t) :
      Spells (.scalar '\x5c' :: p :: body) (q :: t)
  | unicode {a b c d : CodePoint} {n : Nat} {body t : Text} (hn : hexValue? a b c d = some n)
      (hpair : ¬ ClosesPair (.ofNat n) body) (h : Spells body t) :
      Spells (.scalar '\x5c' :: .scalar 'u' :: a :: b :: c :: d :: body) (.ofNat n :: t)
  | pair {a b c d a' b' c' d' q : CodePoint} {n m : Nat} {body t : Text}
      (hn : hexValue? a b c d = some n) (hm : hexValue? a' b' c' d' = some m)
      (hq : CodePoint.pair? (.ofNat n) (.ofNat m) = some q) (h : Spells body t) :
      Spells (.scalar '\x5c' :: .scalar 'u' :: a :: b :: c :: d ::
        .scalar '\x5c' :: .scalar 'u' :: a' :: b' :: c' :: d' :: body) (q :: t)

end StringLiteral

/-! ### Numbers -/

/-- Whether a text opens with a digit. -/
def StartsDigit (t : Text) : Prop := ∃ p rest, t = p :: rest ∧ p.isAsciiDigit = true

/-- Digits without anything else. -/
def IsDigits (t : Text) : Prop := ∀ p ∈ t, p.isAsciiDigit = true

namespace NumberLiteral

/-- A whole part: a zero alone, or digits that do not start with zero. -/
inductive IsWhole : Text → Prop
  | zero : IsWhole [.scalar '0']
  | digits {p : CodePoint} {t : Text} (hzero : p ≠ .scalar '0') (hp : p.isAsciiDigit = true)
      (ht : IsDigits t) : IsWhole (p :: t)

/-- A fraction with its point, and its digits. -/
inductive SpellsFraction : Text → Text → Prop
  | absent : SpellsFraction [] []
  | digits {ds : Text} (hne : ds ≠ []) (hds : IsDigits ds) : SpellsFraction (.scalar '.' :: ds) ds

/-- The sign of an exponent, which says whether it is negative. -/
inductive SpellsSign : Text → Bool → Prop
  | absent : SpellsSign [] false
  | plus : SpellsSign [.scalar '+'] false
  | minus : SpellsSign [.scalar '-'] true

/-- An exponent with its mark, its sign and its digits. -/
inductive SpellsExponent : Text → Option (Bool × Text) → Prop
  | absent : SpellsExponent [] none
  | digits {mark : CodePoint} {sign ds : Text} {negative : Bool}
      (hmark : mark = .scalar 'e' ∨ mark = .scalar 'E') (hsign : SpellsSign sign negative)
      (hne : ds ≠ []) (hds : IsDigits ds) :
      SpellsExponent (mark :: (sign ++ ds)) (some (negative, ds))

/-- The minus sign of a negative number. -/
def minus (negative : Bool) : Text := if negative then [.scalar '-'] else []

/-- The texts of a literal. -/
inductive Spells : Text → NumberLiteral → Prop
  | parts {negative : Bool} {whole fraction f x : Text} {exponent : Option (Bool × Text)}
      (hwhole : IsWhole whole) (hf : SpellsFraction f fraction)
      (hx : SpellsExponent x exponent) :
      Spells (minus negative ++ (whole ++ (f ++ x))) ⟨negative, whole, fraction, exponent⟩

/-- A whole part is a literal of its own. -/
theorem spells_whole (negative : Bool) {whole : Text} (h : IsWhole whole) :
    Spells (minus negative ++ whole) ⟨negative, whole, [], none⟩ := by
  have hparts : Spells (minus negative ++ (whole ++ ([] ++ []))) ⟨negative, whole, [], none⟩ :=
    .parts h .absent .absent
  simpa using hparts

/-- A point and a digit, by which a literal goes on with a fraction. -/
def StartsFraction (t : Text) : Prop := ∃ rest, t = .scalar '.' :: rest ∧ StartsDigit rest

/-- A mark, perhaps a sign, and a digit, by which a literal goes on with an exponent. -/
def StartsExponent (t : Text) : Prop :=
  ∃ (mark : CodePoint) (sign : Text) (negative : Bool) (rest : Text),
    t = mark :: (sign ++ rest) ∧ (mark = .scalar 'e' ∨ mark = .scalar 'E') ∧
      SpellsSign sign negative ∧ StartsDigit rest

/-- A literal does not go on with what follows it. After a zero alone a digit does not go on the
literal. -/
structure Stops (n : NumberLiteral) (rest : Text) : Prop where
  digit : (n.whole = [.scalar '0'] → n.fraction = [] → n.exponent ≠ none) → ¬ StartsDigit rest
  fraction : n.fraction = [] → n.exponent = none → ¬ StartsFraction rest
  exponent : n.exponent = none → ¬ StartsExponent rest

end NumberLiteral

/-! ### Values -/

/-- The texts of a value without brackets. -/
inductive SpellsAtom (limits : Limits) : Text → Json → Prop
  | string {body t : Text} (h : StringLiteral.Spells body t) :
      SpellsAtom limits (.scalar '\x22' :: (body ++ [.scalar '\x22'])) (.string t)
  | word {w : Text} {v : Json} (h : (w, v) ∈ words) : SpellsAtom limits w v
  | number {s : Text} {n : NumberLiteral} {v : Json} (h : n.Spells s)
      (hv : n.value limits = .ok v) : SpellsAtom limits s v

/-- Entries with commas between them, up to a closing bracket. -/
inductive Entries {α : Type} (entry : Text → α → Prop) (close : CodePoint) :
    Text → List α → Prop
  | last {s b : Text} {x : α} (hs : entry s x) (hb : IsBlanks b) :
      Entries entry close (s ++ (b ++ [close])) [x]
  | cons {s b b' t : Text} {x : α} {xs : List α} (hs : entry s x) (hb : IsBlanks b)
      (hb' : IsBlanks b') (ht : Entries entry close t xs) :
      Entries entry close (s ++ (b ++ .scalar ',' :: (b' ++ t))) (x :: xs)

/-- A member of an object: a name, a colon and a value. -/
inductive IsMember (value : Text → Json → Prop) : Text → Text × Json → Prop
  | intro {body name b b' s : Text} {v : Json} (hname : StringLiteral.Spells body name)
      (hb : IsBlanks b) (hb' : IsBlanks b') (hs : value s v) :
      IsMember value
        (.scalar '\x22' :: (body ++ .scalar '\x22' :: (b ++ .scalar ':' :: (b' ++ s)))) (name, v)

/-- The opening bracket. -/
def Bracket.left : Bracket → CodePoint
  | list => .scalar '['
  | object => .scalar '\x7b'

/-- The closing bracket. -/
def Bracket.right : Bracket → CodePoint
  | list => .scalar ']'
  | object => .scalar '\x7d'

/-- Entries up to a closing bracket, or the bracket alone. -/
inductive Enclosed {α : Type} (entry : Text → α → Prop) (close : CodePoint) :
    Text → List α → Prop
  | empty : Enclosed entry close [close] []
  | entries {t : Text} {xs : List α} (h : Entries entry close t xs) : Enclosed entry close t xs

/-- What follows an opening bracket up to the closing one, given the texts of the values inside. -/
inductive Inside (value : Text → Json → Prop) : Bracket → Text → Json → Prop
  | list {t : Text} {vs : List Json} (h : Enclosed value (.scalar ']') t vs) :
      Inside value .list t (.list vs)
  | object {t : Text} {pairs : List (Text × Json)}
      (h : Enclosed (IsMember value) (.scalar '\x7d') t pairs) :
      Inside value .object t (.object (Members.ofPairs pairs))

/-- The texts of a value inside which at most `depth` brackets are open at a time. -/
def Spells (limits : Limits) : Nat → Text → Json → Prop
  | 0, s, v => SpellsAtom limits s v
  | depth + 1, s, v =>
    SpellsAtom limits s v ∨
      ∃ (bracket : Bracket) (b t : Text), s = bracket.left :: (b ++ t) ∧ IsBlanks b ∧
        Inside (Spells limits depth) bracket t v

/-- What may follow a value: nothing, a blank, a comma or a closing bracket. -/
def Delimits (rest : Text) : Prop :=
  ∀ p ∈ rest.head?, isJsonBlank p = true ∨ p = .scalar ',' ∨ ∃ b : Bracket, p = b.right

/-! ### How a value opens -/

/-- The code points by which a value opens. -/
def opensValue (p : CodePoint) : Bool :=
  p.isAsciiDigit || [.scalar '\x22', .scalar '-', .scalar 'n', .scalar 't', .scalar 'f',
    .scalar 'N', .scalar 'I', .scalar '[', .scalar '\x7b'].contains p

theorem isJsonBlank_iff {p : CodePoint} : isJsonBlank p = true ↔
    p = .scalar ' ' ∨ p = .scalar '\t' ∨ p = .scalar '\n' ∨ p = .scalar '\r' := by
  simp [isJsonBlank, or_assoc]

theorem not_isJsonBlank_of_opensValue {p : CodePoint} (h : opensValue p = true) :
    isJsonBlank p = false := by
  by_contra hb
  rw [Bool.not_eq_false, isJsonBlank_iff] at hb
  rcases hb with rfl | rfl | rfl | rfl <;> exact absurd h (by decide)

theorem ne_right_of_opensValue {p : CodePoint} (h : opensValue p = true) (b : Bracket) :
    p ≠ b.right := by
  rintro rfl
  cases b <;> exact absurd h (by decide)

theorem opensValue_left (b : Bracket) : opensValue b.left = true := by
  cases b <;> decide

theorem NumberLiteral.IsWhole.exists_cons {w : Text} (h : IsWhole w) :
    ∃ p t, w = p :: t ∧ p.isAsciiDigit = true := by
  cases h with
  | zero => exact ⟨_, [], rfl, by decide⟩
  | digits _ hp _ => exact ⟨_, _, rfl, hp⟩

theorem NumberLiteral.Spells.exists_cons {s : Text} {n : NumberLiteral} (h : n.Spells s) :
    ∃ p t, s = p :: t ∧ (p = .scalar '-' ∨ p.isAsciiDigit = true) := by
  obtain ⟨hwhole, -, -⟩ := h
  rename_i negative whole fraction f x exponent
  obtain ⟨p, t, rfl, hp⟩ := hwhole.exists_cons
  cases negative with
  | false => exact ⟨p, _, rfl, .inr hp⟩
  | true => exact ⟨.scalar '-', _, rfl, .inl rfl⟩

/-- A value without brackets opens as values do, but not with a bracket. -/
theorem SpellsAtom.exists_cons {limits : Limits} {s : Text} {v : Json} (h : SpellsAtom limits s v) :
    ∃ p t, s = p :: t ∧ opensValue p = true ∧ ∀ b : Bracket, p ≠ b.left := by
  cases h with
  | string => exact ⟨_, _, rfl, by decide, fun b => by cases b <;> decide⟩
  | word h =>
    simp only [words, List.mem_cons, Prod.mk.injEq, List.not_mem_nil, or_false] at h
    rcases h with h | h | h | h | h | h <;> obtain ⟨rfl, -⟩ := h <;>
      exact ⟨_, _, rfl, by decide, fun b => by cases b <;> decide⟩
  | number h =>
    obtain ⟨p, t, rfl, rfl | hp⟩ := h.exists_cons
    · exact ⟨_, t, rfl, by decide, fun b => by cases b <;> decide⟩
    · refine ⟨p, t, rfl, by simp [opensValue, hp], ?_⟩
      rintro b rfl
      cases b <;> exact absurd hp (by decide)

/-- A value opens with a quote, a letter, a digit, a minus sign or a bracket. -/
theorem Spells.exists_cons {limits : Limits} {depth : Nat} {s : Text} {v : Json}
    (h : Spells limits depth s v) : ∃ p t, s = p :: t ∧ opensValue p = true := by
  cases depth with
  | zero =>
    obtain ⟨p, t, hs, hp, -⟩ := SpellsAtom.exists_cons h
    exact ⟨p, t, hs, hp⟩
  | succ depth =>
    rcases h with h | ⟨bracket, b, t, rfl, -, -⟩
    · obtain ⟨p, t, hs, hp, -⟩ := h.exists_cons
      exact ⟨p, t, hs, hp⟩
    · exact ⟨_, _, rfl, opensValue_left bracket⟩

end ElmReport.Json
