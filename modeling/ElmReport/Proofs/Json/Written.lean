import ElmReport.Json.Writer
import ElmReport.Proofs.Json.Reading
import ElmReport.Proofs.Json.Tree
import Mathlib.Data.List.Chain
import Mathlib.Data.List.Nodup

/-!
# Reading what is written

The compact form of a value spells this value, so it is read as the value again. Three things do not
come back: a text in which two surrogates side by side make a pair, since their escapes are read as
one code point; an integer with more digits, or a nesting with more brackets, than the reader takes;
and an object that names a member twice. Decimal fractions are left aside.

## Main definitions

* `Text.IsUnpaired`: the texts without pairs of surrogates.
* `Json.Fits`: the values that come back.

## Main results

* `Json.StringLiteral.spells_flatMap_jsonEscaped`: an escaped text is spelled as it.
* `Json.NumberLiteral.spells_ofInt`: a written integer is spelled as it.
* `Json.spellsTree_compact_object`: the compact form of an object spells all its pairs.
* `Json.Fits.spells_compact`, `Json.Fits.read_compact`: the compact form of a value is spelled as
  it, and read as it.
-/

namespace ElmReport

/-- A text in which no surrogate that opens a pair stands directly before one that closes it. -/
def Text.IsUnpaired (t : Text) : Prop :=
  t.IsChain fun p q => ¬ (p.isHigh = true ∧ q.isLow = true)

instance : DecidablePred Text.IsUnpaired := fun t =>
  inferInstanceAs (Decidable (t.IsChain fun p q => ¬ (p.isHigh = true ∧ q.isLow = true)))

/-- A text without surrogates has no pairs of them. -/
theorem Text.isUnpaired_of_isScalar {t : Text} (h : t.IsScalar) : t.IsUnpaired := by
  induction t with
  | nil => exact .nil
  | cons p t ih =>
    obtain ⟨hp, ht⟩ := Text.isScalar_cons.1 h
    refine (ih ht).cons fun q _ hpair => ?_
    obtain ⟨c, rfl⟩ := hp
    have hhigh := hpair.1
    rw [CodePoint.isHigh, CodePoint.val_scalar] at hhigh
    simp only [Bool.and_eq_true, decide_eq_true_eq] at hhigh
    rcases c.valid with hc | hc <;> simp only [Char.toNat] at hhigh <;> omega

namespace CodePoint

theorem val_lt (p : CodePoint) : p.val < 0x110000 := by
  cases p with
  | scalar c =>
    rcases c.valid with h | ⟨-, h⟩
    · exact Nat.lt_trans h (by decide)
    · exact h
  | surrogate s =>
    rw [val_surrogate]
    omega

theorem val_ofNat_surrogate {n : Nat} (h : 0xD800 ≤ n) (h' : n < 0xE000) : (ofNat n).val = n := by
  have hvalid : ¬ n.isValidChar := by
    simp only [Nat.isValidChar]
    omega
  rw [ofNat, dif_neg hvalid, dif_pos ⟨h, h'⟩, val_surrogate]
  exact Nat.add_sub_of_le h

/-- The halves of a pair of surrogates stand for the scalar value that was parted. -/
theorem pair?_halves {p : CodePoint} (h : 0x10000 ≤ p.val) :
    pair? (ofNat (0xD800 + (p.val - 0x10000) / 0x400))
      (ofNat (0xDC00 + (p.val - 0x10000) % 0x400)) = some p := by
  have hp := p.val_lt
  have hhigh : (ofNat (0xD800 + (p.val - 0x10000) / 0x400)).val =
      0xD800 + (p.val - 0x10000) / 0x400 := val_ofNat_surrogate (by omega) (by omega)
  have hlow : (ofNat (0xDC00 + (p.val - 0x10000) % 0x400)).val =
      0xDC00 + (p.val - 0x10000) % 0x400 := val_ofNat_surrogate (by omega) (by omega)
  have hsum : 0x10000 + (0xD800 + (p.val - 0x10000) / 0x400 - 0xD800) * 0x400 +
      (0xDC00 + (p.val - 0x10000) % 0x400 - 0xDC00) = p.val := by omega
  rw [pair?, isHigh, isLow, hhigh, hlow, hsum, ofNat_val, if_pos]
  simp only [Bool.and_eq_true, decide_eq_true_eq]
  omega

/-- A code point is written as itself, as an escape of one letter, as four hexadecimal digits, or as
two times four of them. -/
theorem jsonEscaped_cases (p : CodePoint) :
    (∃ q, p.jsonEscaped = [.scalar '\x5c', q] ∧ Json.StringLiteral.shortEscape? q = some p) ∨
      (p.jsonEscaped = [p] ∧ p ≠ .scalar '\x22' ∧ p ≠ .scalar '\x5c' ∧ ¬ p.val < 0x20) ∨
      (p.val < 0x10000 ∧ p.jsonEscaped = ("\\u" : Text) ++ Text.hex 4 p.val) ∨
      (0x10000 ≤ p.val ∧ p.jsonEscaped =
        ("\\u" : Text) ++ Text.hex 4 (0xD800 + (p.val - 0x10000) / 0x400) ++
          (("\\u" : Text) ++ Text.hex 4 (0xDC00 + (p.val - 0x10000) % 0x400))) := by
  by_cases hself : p = .scalar '\x22' ∨ p = .scalar '\x5c'
  · refine .inl ⟨p, if_pos hself, ?_⟩
    rcases hself with rfl | rfl <;> rfl
  by_cases hletter : p = .scalar '\n' ∨ p = .scalar '\r' ∨ p = .scalar '\t' ∨
      p = .scalar '\x0c' ∨ p = .scalar '\x08'
  · rcases hletter with rfl | rfl | rfl | rfl | rfl <;> exact .inl ⟨_, rfl, rfl⟩
  simp only [not_or] at hletter
  obtain ⟨hn, hr, ht, hf, hb⟩ := hletter
  rw [jsonEscaped, if_neg hself, if_neg hn, if_neg hr, if_neg ht, if_neg hf, if_neg hb]
  by_cases hplain : 0x20 ≤ p.val ∧ p.val < 0x7F
  · rw [if_pos hplain]
    exact .inr (.inl ⟨rfl, fun h => hself (.inl h), fun h => hself (.inr h), by omega⟩)
  by_cases hsmall : p.val < 0x10000
  · rw [if_neg hplain, if_pos hsmall]
    exact .inr (.inr (.inl ⟨hsmall, rfl⟩))
  · rw [if_neg hplain, if_neg hsmall]
    exact .inr (.inr (.inr ⟨by omega, rfl⟩))

end CodePoint

namespace Json

/-! ### Strings -/

namespace StringLiteral

theorem hexValue?_hexDigit {n : Nat} (h : n < 16) : (Text.hexDigit n).hexValue? = some n := by
  have hall : ∀ i : Fin 16, (Text.hexDigit i).hexValue? = some i.val := by decide
  exact hall ⟨n, h⟩

/-- Four hexadecimal digits stand for the number that was written with them. -/
theorem exists_hex_four {n : Nat} (h : n < 0x10000) :
    ∃ a b c d, Text.hex 4 n = [a, b, c, d] ∧ hexValue? a b c d = some n := by
  refine ⟨_, _, _, _, rfl, ?_⟩
  rw [hexValue?, hexValue?_hexDigit (by omega), hexValue?_hexDigit (by omega),
    hexValue?_hexDigit (by omega), hexValue?_hexDigit (by omega)]
  simp only [Option.some.injEq]
  omega

theorem shortEscape?_ne_u {p q : CodePoint} (h : shortEscape? p = some q) : p ≠ .scalar 'u' := by
  rintro rfl
  exact nomatch (h : shortEscape? (.scalar 'u') = some q)

/-- An escape of four digits closes a pair only if it stands for a surrogate that does. -/
theorem ClosesPair.of_hex {high : CodePoint} {n : Nat} (hn : n < 0x10000) {t : Text}
    (h : ClosesPair high (("\\u" : Text) ++ Text.hex 4 n ++ t)) :
    high.isHigh = true ∧ (CodePoint.ofNat n).isLow = true := by
  obtain ⟨a, b, c, d, rest, m, r, heq, hm, hr⟩ := h
  obtain ⟨a', b', c', d', hhex, hn'⟩ := exists_hex_four hn
  rw [hhex] at heq
  have heq : CodePoint.scalar '\x5c' :: .scalar 'u' :: a' :: b' :: c' :: d' :: t =
    .scalar '\x5c' :: .scalar 'u' :: a :: b :: c :: d :: rest := heq
  simp only [List.cons.injEq, true_and] at heq
  obtain ⟨rfl, rfl, rfl, rfl, -⟩ := heq
  obtain rfl := Option.some.inj (hn'.symm.trans hm)
  by_contra hno
  simp [CodePoint.pair?, hno] at hr

/-- What is written for a text does not close a pair that its first code point does not close. -/
theorem not_closesPair_flatMap {p : CodePoint} {t : Text}
    (h : ∀ q ∈ t.head?, ¬ (p.isHigh = true ∧ q.isLow = true)) :
    ¬ ClosesPair p (t.flatMap CodePoint.jsonEscaped) := by
  intro hcloses
  rcases t with _ | ⟨q, t⟩
  · obtain ⟨a, b, c, d, rest, n, r, heq, -⟩ := hcloses
    exact nomatch heq
  rw [List.flatMap_cons] at hcloses
  -- Only an escape of four digits goes on like the second half of a pair.
  rcases q.jsonEscaped_cases with ⟨x, hx, hshort⟩ | ⟨hx, -, hback, -⟩ | ⟨hsmall, hx⟩ | ⟨hlarge, hx⟩
  · obtain ⟨a, b, c, d, rest, n, r, heq, -⟩ := hcloses
    rw [hx] at heq
    exact shortEscape?_ne_u hshort (List.cons.inj (List.cons.inj heq).2).1
  · obtain ⟨a, b, c, d, rest, n, r, heq, -⟩ := hcloses
    rw [hx] at heq
    exact hback (List.cons.inj heq).1
  · rw [hx] at hcloses
    have hpair := hcloses.of_hex hsmall
    rw [CodePoint.ofNat_val] at hpair
    exact h q rfl hpair
  · have hq := q.val_lt
    rw [hx, List.append_assoc] at hcloses
    have hlow := (hcloses.of_hex (by omega)).2
    rw [CodePoint.isLow, CodePoint.val_ofNat_surrogate (by omega) (by omega)] at hlow
    simp only [Bool.and_eq_true, decide_eq_true_eq] at hlow
    omega

/-- An escaped text is spelled as it. -/
theorem spells_flatMap_jsonEscaped {t : Text} (h : t.IsUnpaired) :
    Spells (t.flatMap CodePoint.jsonEscaped) t := by
  induction t with
  | nil => exact .nil
  | cons p t ih =>
    obtain ⟨hhead, htail⟩ := List.isChain_cons.1 h
    have ih := ih htail
    rw [List.flatMap_cons]
    rcases p.jsonEscaped_cases with ⟨x, hx, hshort⟩ | ⟨hx, hquote, hback, hcontrol⟩ |
      ⟨hsmall, hx⟩ | ⟨hlarge, hx⟩
    · rw [hx]
      exact .short hshort ih
    · rw [hx]
      exact .plain hquote hback hcontrol ih
    · obtain ⟨a, b, c, d, hhex, hn⟩ := exists_hex_four hsmall
      have hpair := not_closesPair_flatMap hhead
      rw [hx, hhex]
      rw [← p.ofNat_val] at hpair
      have hspells := Spells.unicode hn hpair ih
      rwa [CodePoint.ofNat_val] at hspells
    · have hp := p.val_lt
      obtain ⟨a, b, c, d, hhex, hn⟩ :=
        exists_hex_four (n := 0xD800 + (p.val - 0x10000) / 0x400) (by omega)
      obtain ⟨a', b', c', d', hhex', hm⟩ :=
        exists_hex_four (n := 0xDC00 + (p.val - 0x10000) % 0x400) (by omega)
      rw [hx, hhex, hhex']
      exact .pair hn hm (CodePoint.pair?_halves hlarge) ih

end StringLiteral

end Json

/-! ### Integers -/

namespace Text

theorem val_digitChar {n : Nat} (h : n < 10) : (CodePoint.scalar n.digitChar).val = 0x30 + n := by
  have hall : ∀ i : Fin 10, (CodePoint.scalar (Nat.digitChar i)).val = 0x30 + i.val := by decide
  exact hall ⟨n, h⟩

theorem ofNat_of_lt {n : Nat} (h : n < 10) : ofNat n = [.scalar n.digitChar] := by
  rw [ofNat, Nat.toDigits_of_lt_base h]
  rfl

theorem ofNat_of_le {n : Nat} (h : 10 ≤ n) :
    ofNat n = ofNat (n / 10) ++ [.scalar (n % 10).digitChar] := by
  rw [ofNat, Nat.toDigits_of_base_le (by decide) h, List.map_append]
  rfl

/-- The digits of a number that is not zero do not start with zero. -/
theorem exists_ofNat_eq_cons {n : Nat} (h : 0 < n) :
    ∃ p ds, ofNat n = p :: ds ∧ p ≠ .scalar '0' ∧ p.isAsciiDigit = true ∧ Json.IsDigits ds := by
  have hdigit {d : Nat} (hd : d < 10) : (CodePoint.scalar d.digitChar).isAsciiDigit = true := by
    simp only [CodePoint.isAsciiDigit, val_digitChar hd, Bool.and_eq_true, decide_eq_true_eq]
    omega
  -- The last digit comes off the end, so the number before it is the smaller one.
  induction n using Nat.strong_induction_on with
  | _ n ih =>
    by_cases hn : n < 10
    · refine ⟨_, [], ofNat_of_lt hn, ?_, hdigit hn, by simp [Json.IsDigits]⟩
      intro hzero
      have hval : 0x30 + n = 0x30 := (val_digitChar hn).symm.trans (congrArg CodePoint.val hzero)
      omega
    · obtain ⟨p, ds, hds, hzero, hp, hdigits⟩ := ih (n / 10) (by omega) (by omega)
      refine ⟨p, ds ++ [.scalar (n % 10).digitChar], ?_, hzero, hp, ?_⟩
      · rw [ofNat_of_le (by omega), hds, List.cons_append]
      · intro q hq
        rcases List.mem_append.1 hq with hq | hq
        · exact hdigits q hq
        · rw [List.mem_singleton.1 hq]
          exact hdigit (Nat.mod_lt _ (by decide))

end Text

namespace Json

/-- The digits of a number have its value. -/
theorem digitsValue_ofNat (n : Nat) : digitsValue (Text.ofNat n) = n := by
  induction n using Nat.strong_induction_on with
  | _ n ih =>
    by_cases hn : n < 10
    · rw [Text.ofNat_of_lt hn, digitsValue, List.foldl_cons, List.foldl_nil,
        Text.val_digitChar hn]
      omega
    · rw [Text.ofNat_of_le (by omega), digitsValue_append_singleton, ih (n / 10) (by omega),
        Text.val_digitChar (Nat.mod_lt _ (by decide))]
      omega

namespace NumberLiteral

theorem isWhole_ofNat (n : Nat) : IsWhole (Text.ofNat n) := by
  rcases Nat.eq_zero_or_pos n with rfl | hn
  · exact .zero
  · obtain ⟨p, ds, hds, hzero, hp, hdigits⟩ := Text.exists_ofNat_eq_cons hn
    rw [hds]
    exact .digits hzero hp hdigits

/-- The literal of an integer. -/
def ofInt (n : Int) : NumberLiteral := ⟨n < 0, Text.ofNat n.natAbs, [], none⟩

/-- A written integer is spelled as its literal. -/
theorem spells_ofInt (n : Int) : Spells (Text.ofInt n) (ofInt n) := by
  cases n with
  | ofNat n => exact spells_whole false (isWhole_ofNat n)
  | negSucc n =>
    rw [ofInt, decide_eq_true (Int.negSucc_lt_zero n)]
    exact spells_whole true (isWhole_ofNat (n + 1))

/-- The literal of an integer has its value, if there are not too many digits. -/
theorem value_ofInt {limits : Limits} {n : Int}
    (h : (Text.ofNat n.natAbs).length ≤ limits.digits) :
    (ofInt n).value limits = .ok (.integer n) := by
  have hinteger : (ofInt n).isInteger = true := rfl
  rw [value, if_pos hinteger, ofInt, if_neg (Nat.not_lt.2 h), digitsValue_ofNat]
  simp only [decide_eq_true_eq]
  congr 2
  split <;> omega

end NumberLiteral

/-! ### Values -/

section

variable {α : Type} {entry : Text → α → Prop} {close : CodePoint} {write : α → Text}

/-- Pieces that spell entries spell all of them when commas and blanks stand between them, and
blanks before the closing bracket. -/
theorem entries_join_append {gap after : Text} (hgap : IsBlanks gap) (hafter : IsBlanks after)
    {x : α} {xs : List α} (h : ∀ y ∈ x :: xs, entry (write y) y) :
    Entries entry close
      (Text.join (.scalar ',' :: gap) ((x :: xs).map write) ++ (after ++ [close])) (x :: xs) := by
  induction xs generalizing x with
  | nil =>
    have hlast : Entries entry close (write x ++ (after ++ [close])) [x] :=
      .last (h x (by simp)) hafter
    simpa [Text.join] using hlast
  | cons y ys ih =>
    have hnext : Entries entry close
        (write x ++ ([] ++ .scalar ',' :: (gap ++
          (Text.join (.scalar ',' :: gap) ((y :: ys).map write) ++ (after ++ [close])))))
        (x :: y :: ys) :=
      .cons (h x (by simp)) isBlanks_nil hgap (ih fun z hz => h z (by simp_all))
    simpa [Text.join, List.intercalate] using hnext

theorem entries_join {x : α} {xs : List α} (h : ∀ y ∈ x :: xs, entry (write y) y) :
    Entries entry close (Text.join "," ((x :: xs).map write) ++ [close]) (x :: xs) :=
  entries_join_append isBlanks_nil isBlanks_nil h

/-- Pieces that spell entries spell all of them when commas stand between them. -/
theorem enclosed_join {xs : List α} (h : ∀ x ∈ xs, entry (write x) x) :
    Enclosed entry close (Text.join "," (xs.map write) ++ [close]) xs := by
  cases xs with
  | nil => exact .empty
  | cons x xs => exact .entries (entries_join h)

end

theorem compactItems_eq_map (items : List Json) : compactItems items = items.map compact := by
  induction items with
  | nil => rfl
  | cons v items ih => rw [compactItems, ih, List.map_cons]

/-- A member without blanks. -/
def compactMember (m : Text × Json) : Text := stringLiteral m.1 ++ (.scalar ':' :: m.2.compact)

theorem compactMembers_eq_map (members : List (Text × Json)) :
    compactMembers members = members.map compactMember := by
  induction members with
  | nil => rfl
  | cons m members ih => rw [compactMembers, ih, List.map_cons, compactMember]

/-- A value that comes back when it is read: its integers have at most `digits` digits, its texts
are unpaired, no name is given twice, and at most `depth` brackets are open at a time. -/
inductive Fits (digits : Nat) : Nat → Json → Prop
  | null {depth : Nat} : Fits digits depth .null
  | boolean {depth : Nat} (b : Bool) : Fits digits depth (.boolean b)
  | integer {depth : Nat} {n : Int} (h : (Text.ofNat n.natAbs).length ≤ digits) :
      Fits digits depth (.integer n)
  | string {depth : Nat} {t : Text} (h : t.IsUnpaired) : Fits digits depth (.string t)
  | list {depth : Nat} {items : List Json} (h : ∀ v ∈ items, Fits digits depth v) :
      Fits digits (depth + 1) (.list items)
  | object {depth : Nat} {members : List (Text × Json)} (hnames : (members.map Prod.fst).Nodup)
      (htexts : ∀ m ∈ members, m.1.IsUnpaired) (h : ∀ m ∈ members, Fits digits depth m.2) :
      Fits digits (depth + 1) (.object members)

end Json

namespace Members

theorem insert_of_not_mem {name : Text} {value : Json} {ms : Members}
    (h : name ∉ ms.map Prod.fst) : insert name value ms = ms ++ [(name, value)] := by
  induction ms with
  | nil => rfl
  | cons m ms ih =>
    rw [List.map_cons, List.mem_cons, not_or] at h
    rw [insert, if_neg (Ne.symm h.1), ih h.2, List.cons_append]

/-- Pairs of different names are the members that they stand for. -/
theorem ofPairs_of_nodup {pairs : List (Text × Json)} (h : (pairs.map Prod.fst).Nodup) :
    ofPairs pairs = pairs := by
  induction pairs using List.reverseRecOn with
  | nil => rfl
  | append_singleton pairs p ih =>
    rw [List.map_append, List.nodup_append] at h
    have hnew : p.1 ∉ pairs.map Prod.fst := fun hp => h.2.2 p.1 hp p.1 (by simp) rfl
    rw [ofPairs_append_singleton, ih h.1, insert_of_not_mem hnew]

end Members

namespace Json

theorem SpellsAtom.spells {limits : Limits} {s : Text} {v : Json} (h : SpellsAtom limits s v)
    (depth : Nat) : Spells limits depth s v := by
  cases depth with
  | zero => exact h
  | succ depth => exact .inl h

theorem SpellsAtom.spellsTree {limits : Limits} {s : Text} {v : Json}
    (h : SpellsAtom limits s v) (depth : Nat) : SpellsTree limits depth s v := by
  cases depth with
  | zero => exact h
  | succ depth => exact .inl h

/-- A written name, a colon, blanks and a value make up a member. -/
theorem isMember_stringLiteral {value : Text → Json → Prop} {name gap s : Text} {v : Json}
    (hname : name.IsUnpaired) (hgap : IsBlanks gap) (hvalue : value s v) :
    IsMember value (stringLiteral name ++ (.scalar ':' :: (gap ++ s))) (name, v) := by
  have hintro : IsMember value (.scalar '\x22' :: (name.flatMap CodePoint.jsonEscaped ++
      .scalar '\x22' :: ([] ++ .scalar ':' :: (gap ++ s)))) (name, v) :=
    .intro (StringLiteral.spells_flatMap_jsonEscaped hname) isBlanks_nil hgap hvalue
  simpa [stringLiteral] using hintro

theorem isMember_compactMember {value : Text → Json → Prop} {m : Text × Json}
    (hname : m.1.IsUnpaired) (hvalue : value m.2.compact m.2) :
    IsMember value (compactMember m) m :=
  isMember_stringLiteral hname isBlanks_nil hvalue

/-- The compact form of a list is made of those of its items. -/
theorem spellsTree_compact_list {limits : Limits} {depth : Nat} {items : List Json}
    (h : ∀ v ∈ items, SpellsTree limits depth v.compact v) :
    SpellsTree limits (depth + 1) (list items).compact (list items) := by
  refine .inr ⟨.list, [], Text.join "," (items.map compact) ++ [.scalar ']'], ?_, isBlanks_nil,
    .list (enclosed_join h)⟩
  rw [compact, compactItems_eq_map]
  rfl

/-- The compact form of an object is made of those of its pairs, repeated names included. -/
theorem spellsTree_compact_object {limits : Limits} {depth : Nat} {pairs : List (Text × Json)}
    (hnames : ∀ m ∈ pairs, m.1.IsUnpaired)
    (h : ∀ m ∈ pairs, SpellsTree limits depth m.2.compact m.2) :
    SpellsTree limits (depth + 1) (object pairs).compact (object pairs) := by
  refine .inr ⟨.object, [], Text.join "," (pairs.map compactMember) ++ [.scalar '\x7d'], ?_,
    isBlanks_nil, .object (enclosed_join fun m hm => isMember_compactMember (hnames m hm) (h m hm))⟩
  rw [compact, compactMembers_eq_map]
  rfl

/-- The compact form of a value spells it as a tree. -/
theorem Fits.spellsTree_compact {limits : Limits} {depth : Nat} {v : Json}
    (h : Fits limits.digits depth v) : SpellsTree limits depth v.compact v := by
  induction h with
  | null => exact (SpellsAtom.word (by simp [words, compact])).spellsTree _
  | boolean b =>
    cases b with
    | false => exact (SpellsAtom.word (by simp [words, compact])).spellsTree _
    | true => exact (SpellsAtom.word (by simp [words, compact])).spellsTree _
  | integer h =>
    exact (SpellsAtom.number (NumberLiteral.spells_ofInt _)
      (NumberLiteral.value_ofInt h)).spellsTree _
  | string h =>
    exact (SpellsAtom.string (StringLiteral.spells_flatMap_jsonEscaped h)).spellsTree _
  | list _ ih => exact spellsTree_compact_list ih
  | object _ htexts _ ih => exact spellsTree_compact_object htexts ih

/-- A value in which no name is given twice is its own tree. -/
theorem Fits.settled_eq {digits depth : Nat} {v : Json} (h : Fits digits depth v) :
    v.settled = v := by
  induction h with
  | @list depth items _ ih =>
    rw [settled_list, List.map_congr_left ih, List.map_id']
  | @object depth members hnames _ _ ih =>
    have hpair (m : Text × Json) (hm : m ∈ members) : settledPair m = m := Prod.ext rfl (ih m hm)
    rw [settled_object, List.map_congr_left hpair, List.map_id', Members.ofPairs_of_nodup hnames]
  | _ => rw [settled]

/-- The compact form of a value is spelled as it. -/
theorem Fits.spells_compact {limits : Limits} {depth : Nat} {v : Json}
    (h : Fits limits.digits depth v) : Spells limits depth v.compact v :=
  spells_iff_exists_tree.2 ⟨v, h.spellsTree_compact, h.settled_eq⟩

/-- A value is read from its compact form. -/
theorem Fits.read_compact {limits : Limits} {v : Json}
    (h : Fits limits.digits limits.depth v) : read limits v.compact = .ok v :=
  read_eq_ok_iff.2 ⟨[], v.compact, [], by simp, isBlanks_nil, isBlanks_nil,
    h.spells_compact⟩

end Json

end ElmReport
