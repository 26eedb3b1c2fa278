import ElmReport.Text.CodePoint

/-!
# Texts

A text is a list of code points. String constants of the library become texts by a coercion.

## Main definitions

* `Text`: a list of code points.
* `Text.ofString`: the text of a string.
* `Text.IsScalar`: a text without lone surrogates.
* `Text.cut`, `Text.fields`: a text parted at the first, or at every, occurrence of a code point.
* `Text.ofNat`, `Text.ofInt`: decimal text of a number.
* `Text.hex`: a number in hexadecimal digits of a fixed count.
-/

namespace ElmReport

/-- A text is a list of code points, lone surrogates included. -/
abbrev Text := List CodePoint

namespace Text

/-- The text of a string. -/
def ofString (s : String) : Text := s.toList.map CodePoint.scalar

instance : Coe String Text := ⟨ofString⟩

/-- A text without lone surrogates. -/
def IsScalar (t : Text) : Prop := ∀ p ∈ t, p.IsScalar

theorem isScalar_nil : IsScalar [] := fun _ h => nomatch h

theorem isScalar_cons {p : CodePoint} {t : Text} :
    IsScalar (p :: t) ↔ p.IsScalar ∧ IsScalar t := by
  simp [IsScalar]

theorem isScalar_append {s t : Text} : IsScalar (s ++ t) ↔ IsScalar s ∧ IsScalar t := by
  simp only [IsScalar, List.mem_append]
  exact ⟨fun h => ⟨fun p hp => h p (.inl hp), fun p hp => h p (.inr hp)⟩,
    fun h p hp => hp.elim (h.1 p) (h.2 p)⟩

theorem isScalar_ofString (s : String) : IsScalar (ofString s) := by
  intro p hp
  obtain ⟨c, _, rfl⟩ := List.mem_map.1 hp
  exact ⟨c, rfl⟩

/-! ### Parting a text at a code point -/

/-- The text before the first `p`, and the text after it when there is one. -/
def cut (p : CodePoint) (t : Text) : Text × Option Text :=
  match t.dropWhile (· != p) with
  | [] => (t, none)
  | _ :: rest => (t.takeWhile (· != p), some rest)

/-- The text before the last `p` when there is one, and the text after it. -/
def cutLast (p : CodePoint) (t : Text) : Option Text × Text :=
  match cut p t.reverse with
  | (_, none) => (none, t)
  | (after, some before) => (some before.reverse, after.reverse)

/-- The pieces of a text between the occurrences of `p`: one more than there are occurrences. -/
def fields (p : CodePoint) : Text → List Text
  | [] => [[]]
  | c :: t =>
    if c = p then [] :: fields p t
    else
      match fields p t with
      | [] => [[c]]
      | f :: fs => (c :: f) :: fs

theorem fields_ne_nil (p : CodePoint) (t : Text) : fields p t ≠ [] := by
  cases t with
  | nil => simp [fields]
  | cons c t =>
    rw [fields]
    split
    · simp
    · split <;> simp

theorem fields_of_not_mem {p : CodePoint} {t : Text} (h : p ∉ t) : fields p t = [t] := by
  induction t with
  | nil => rfl
  | cons c t ih =>
    have hc : c ≠ p := fun hc => h (hc ▸ List.mem_cons_self)
    rw [fields, if_neg hc, ih fun ht => h (List.mem_cons_of_mem c ht)]

/-- The pieces around an occurrence are those before it and those after it. -/
theorem fields_append_cons (p : CodePoint) (s t : Text) :
    fields p (s ++ p :: t) = fields p s ++ fields p t := by
  induction s with
  | nil => exact if_pos rfl
  | cons c s ih =>
    rw [List.cons_append, fields, fields, ih]
    split
    · rfl
    · obtain ⟨f, fs, hf⟩ := List.exists_cons_of_ne_nil (fields_ne_nil p s)
      rw [hf]
      rfl

/-- Every occurrence of the code point `p` becomes `q`. -/
def substitute (p q : CodePoint) (t : Text) : Text := t.map fun c => if c = p then q else c

/-- The texts one after the other with `sep` between neighbours. -/
def join (sep : Text) (ts : List Text) : Text := sep.intercalate ts

/-- The pieces of joined texts are those of each text. -/
theorem fields_join (p : CodePoint) {ts : List Text} (h : ts ≠ []) :
    fields p (join [p] ts) = ts.flatMap (fields p) := by
  induction ts with
  | nil => exact absurd rfl h
  | cons t ts ih =>
    rcases ts with _ | ⟨u, us⟩
    · rw [join, List.intercalate_singleton, List.flatMap_singleton]
    · have hjoin : join [p] (t :: u :: us) = t ++ p :: join [p] (u :: us) := by
        rw [join, List.intercalate_cons_cons, List.append_assoc]
        rfl
      rw [hjoin, fields_append_cons, ih (List.cons_ne_nil u us)]
      rfl

/-- Whether `t` opens with `s`. -/
def startsWith (t s : Text) : Bool := s.isPrefixOf t

/-- The text without the code points at its end that satisfy `f`. -/
def trimEnd (f : CodePoint → Bool) (t : Text) : Text := (t.reverse.dropWhile f).reverse

/-! ### Numbers as text -/

/-- The decimal digits of a natural number. -/
def ofNat (n : Nat) : Text := (Nat.toDigits 10 n).map CodePoint.scalar

/-- The decimal digits of an integer after a minus sign when it is negative. -/
def ofInt : Int → Text
  | .ofNat n => ofNat n
  | .negSucc n => CodePoint.scalar '-' :: ofNat (n + 1)

/-- A hexadecimal digit, in small letters. -/
def hexDigit (n : Nat) : CodePoint :=
  CodePoint.ofNat (if n < 10 then 0x30 + n else 0x57 + n)

/-- The last `width` hexadecimal digits of a number, in small letters. -/
def hex : Nat → Nat → Text
  | 0, _ => []
  | width + 1, n => hex width (n / 16) ++ [hexDigit (n % 16)]

@[simp] theorem length_hex (width n : Nat) : (hex width n).length = width := by
  induction width generalizing n with
  | zero => rfl
  | succ w ih => simp [hex, ih]

end Text

end ElmReport
