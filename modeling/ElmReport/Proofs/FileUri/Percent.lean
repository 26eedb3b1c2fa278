import ElmReport.FileUri.Percent
import ElmReport.Proofs.Outcome
import ElmReport.Proofs.Text.Utf8

/-!
# Reading what percent encoding writes

A text has many encodings: each of its scalar values may stand for itself, unless it is a percent
sign, or be written as bytes in digits of either case. All of them are read as this text, and the
encoding that is written is one of them.

## Main definitions

* `Percent.Escapes`: bytes in hexadecimal digits.
* `Percent.Encodes`: the encodings of a text.

## Main results

* `Percent.Encodes.decode_eq`: every encoding of a text is read as it.
* `Percent.encodes_of_encode`: what is written is an encoding.
* `Percent.encode_injective`: texts with the same encoding are equal.
-/

namespace ElmReport.Percent

open Outcome

/-- Bytes, each as a percent sign and two hexadecimal digits. -/
inductive Escapes : Text → List UInt8 → Prop
  | nil : Escapes [] []
  | cons {a b : CodePoint} {byte : UInt8} {e : Text} {bytes : List UInt8}
      (hbyte : byte? a b = some byte) (h : Escapes e bytes) :
      Escapes (.scalar '%' :: a :: b :: e) (byte :: bytes)

/-- The encodings of a text. -/
inductive Encodes : Text → Text → Prop
  | nil : Encodes [] []
  | plain {p : CodePoint} {e t : Text} (hp : p ≠ .scalar '%') (h : Encodes e t) :
      Encodes (p :: e) (p :: t)
  | escaped {c : Char} {x e t : Text} (hx : Escapes x (Utf8.encode c)) (h : Encodes e t) :
      Encodes (x ++ e) (.scalar c :: t)

/-! ### Reading -/

/-- Bytes in hexadecimal digits are read as these bytes. -/
theorem Escapes.decodeFrom_append {e : Text} {bytes : List UInt8} (h : Escapes e bytes)
    (s : Utf8.State) (rest : Text) : decodeFrom s (e ++ rest) =
      (Utf8.emitted s bytes).map CodePoint.scalar ++
        decodeFrom (Utf8.stateAfter s bytes) rest := by
  induction h generalizing s with
  | nil => rfl
  | cons hbyte _ ih =>
    simp only [List.cons_append]
    rw [decodeFrom_byte hbyte, ih, Utf8.stateAfter_cons, Utf8.emitted, List.map_append,
      List.append_assoc, completed]

/-- Between sequences a code point other than the percent sign stands for itself. -/
theorem decodeFrom_plain {p : CodePoint} (hp : p ≠ .scalar '%') (t : Text) :
    decodeFrom .ground (p :: t) = p :: decodeFrom .ground t := by
  rw [decodeFrom]
  · split_ifs with hascii
    · have hp : p.val < 0x80 := by simpa [CodePoint.isAscii] using hascii
      cases p with
      | surrogate s =>
        rw [CodePoint.val_surrogate] at hp
        omega
      | scalar c =>
        have hbyte : (UInt8.ofNat c.toNat).toNat = c.toNat :=
          UInt8.toNat_ofNat_of_lt' (Nat.lt_trans hp (by decide))
        have hstart : Utf8.step .ground (.ofNat c.toNat) = _ :=
          Utf8.start_of_ascii (by rwa [hbyte])
        simp [completed, hstart, hbyte, Char.ofNat_toNat]
    · rfl
  · intro a b u h
    exact absurd h hp

/-- Every encoding of a text is read as it, whatever follows. -/
theorem Encodes.decodeFrom_append {e t : Text} (h : Encodes e t) (rest : Text) :
    decodeFrom .ground (e ++ rest) = t ++ decodeFrom .ground rest := by
  induction h with
  | nil => rfl
  | plain hp _ ih => rw [List.cons_append, decodeFrom_plain hp, ih, List.cons_append]
  | escaped hx _ ih =>
    obtain ⟨hemitted, hstate⟩ := Utf8.read_encode _
    rw [List.append_assoc, hx.decodeFrom_append, hemitted, hstate, ih]
    rfl

/-- Every encoding of a text is read as it. -/
theorem Encodes.decode_eq {e t : Text} (h : Encodes e t) : decode e = t := by
  have hend := h.decodeFrom_append []
  rwa [List.append_nil, decodeFrom, closed, Utf8.finish, List.map_nil, List.append_nil] at hend

/-! ### Writing -/

theorem hexValue?_capitalDigit {n : Nat} (h : n < 16) : (capitalDigit n).hexValue? = some n := by
  have hall : ∀ i : Fin 16, (capitalDigit i).hexValue? = some i.val := by decide
  exact hall ⟨n, h⟩

theorem byte?_capitalDigits (b : UInt8) :
    byte? (capitalDigit (b.toNat / 16)) (capitalDigit (b.toNat % 16)) = some b := by
  have hb : b.toNat < 256 := b.toNat_lt
  rw [byte?, hexValue?_capitalDigit (by omega), hexValue?_capitalDigit (by omega)]
  simp only [Nat.div_add_mod, UInt8.ofNat_toNat]

theorem encodeByte_of_reserved {b : UInt8} (h : isUnreserved (.ofNat b.toNat) = false) :
    encodeByte b = [.scalar '%', capitalDigit (b.toNat / 16), capitalDigit (b.toNat % 16)] := by
  simp [encodeByte, h]

theorem escapes_flatMap_encodeByte {bytes : List UInt8}
    (h : ∀ b ∈ bytes, isUnreserved (.ofNat b.toNat) = false) :
    Escapes (bytes.flatMap encodeByte) bytes := by
  induction bytes with
  | nil => exact .nil
  | cons b bytes ih =>
    obtain ⟨hb, hbytes⟩ := List.forall_mem_cons.1 h
    rw [List.flatMap_cons, encodeByte_of_reserved hb]
    exact .cons (byte?_capitalDigits b) (ih hbytes)

theorem isAscii_of_isUnreserved {p : CodePoint} (h : isUnreserved p = true) : p.val < 0x80 := by
  simp only [isUnreserved, CodePoint.isAsciiLetter, CodePoint.isAsciiDigit, Bool.or_eq_true,
    Bool.and_eq_true, decide_eq_true_eq, beq_iff_eq] at h
  rcases h with (((((h | h) | rfl) | rfl) | rfl) | rfl) | rfl
  · omega
  · omega
  all_goals decide

/-- An unreserved scalar value is written as it is. -/
theorem flatMap_encodeByte_of_isUnreserved {c : Char} (hc : isUnreserved (.scalar c) = true) :
    (Utf8.encode c).flatMap encodeByte = [.scalar c] := by
  have hascii : c.toNat < 0x80 := isAscii_of_isUnreserved hc
  have hbyte : (UInt8.ofNat c.toNat).toNat = c.toNat :=
    UInt8.toNat_ofNat_of_lt' (Nat.lt_trans hascii (by decide))
  rw [Utf8.encode_of_ascii hascii, List.flatMap_singleton, encodeByte, hbyte,
    CodePoint.ofNat_toNat, if_pos hc]

/-- Every byte of a reserved scalar value is reserved. -/
theorem not_isUnreserved_of_mem_encode {c : Char} (hc : isUnreserved (.scalar c) = false)
    {b : UInt8} (hb : b ∈ Utf8.encode c) : isUnreserved (.ofNat b.toNat) = false := by
  by_cases hascii : c.toNat < 0x80
  · have hbyte : (UInt8.ofNat c.toNat).toNat = c.toNat :=
      UInt8.toNat_ofNat_of_lt' (Nat.lt_trans hascii (by decide))
    rw [Utf8.encode_of_ascii hascii, List.mem_singleton] at hb
    rwa [hb, hbyte, CodePoint.ofNat_toNat]
  · have hlarge := Utf8.le_of_mem_encode (by omega) b hb
    have hsmall : b.toNat < 0x100 := b.toNat_lt
    rw [← Bool.not_eq_true]
    intro hunreserved
    have hval := isAscii_of_isUnreserved hunreserved
    rw [CodePoint.val_ofNat (by omega)] at hval
    omega

/-- What is written for a scalar value is one of its encodings. -/
theorem encodes_flatMap_encodeByte (c : Char) {e t : Text} (h : Encodes e t) :
    Encodes ((Utf8.encode c).flatMap encodeByte ++ e) (.scalar c :: t) := by
  by_cases hc : isUnreserved (.scalar c) = true
  · have hpercent : CodePoint.scalar c ≠ .scalar '%' := fun h => by
      rw [h] at hc
      exact absurd hc (by decide)
    rw [flatMap_encodeByte_of_isUnreserved hc]
    exact .plain hpercent h
  · rw [Bool.not_eq_true] at hc
    exact .escaped (escapes_flatMap_encodeByte fun _ => not_isUnreserved_of_mem_encode hc) h

/-- What is written is an encoding. -/
theorem encodes_of_encode {t e : Text} (h : encode t = .ok e) : Encodes e t := by
  obtain ⟨bytes, hbytes, rfl⟩ := map_eq_ok_iff.1 h
  obtain ⟨cs, rfl, rfl⟩ := Text.utf8_eq_ok_iff.1 hbytes
  clear h hbytes
  induction cs with
  | nil => exact .nil
  | cons c cs ih =>
    rw [List.flatMap_cons, List.flatMap_append]
    exact encodes_flatMap_encodeByte c ih

/-- Texts with the same encoding are equal. -/
theorem encode_injective {t u e : Text} (ht : encode t = .ok e) (hu : encode u = .ok e) :
    t = u := by
  rw [← (encodes_of_encode ht).decode_eq, (encodes_of_encode hu).decode_eq]

/-! ### Slashes -/

/-- Only percent signs and hexadecimal digits stand in bytes that are written so. -/
theorem Escapes.eq_percent_or_isDigit {e : Text} {bytes : List UInt8} (h : Escapes e bytes) :
    ∀ p ∈ e, p = .scalar '%' ∨ p.hexValue?.isSome := by
  have hdigits {a b : CodePoint} {byte : UInt8} (hbyte : byte? a b = some byte) :
      a.hexValue?.isSome ∧ b.hexValue?.isSome := by
    rw [byte?] at hbyte
    split at hbyte
    · next ha hb => exact ⟨ha ▸ rfl, hb ▸ rfl⟩
    · cases hbyte
  induction h with
  | nil => exact List.forall_mem_nil _
  | cons hbyte _ ih =>
    obtain ⟨ha, hb⟩ := hdigits hbyte
    exact List.forall_mem_cons.2 ⟨.inl rfl, List.forall_mem_cons.2
      ⟨.inr ha, List.forall_mem_cons.2 ⟨.inr hb, ih⟩⟩⟩

theorem Escapes.slash_not_mem {e : Text} {bytes : List UInt8} (h : Escapes e bytes) :
    .scalar '/' ∉ e :=
  fun hslash => absurd (h.eq_percent_or_isDigit _ hslash) (by decide)

/-- An encoding has slashes only where the text has them. -/
theorem Encodes.slash_not_mem {e t : Text} (h : Encodes e t) (ht : .scalar '/' ∉ t) :
    .scalar '/' ∉ e := by
  induction h with
  | nil => exact ht
  | plain _ _ ih =>
    obtain ⟨hp, ht⟩ := not_or.1 (mt List.mem_cons.2 ht)
    exact mt List.mem_cons.1 (not_or.2 ⟨hp, ih ht⟩)
  | escaped hx _ ih =>
    obtain ⟨-, ht⟩ := not_or.1 (mt List.mem_cons.2 ht)
    exact mt List.mem_append.1 (not_or.2 ⟨hx.slash_not_mem, ih ht⟩)

theorem encode_nil_eq_ok_iff {e : Text} : encode [] = .ok e ↔ e = [] := by
  change Except.ok [] = Except.ok e ↔ e = []
  rw [Except.ok.injEq, eq_comm]

/-- A slash at the head is written as it is. -/
theorem encode_slash_eq_ok_iff {t e : Text} :
    encode (.scalar '/' :: t) = .ok e ↔ ∃ e', encode t = .ok e' ∧ e = .scalar '/' :: e' := by
  simp only [encode, map_eq_ok_iff, Text.utf8_eq_ok_iff]
  constructor
  · rintro ⟨bytes, ⟨cs, hcs, rfl⟩, rfl⟩
    rcases cs with _ | ⟨c, cs⟩
    · exact nomatch hcs
    · obtain ⟨hc, rfl⟩ := List.cons.inj hcs
      obtain rfl := CodePoint.scalar.inj hc
      exact ⟨_, ⟨_, ⟨cs, rfl, rfl⟩, rfl⟩, rfl⟩
  · rintro ⟨_, ⟨_, ⟨cs, rfl, rfl⟩, rfl⟩, rfl⟩
    exact ⟨_, ⟨'/' :: cs, rfl, rfl⟩, rfl⟩

end ElmReport.Percent
