import ElmReport.Text.Utf8
import Mathlib.Data.List.Basic
import Mathlib.Tactic.SplitIfs

/-!
# Reading what UTF-8 writes

The bytes of a scalar value bring the reader through one sequence and back between sequences. A
sequence of more than one byte is led by a byte that says how many follow, and the ranges that the
reader allows after it are those of the scalar values: nothing is written that could have been
shorter, and no surrogate.

## Main results

* `Utf8.read_encode`: the bytes of a scalar value are read as this value.
* `Utf8.le_of_mem_encode`: outside ASCII every byte of a scalar value is above ASCII.
* `Text.utf8_eq_ok_iff`: which texts are written, and as what.
-/

namespace ElmReport

namespace Utf8

/-! ### One byte -/

theorem start_of_ascii {b : UInt8} (h : b.toNat < 0x80) :
    start b = ([Char.ofNat b.toNat], .ground) := by
  simp only [start, if_pos h]

theorem start_of_lead_two {b : UInt8} (h : 0xC2 ≤ b.toNat) (h' : b.toNat ≤ 0xDF) :
    start b = ([], .inside (b.toNat - 0xC0) 1 0x80 0xBF) := by
  have hascii : ¬ b.toNat < 0x80 := by omega
  simp only [start, if_neg hascii, if_pos (And.intro h h')]

theorem start_of_lead_three {b : UInt8} (h : 0xE0 ≤ b.toNat) (h' : b.toNat ≤ 0xEF) :
    start b = ([], .inside (b.toNat - 0xE0) 2 (if b.toNat = 0xE0 then 0xA0 else 0x80)
      (if b.toNat = 0xED then 0x9F else 0xBF)) := by
  have hascii : ¬ b.toNat < 0x80 := by omega
  have htwo : ¬ (0xC2 ≤ b.toNat ∧ b.toNat ≤ 0xDF) := by omega
  simp only [start, if_neg hascii, if_neg htwo]
  -- After the first lead shorter sequences are left out, after `0xED` the surrogates.
  by_cases hfirst : b.toNat = 0xE0
  · simp only [hfirst]
    rfl
  by_cases hsurrogate : b.toNat = 0xED
  · simp only [hsurrogate]
    rfl
  · have hthree : 0xE1 ≤ b.toNat ∧ b.toNat ≤ 0xEF := by omega
    simp only [if_neg hfirst, if_neg hsurrogate, if_pos hthree]

theorem start_of_lead_four {b : UInt8} (h : 0xF0 ≤ b.toNat) (h' : b.toNat ≤ 0xF4) :
    start b = ([], .inside (b.toNat - 0xF0) 3 (if b.toNat = 0xF0 then 0x90 else 0x80)
      (if b.toNat = 0xF4 then 0x8F else 0xBF)) := by
  have hascii : ¬ b.toNat < 0x80 := by omega
  have htwo : ¬ (0xC2 ≤ b.toNat ∧ b.toNat ≤ 0xDF) := by omega
  have hthree : ¬ (0xE1 ≤ b.toNat ∧ b.toNat ≤ 0xEF) := by omega
  have hfirst : b.toNat ≠ 0xE0 := by omega
  have hsurrogate : b.toNat ≠ 0xED := by omega
  simp only [start, if_neg hascii, if_neg htwo, if_neg hthree, if_neg hfirst, if_neg hsurrogate]
  -- After the first lead shorter sequences are left out, after the last what lies past U+10FFFF.
  by_cases hlow : b.toNat = 0xF0
  · simp only [hlow]
    rfl
  by_cases hhigh : b.toNat = 0xF4
  · simp only [hhigh]
    rfl
  · have hfour : 0xF1 ≤ b.toNat ∧ b.toNat ≤ 0xF3 := by omega
    simp only [if_neg hlow, if_neg hhigh, if_pos hfour]

/-- A byte in range goes on a sequence to which more bytes belong. -/
theorem step_inside {value missing low high : Nat} {b : UInt8} (h : low ≤ b.toNat)
    (h' : b.toNat ≤ high) : step (.inside value (missing + 2) low high) b =
      ([], .inside (value * 0x40 + (b.toNat - 0x80)) (missing + 1) 0x80 0xBF) := by
  simp [step, h, h']

/-- A byte in range completes a sequence whose last byte it is. -/
theorem step_inside_last {value low high : Nat} {b : UInt8} (h : low ≤ b.toNat)
    (h' : b.toNat ≤ high) : step (.inside value 1 low high) b =
      ([Char.ofNat (value * 0x40 + (b.toNat - 0x80))], .ground) := by
  simp [step, h, h']

/-! ### One scalar value -/

theorem read_two {a b : UInt8} (ha : 0xC2 ≤ a.toNat) (ha' : a.toNat ≤ 0xDF) (hb : 0x80 ≤ b.toNat)
    (hb' : b.toNat ≤ 0xBF) :
    emitted .ground [a, b] = [Char.ofNat ((a.toNat - 0xC0) * 0x40 + (b.toNat - 0x80))] ∧
      stateAfter .ground [a, b] = .ground := by
  have hstart : step .ground a = _ := start_of_lead_two ha ha'
  simp only [emitted, stateAfter_cons, stateAfter_nil, hstart, step_inside_last hb hb',
    List.nil_append, List.append_nil, and_self]

theorem read_three {a b c : UInt8} (ha : 0xE0 ≤ a.toNat) (ha' : a.toNat ≤ 0xEF)
    (hb : (if a.toNat = 0xE0 then 0xA0 else 0x80) ≤ b.toNat)
    (hb' : b.toNat ≤ if a.toNat = 0xED then 0x9F else 0xBF) (hc : 0x80 ≤ c.toNat)
    (hc' : c.toNat ≤ 0xBF) :
    emitted .ground [a, b, c] = [Char.ofNat
        (((a.toNat - 0xE0) * 0x40 + (b.toNat - 0x80)) * 0x40 + (c.toNat - 0x80))] ∧
      stateAfter .ground [a, b, c] = .ground := by
  have hstart : step .ground a = _ := start_of_lead_three ha ha'
  simp only [emitted, stateAfter_cons, stateAfter_nil, hstart, step_inside hb hb',
    step_inside_last hc hc', List.nil_append, List.append_nil, and_self]

theorem read_four {a b c d : UInt8} (ha : 0xF0 ≤ a.toNat) (ha' : a.toNat ≤ 0xF4)
    (hb : (if a.toNat = 0xF0 then 0x90 else 0x80) ≤ b.toNat)
    (hb' : b.toNat ≤ if a.toNat = 0xF4 then 0x8F else 0xBF) (hc : 0x80 ≤ c.toNat)
    (hc' : c.toNat ≤ 0xBF) (hd : 0x80 ≤ d.toNat) (hd' : d.toNat ≤ 0xBF) :
    emitted .ground [a, b, c, d] = [Char.ofNat
        ((((a.toNat - 0xF0) * 0x40 + (b.toNat - 0x80)) * 0x40 + (c.toNat - 0x80)) * 0x40 +
          (d.toNat - 0x80))] ∧
      stateAfter .ground [a, b, c, d] = .ground := by
  have hstart : step .ground a = _ := start_of_lead_four ha ha'
  simp only [emitted, stateAfter_cons, stateAfter_nil, hstart, step_inside hb hb',
    step_inside hc hc', step_inside_last hd hd', List.nil_append, List.append_nil, and_self]

/-- The bytes of a scalar value are read as this value, and then the reader is between
sequences. -/
theorem read_encode (c : Char) :
    emitted .ground (encode c) = [c] ∧ stateAfter .ground (encode c) = .ground := by
  have hvalid : c.toNat < 0xD800 ∨ 0xDFFF < c.toNat ∧ c.toNat < 0x110000 := c.valid
  have hbyte (n : Nat) (h : n < 0x100) : (UInt8.ofNat n).toNat = n := UInt8.toNat_ofNat_of_lt' h
  have hc {n : Nat} (h : n = c.toNat) : Char.ofNat n = c := by rw [h, Char.ofNat_toNat]
  simp only [encode]
  split_ifs with h₁ h₂ h₃
  · have ha := hbyte c.toNat (by omega)
    have hstart : step .ground (.ofNat c.toNat) = _ := start_of_ascii (by omega)
    simp [emitted, hstart, ha, hc rfl]
  · have ha := hbyte (0xC0 + c.toNat / 0x40) (by omega)
    have hb := hbyte (0x80 + c.toNat % 0x40) (by omega)
    have hread := @read_two (.ofNat (0xC0 + c.toNat / 0x40)) (.ofNat (0x80 + c.toNat % 0x40))
      (by omega) (by omega) (by omega) (by omega)
    rwa [hc (by omega)] at hread
  · have ha := hbyte (0xE0 + c.toNat / 0x1000) (by omega)
    have hb := hbyte (0x80 + c.toNat / 0x40 % 0x40) (by omega)
    have hd := hbyte (0x80 + c.toNat % 0x40) (by omega)
    have hread := @read_three (.ofNat (0xE0 + c.toNat / 0x1000))
      (.ofNat (0x80 + c.toNat / 0x40 % 0x40)) (.ofNat (0x80 + c.toNat % 0x40)) (by omega)
      (by omega) (by split_ifs <;> omega) (by split_ifs <;> omega) (by omega) (by omega)
    rwa [hc (by omega)] at hread
  · have ha := hbyte (0xF0 + c.toNat / 0x40000) (by omega)
    have hb := hbyte (0x80 + c.toNat / 0x1000 % 0x40) (by omega)
    have hd := hbyte (0x80 + c.toNat / 0x40 % 0x40) (by omega)
    have he := hbyte (0x80 + c.toNat % 0x40) (by omega)
    have hread := @read_four (.ofNat (0xF0 + c.toNat / 0x40000))
      (.ofNat (0x80 + c.toNat / 0x1000 % 0x40)) (.ofNat (0x80 + c.toNat / 0x40 % 0x40))
      (.ofNat (0x80 + c.toNat % 0x40)) (by omega) (by omega) (by split_ifs <;> omega)
      (by split_ifs <;> omega) (by omega) (by omega) (by omega) (by omega)
    rwa [hc (by omega)] at hread

/-- The bytes of a scalar value that is not ASCII are not ASCII either. -/
theorem le_of_mem_encode {c : Char} (h : 0x80 ≤ c.toNat) : ∀ b ∈ encode c, 0x80 ≤ b.toNat := by
  have hvalid : c.toNat < 0xD800 ∨ 0xDFFF < c.toNat ∧ c.toNat < 0x110000 := c.valid
  have hbyte {n : Nat} (h : 0x80 ≤ n) (h' : n < 0x100) : 0x80 ≤ (UInt8.ofNat n).toNat := by
    rwa [UInt8.toNat_ofNat_of_lt' h']
  have hnil : ∀ b ∈ ([] : List UInt8), 0x80 ≤ b.toNat := nofun
  simp only [encode]
  split_ifs with h₁ h₂ h₃
  · omega
  · exact List.forall_mem_cons.2 ⟨hbyte (by omega) (by omega),
      List.forall_mem_cons.2 ⟨hbyte (by omega) (by omega), hnil⟩⟩
  · exact List.forall_mem_cons.2 ⟨hbyte (by omega) (by omega),
      List.forall_mem_cons.2 ⟨hbyte (by omega) (by omega),
        List.forall_mem_cons.2 ⟨hbyte (by omega) (by omega), hnil⟩⟩⟩
  · exact List.forall_mem_cons.2 ⟨hbyte (by omega) (by omega),
      List.forall_mem_cons.2 ⟨hbyte (by omega) (by omega),
        List.forall_mem_cons.2 ⟨hbyte (by omega) (by omega),
          List.forall_mem_cons.2 ⟨hbyte (by omega) (by omega), hnil⟩⟩⟩⟩

theorem encode_of_ascii {c : Char} (h : c.toNat < 0x80) : encode c = [.ofNat c.toNat] := by
  simp only [encode, if_pos h]

end Utf8

namespace Text

theorem scalars?_eq_some_iff {t : Text} {cs : List Char} :
    t.scalars? = some cs ↔ t = cs.map CodePoint.scalar := by
  rw [scalars?]
  induction t generalizing cs with
  | nil => cases cs <;> simp
  | cons p t ih =>
    rw [List.mapM_cons]
    cases p with
    | surrogate s =>
      simp only [CodePoint.scalar?, Option.bind_eq_bind, Option.bind_none]
      refine ⟨nofun, fun h => ?_⟩
      cases cs <;> simp at h
    | scalar c =>
      simp only [CodePoint.scalar?, Option.bind_eq_bind, Option.bind_some,
        Option.bind_eq_some_iff, Option.pure_def, Option.some.injEq]
      constructor
      · rintro ⟨cs, hcs, rfl⟩
        rw [ih.1 hcs, List.map_cons]
      · intro h
        rcases cs with _ | ⟨c', cs⟩
        · exact nomatch h
        · obtain ⟨hc, hcs⟩ := List.cons.inj h
          obtain rfl := CodePoint.scalar.inj hc
          exact ⟨cs, ih.2 hcs, rfl⟩

/-- A text is written exactly when it has no lone surrogates, one scalar value after the other. -/
theorem utf8_eq_ok_iff {t : Text} {bytes : List UInt8} :
    t.utf8 = .ok bytes ↔
      ∃ cs : List Char, t = cs.map CodePoint.scalar ∧ bytes = cs.flatMap Utf8.encode := by
  rw [utf8]
  split
  · next cs h =>
    obtain rfl := scalars?_eq_some_iff.1 h
    constructor
    · intro hbytes
      exact ⟨cs, rfl, (Except.ok.inj hbytes).symm⟩
    · rintro ⟨cs', hcs', rfl⟩
      have hscalar : Function.Injective CodePoint.scalar := fun _ _ => CodePoint.scalar.inj
      rw [hscalar.list_map hcs']
  · next h =>
    refine ⟨nofun, ?_⟩
    rintro ⟨cs, hcs, -⟩
    exact nomatch h.symm.trans (scalars?_eq_some_iff.2 hcs)

end Text

end ElmReport
