import ElmReport.Json.Fault

/-!
# String literals

The text of a string literal is read code point by code point up to the closing quote. An escape
stands for one code point and tells how many code points it takes up after its backslash. Two
escapes of surrogates stand for one code point when the first opens a pair, the second closes it,
and the text goes on after them; otherwise each stands for itself.

## Main definitions

* `StringLiteral.escape`: what an escape stands for, and its length.
* `StringLiteral.scan`: the text up to the closing quote, and the rest.

## Main results

* `StringLiteral.scanOnto_eq`: what is read does not depend on what has been read before.
* `StringLiteral.scan_quote`, `StringLiteral.scan_backslash`, `StringLiteral.scan_plain`: reading
  by the first code point.
-/

namespace ElmReport.Json.StringLiteral

/-- The number that four hexadecimal digits stand for. -/
def hexValue? (a b c d : CodePoint) : Option Nat :=
  match a.hexValue?, b.hexValue?, c.hexValue?, d.hexValue? with
  | some a, some b, some c, some d => some (((a * 16 + b) * 16 + c) * 16 + d)
  | _, _, _, _ => none

/-- What an escape of one letter stands for. -/
def shortEscape? (p : CodePoint) : Option CodePoint :=
  if p = .scalar '\x22' ∨ p = .scalar '\x5c' ∨ p = .scalar '/' then some p
  else if p = .scalar 'b' then some (.scalar '\x08')
  else if p = .scalar 'f' then some (.scalar '\x0c')
  else if p = .scalar 'n' then some (.scalar '\n')
  else if p = .scalar 'r' then some (.scalar '\r')
  else if p = .scalar 't' then some (.scalar '\t')
  else none

/-- What an escape of an opening surrogate stands for, together with the escape after it if that
one closes the pair. -/
def afterHigh (high : CodePoint) (t : Text) : Except Fault (CodePoint × Nat) :=
  match t with
  | .scalar '\x5c' :: .scalar 'u' :: a :: b :: c :: d :: _ :: _ =>
    match hexValue? a b c d with
    | none => .error .badUnicodeEscape
    | some n =>
      match CodePoint.pair? high (.ofNat n) with
      | some p => .ok (p, 11)
      | none => .ok (high, 5)
  | _ => .ok (high, 5)

/-- What an escape stands for, given the text after its backslash, and how many code points of that
text it takes up. Four hexadecimal digits need a code point after them. -/
def escape : Text → Except Fault (CodePoint × Nat)
  | [] => .error .unterminatedString
  | .scalar 'u' :: t =>
    match t with
    | a :: b :: c :: d :: next :: t =>
      match hexValue? a b c d with
      | none => .error .badUnicodeEscape
      | some n =>
        if (CodePoint.ofNat n).isHigh then afterHigh (.ofNat n) (next :: t)
        else .ok (.ofNat n, 5)
    | _ => .error .badUnicodeEscape
  | p :: _ =>
    match shortEscape? p with
    | some q => .ok (q, 1)
    | none => .error .unknownEscape

/-- Reads on to the closing quote after passing over `skip` code points; `done` is what has been
read already, backwards. -/
def scanOnto (done : Text) : Nat → Text → Except Fault (Text × Text)
  | _, [] => .error .unterminatedString
  | skip + 1, _ :: t => scanOnto done skip t
  | 0, p :: t =>
    if p = .scalar '\x22' then .ok (done.reverse, t)
    else if p = .scalar '\x5c' then
      match escape t with
      | .error e => .error e
      | .ok (q, width) => scanOnto (q :: done) width t
    else if p.val < 0x20 then .error .controlCharacter
    else scanOnto (p :: done) 0 t

/-- The text up to the closing quote, and the rest. -/
def scan (t : Text) : Except Fault (Text × Text) := scanOnto [] 0 t

/-! ### Reading by the first code point -/

/-- A literal that goes on after the text `done`. -/
def continued (done : Text) (r : Except Fault (Text × Text)) : Except Fault (Text × Text) :=
  r.map fun s => (done ++ s.1, s.2)

theorem continued_continued (a b : Text) (r : Except Fault (Text × Text)) :
    continued a (continued b r) = continued (a ++ b) r := by
  cases r <;> simp [continued, Except.map]

@[simp] theorem continued_error (a : Text) (e : Fault) : continued a (.error e) = .error e := rfl

@[simp] theorem continued_ok (a s t : Text) : continued a (.ok (s, t)) = .ok (a ++ s, t) := rfl

/-- What is read does not depend on what has been read before. -/
theorem scanOnto_eq (done : Text) (skip : Nat) (t : Text) :
    scanOnto done skip t = continued done.reverse (scan (t.drop skip)) := by
  have key : ∀ (t : Text) (skip : Nat) (done : Text),
      scanOnto done skip t = continued done.reverse (scanOnto [] skip t) := by
    intro t
    induction t with
    | nil =>
      intro skip done
      cases skip <;> rfl
    | cons p t ih =>
      intro skip done
      cases skip with
      | succ n =>
        rw [scanOnto, scanOnto]
        exact ih n done
      | zero =>
        rw [scanOnto, scanOnto]
        split
        · simp
        · split
          · cases escape t with
            | error e => rfl
            | ok r =>
              simp only
              rw [ih r.2 (r.1 :: done), ih r.2 [r.1], continued_continued]
              simp
          · split
            · rfl
            · rw [ih 0 (p :: done), ih 0 [p], continued_continued]
              simp
  rw [key t skip done, scan]
  congr 1
  induction skip generalizing t with
  | zero => rfl
  | succ n ih =>
    cases t with
    | nil => rfl
    | cons p t => simpa [scanOnto] using ih t

theorem scan_quote (t : Text) : scan (.scalar '\x22' :: t) = .ok ([], t) := by
  simp [scan, scanOnto]

theorem scan_backslash (t : Text) :
    scan (.scalar '\x5c' :: t) =
      match escape t with
      | .error e => .error e
      | .ok (p, width) => continued [p] (scan (t.drop width)) := by
  rw [scan, scanOnto, if_neg (by decide), if_pos rfl]
  cases escape t with
  | error e => rfl
  | ok r => exact scanOnto_eq [r.1] r.2 t

theorem scan_control {p : CodePoint} (h : p.val < 0x20) (t : Text) :
    scan (p :: t) = .error .controlCharacter := by
  have h₁ : p ≠ .scalar '\x22' := fun e => by simp [e] at h
  have h₂ : p ≠ .scalar '\x5c' := fun e => by simp [e] at h
  rw [scan, scanOnto, if_neg h₁, if_neg h₂, if_pos h]

theorem scan_plain {p : CodePoint} (h₁ : p ≠ .scalar '\x22') (h₂ : p ≠ .scalar '\x5c')
    (h₃ : ¬ p.val < 0x20) (t : Text) : scan (p :: t) = continued [p] (scan t) := by
  rw [scan, scanOnto, if_neg h₁, if_neg h₂, if_neg h₃]
  exact scanOnto_eq [p] 0 t

end ElmReport.Json.StringLiteral
