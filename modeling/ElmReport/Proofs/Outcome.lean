import Mathlib.Data.List.Forall2

/-!
# Outcomes of computations that may fail

A computation that fails ends those that wait for its result. The lemmas below take a successful
outcome apart into the outcomes it was made of, and a failure into the place where it arose.

## Main results

* `Outcome.bind_eq_ok_iff`, `Outcome.bind_eq_error_iff`: two computations, one after the other.
* `Outcome.mapM_eq_ok_iff`, `Outcome.exists_mapM_eq_ok_iff`: a computation for every item of a list.
* `Outcome.exists_mem_of_forall₂`, `Outcome.exists_of_mem_mapM`: what an item is related to.
* `Outcome.exists_forall₂_or_first_error`, `Outcome.mapM_append_eq_error`: the first item that a
  computation fails for.
-/

namespace ElmReport.Outcome

variable {ε α β : Type}

/-- Two computations succeed together exactly when both do. -/
theorem bind_eq_ok_iff {x : Except ε α} {f : α → Except ε β} {b : β} :
    x >>= f = .ok b ↔ ∃ a, x = .ok a ∧ f a = .ok b := by
  cases x with
  | error e => simp [bind, Except.bind]
  | ok a => simp [bind, Except.bind]

/-- Two computations fail together by the first of them, or by the second on what the first
gives. -/
theorem bind_eq_error_iff {x : Except ε α} {f : α → Except ε β} {e : ε} :
    x >>= f = .error e ↔ x = .error e ∨ ∃ a, x = .ok a ∧ f a = .error e := by
  cases x with
  | error e' => simp [bind, Except.bind]
  | ok a => simp [bind, Except.bind]

theorem map_eq_ok_iff {x : Except ε α} {f : α → β} {b : β} :
    x.map f = .ok b ↔ ∃ a, x = .ok a ∧ f a = b := by
  cases x with
  | error e => simp [Except.map]
  | ok a => simp [Except.map]

theorem map_eq_error_iff {x : Except ε α} {f : α → β} {e : ε} :
    x.map f = .error e ↔ x = .error e := by
  cases x with
  | error e' => simp [Except.map]
  | ok a => simp [Except.map]

theorem mapError_eq_ok_iff {δ : Type} {x : Except ε α} {f : ε → δ} {a : α} :
    x.mapError f = .ok a ↔ x = .ok a := by
  cases x with
  | error e => simp [Except.mapError]
  | ok a => simp [Except.mapError]

theorem mapError_eq_error_iff {δ : Type} {x : Except ε α} {f : ε → δ} {e : δ} :
    x.mapError f = .error e ↔ ∃ e', x = .error e' ∧ f e' = e := by
  cases x with
  | error e' => simp [Except.mapError]
  | ok a => simp [Except.mapError]

theorem pure_eq_ok_iff {a b : α} : (pure a : Except ε α) = .ok b ↔ a = b := by
  simp [pure, Except.pure]

/-- Two computations have the same result, or fail both, when they give the same results. -/
theorem toOption_eq_iff {δ : Type} {x : Except ε α} {y : Except δ α} :
    x.toOption = y.toOption ↔ ∀ a, x = .ok a ↔ y = .ok a := by
  cases x with
  | error e => cases y <;> simp [Except.toOption]
  | ok a => cases y <;> simp [Except.toOption, eq_comm]

/-- A computation succeeds for every item of a list exactly when the list of results is made of the
results for its items. -/
theorem mapM_eq_ok_iff {f : α → Except ε β} {xs : List α} {ys : List β} :
    xs.mapM f = .ok ys ↔ List.Forall₂ (fun x y => f x = .ok y) xs ys := by
  induction xs generalizing ys with
  | nil => cases ys <;> simp [pure, Except.pure]
  | cons x xs ih =>
    rw [List.mapM_cons, bind_eq_ok_iff]
    constructor
    · rintro ⟨y, hy, h⟩
      obtain ⟨rest, hrest, h⟩ := bind_eq_ok_iff.1 h
      obtain rfl := pure_eq_ok_iff.1 h
      exact .cons hy (ih.1 hrest)
    · rintro (_ | ⟨hy, hrest⟩)
      exact ⟨_, hy, bind_eq_ok_iff.2 ⟨_, ih.2 hrest, rfl⟩⟩

/-- What stands in the first of two lists that are related item by item is related to something in
the second. -/
theorem exists_mem_of_forall₂ {R : α → β → Prop} {xs : List α} {ys : List β}
    (h : List.Forall₂ R xs ys) {x : α} (hx : x ∈ xs) : ∃ y ∈ ys, R x y := by
  induction h with
  | nil => cases hx
  | @cons x' y xs ys hy _ ih =>
    rcases List.mem_cons.1 hx with rfl | hx
    · exact ⟨y, List.mem_cons_self, hy⟩
    · obtain ⟨z, hz, hR⟩ := ih hx
      exact ⟨z, List.mem_cons_of_mem _ hz, hR⟩

/-- Every result of a computation for the items of a list is that for one of them. -/
theorem exists_of_mem_mapM {f : α → Except ε β} {xs : List α} {ys : List β}
    (h : xs.mapM f = .ok ys) {y : β} (hy : y ∈ ys) : ∃ x ∈ xs, f x = .ok y :=
  exists_mem_of_forall₂ (mapM_eq_ok_iff.1 h).flip hy

/-- A computation succeeds for a list exactly when it does for every item. -/
theorem exists_mapM_eq_ok_iff {f : α → Except ε β} {xs : List α} :
    (∃ ys, xs.mapM f = .ok ys) ↔ ∀ x ∈ xs, ∃ y, f x = .ok y := by
  simp only [mapM_eq_ok_iff]
  induction xs with
  | nil => simp
  | cons x xs ih =>
    rw [List.forall_mem_cons, ← ih]
    constructor
    · rintro ⟨_, hy | ⟨hy, hys⟩⟩
      exact ⟨⟨_, hy⟩, _, hys⟩
    · rintro ⟨⟨y, hy⟩, ys, hys⟩
      exact ⟨y :: ys, .cons hy hys⟩

/-- A computation fails for a list by the first item that it fails for. -/
theorem mapM_append_eq_error {f : α → Except ε β} {before : List α} {x : α} {e : ε}
    (hbefore : ∀ y ∈ before, ∃ b, f y = .ok b) (hx : f x = .error e) (after : List α) :
    (before ++ x :: after).mapM f = .error e := by
  induction before with
  | nil =>
    rw [List.nil_append, List.mapM_cons, bind_eq_error_iff]
    exact .inl hx
  | cons y before ih =>
    obtain ⟨⟨b, hy⟩, hbefore⟩ := List.forall_mem_cons.1 hbefore
    rw [List.cons_append, List.mapM_cons, bind_eq_error_iff]
    exact .inr ⟨b, hy, bind_eq_error_iff.2 (.inl (ih hbefore))⟩

/-- A computation succeeds for every item of a list, or there is a first item that it fails for. -/
theorem exists_forall₂_or_first_error (f : α → Except ε β) (xs : List α) :
    (∃ ys, List.Forall₂ (fun x y => f x = .ok y) xs ys) ∨
      ∃ before x after e, xs = before ++ x :: after ∧ (∀ y ∈ before, ∃ b, f y = .ok b) ∧
        f x = .error e := by
  induction xs with
  | nil => exact .inl ⟨[], .nil⟩
  | cons x xs ih =>
    rcases hx : f x with e | y
    · exact .inr ⟨[], x, xs, e, rfl, nofun, hx⟩
    · rcases ih with ⟨ys, hys⟩ | ⟨before, z, after, e, rfl, hbefore, hz⟩
      · exact .inl ⟨y :: ys, .cons hx hys⟩
      · exact .inr ⟨x :: before, z, after, e, rfl,
          List.forall_mem_cons.2 ⟨⟨y, hx⟩, hbefore⟩, hz⟩

end ElmReport.Outcome
