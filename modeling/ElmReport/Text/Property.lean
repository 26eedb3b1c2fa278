import ElmReport.Text.CodePoint

/-!
# Properties of code points

A property of code points is a table of ranges in ascending order.

## Main definitions

* `PropertyTable`: inclusive ranges of numbers, in ascending order.
* `PropertyTable.contains`: whether a number lies in a range of the table.

## Main results

* `PropertyTable.exists_of_contains`: a number that the search finds lies in a range.
-/

namespace ElmReport

/-- Inclusive ranges of numbers, in ascending order. -/
abbrev PropertyTable := List (Nat × Nat)

namespace PropertyTable

/-- Whether a number lies in a range of the table. The search ends at the first range above the
number. -/
def contains (n : Nat) : PropertyTable → Bool
  | [] => false
  | r :: rest => if n < r.1 then false else n ≤ r.2 || contains n rest

@[simp] theorem contains_nil (n : Nat) : contains n [] = false := rfl

/-- A number that the search finds lies in a range. -/
theorem exists_of_contains {n : Nat} {table : PropertyTable} (h : contains n table = true) :
    ∃ r ∈ table, r.1 ≤ n ∧ n ≤ r.2 := by
  induction table with
  | nil => simp at h
  | cons r rest ih =>
    rw [contains] at h
    split at h
    · simp at h
    · next hr =>
      rcases Bool.or_eq_true_iff.1 h with h | h
      · exact ⟨r, by simp, by omega, by simpa using h⟩
      · obtain ⟨r', hr', hn⟩ := ih h
        exact ⟨r', by simp [hr'], hn⟩

end PropertyTable

end ElmReport
