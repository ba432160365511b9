import Mathlib.Data.Fintype.Card

/-! How many elements of a finite type are in a state with some property. -/

namespace Counting

variable {ι β : Type} [Fintype ι]

/-- The number of elements whose state passes the test. -/
def count (test : β → Bool) (states : ι → β) : Nat :=
  (Finset.univ.filter (fun i => test (states i) = true)).card

variable {test : β → Bool} {before after : ι → β}

theorem count_congr (same : ∀ i, test (after i) = test (before i))
    : count test after = count test before := by
  simp only [count, same]

theorem count_pos_iff : 0 < count test before ↔ ∃ i, test (before i) = true := by
  simp [count, Finset.card_pos, Finset.filter_nonempty_iff]

/-- If one element passes that did not, and all that passed still do, there are more. -/
theorem count_lt_count {chosen : ι} (fresh : test (before chosen) = false)
    (passes : test (after chosen) = true)
    (kept : ∀ i, test (before i) = true → test (after i) = true)
    : count test before < count test after := by
  refine Finset.card_lt_card ((Finset.ssubset_iff_of_subset fun i => ?_).mpr ⟨chosen, ?_, ?_⟩)
  · simpa using kept i
  · simpa using passes
  · simpa using fresh

/-- A change of one element loses at most one. -/
theorem count_le_succ [DecidableEq ι] {chosen : ι}
    (kept : ∀ i, i ≠ chosen → test (before i) = true → test (after i) = true)
    : count test before ≤ count test after + 1 := by
  have inside : Finset.univ.filter (fun i => test (before i) = true)
      ⊆ insert chosen (Finset.univ.filter (fun i => test (after i) = true)) := by
    intro i member
    by_cases same : i = chosen
    · exact Finset.mem_insert.mpr (.inl same)
    · refine Finset.mem_insert.mpr (.inr ?_)
      simpa using kept i same (by simpa using member)
  exact (Finset.card_le_card inside).trans (Finset.card_insert_le _ _)

end Counting
