import Mathlib.Data.Finset.Max
import Mathlib.Data.Fintype.Card

/-! The least element outside a set of taken elements of a finite order. -/

namespace LeastFree

variable {α : Type} [LinearOrder α] [Fintype α] {taken : Finset α} {least : α}

/-- The least element that is not taken, if there is one. -/
def leastFree (taken : Finset α) : Option α :=
  if free : takenᶜ.Nonempty then some (takenᶜ.min' free) else none

/-- The least free value is the one below which all are taken, by minimality of `Finset.min'`. -/
theorem leastFree_eq_some_iff
    : leastFree taken = some least ↔ least ∉ taken ∧ ∀ other < least, other ∈ taken := by
  unfold leastFree
  split
  · rename_i free
    rw [Option.some_inj]
    constructor
    · rintro rfl
      refine ⟨Finset.mem_compl.mp (Finset.min'_mem _ free), fun other below => ?_⟩
      by_contra isFree
      exact absurd (Finset.min'_le _ other (Finset.mem_compl.mpr isFree)) (not_le.mpr below)
    · rintro ⟨isFree, below⟩
      refine le_antisymm (Finset.min'_le _ _ (Finset.mem_compl.mpr isFree)) (not_lt.mp ?_)
      intro less
      exact Finset.mem_compl.mp (Finset.min'_mem _ free) (below _ less)
  · rename_i full
    refine iff_of_false nofun ?_
    rintro ⟨isFree, _⟩
    exact full ⟨least, Finset.mem_compl.mpr isFree⟩

/-- There is no free value exactly when all are taken. -/
theorem leastFree_eq_none_iff : leastFree taken = none ↔ taken = Finset.univ := by
  rw [← Finset.compl_eq_empty_iff, ← Finset.not_nonempty_iff_eq_empty, leastFree]
  split
  · rename_i free
    exact iff_of_false nofun (not_not_intro free)
  · rename_i full
    exact iff_of_true rfl full

end LeastFree
