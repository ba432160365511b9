import Nachos.KernelLib.Bitmap

/-! Bits that are marked because someone holds them, each for one holder only.
-/

namespace Nachos.Bitmap

variable {numBits : Nat} {ι : Type} {before after : Bitmap numBits} {held : ι → List Int}
  {owner : ι}

/-- The marked bits are those that someone holds, and nobody holds the same one. -/
structure HeldBy (bitmap : Bitmap numBits) (held : ι → List Int) : Prop where
  distinct : ∀ owner, (held owner).Nodup
  apart : ∀ left right, left ≠ right → ∀ which ∈ held left, which ∉ held right
  inside : ∀ owner, ∀ which ∈ held owner, 0 ≤ which ∧ which < numBits
  marked
    : ∀ which : Nat, bitmap.testBit which = true ↔ ∃ owner, (which : Int) ∈ held owner

/-- In a new map nobody holds anything. -/
theorem HeldBy.new (none : ∀ owner, held owner = []) : (new numBits).HeldBy held where
  distinct owner := by rw [none]; exact List.nodup_nil
  apart left _ _ which member := by
    rw [none] at member
    exact absurd member List.not_mem_nil
  inside owner which member := by
    rw [none] at member
    exact absurd member List.not_mem_nil
  marked which := by simp [none]

/-- Bits that were clear were nobody's. -/
theorem HeldBy.fresh {taken : List Int} (held' : before.HeldBy held)
    (takes : before.Takes after taken) (other : ι)
    : ∀ which ∈ taken, which ∉ held other := by
  intro which isTaken isHeld
  have clear := takes.clear which isTaken
  have nonneg := (takes.inside which isTaken).1
  rw [Bool.eq_false_iff, Ne, held'.marked, Int.toNat_of_nonneg nonneg] at clear
  exact clear ⟨other, isHeld⟩

variable [DecidableEq ι]

/-- Someone who holds nothing takes bits. -/
theorem HeldBy.take {taken : List Int} (held' : before.HeldBy held) (nothing : held owner = [])
    (takes : before.Takes after taken)
    : after.HeldBy (Function.update held owner taken) := by
  refine ⟨fun other => ?_, fun left right different which member => ?_,
    fun other which member => ?_, fun which => ?_⟩
  · by_cases same : other = owner
    · subst same
      rw [Function.update_self]
      exact takes.distinct
    · rw [Function.update_of_ne same]
      exact held'.distinct other
  · by_cases isLeft : left = owner
    · subst isLeft
      rw [Function.update_self] at member
      rw [Function.update_of_ne different.symm]
      exact held'.fresh takes right which member
    · rw [Function.update_of_ne isLeft] at member
      by_cases isRight : right = owner
      · subst isRight
        rw [Function.update_self]
        exact fun isTaken => held'.fresh takes left which isTaken member
      · rw [Function.update_of_ne isRight]
        exact held'.apart left right different which member
  · by_cases same : other = owner
    · subst same
      rw [Function.update_self] at member
      exact takes.inside which member
    · rw [Function.update_of_ne same] at member
      exact held'.inside other which member
  · rw [takes.bits, Bool.or_eq_true, decide_eq_true_iff, held'.marked]
    constructor
    · rintro (isTaken | ⟨other, isHeld⟩)
      · exact ⟨owner, by rwa [Function.update_self]⟩
      · have different : other ≠ owner := by
          rintro rfl
          rw [nothing] at isHeld
          exact absurd isHeld List.not_mem_nil
        exact ⟨other, by rwa [Function.update_of_ne different]⟩
    · rintro ⟨other, isHeld⟩
      by_cases same : other = owner
      · subst same
        rw [Function.update_self] at isHeld
        exact .inl isHeld
      · rw [Function.update_of_ne same] at isHeld
        exact .inr ⟨other, isHeld⟩

/-- Someone gives all its bits back. -/
theorem HeldBy.release (held' : before.HeldBy held)
    (releases : before.Releases after (held owner))
    : after.HeldBy (Function.update held owner []) := by
  have within (other : ι) : ∀ which ∈ Function.update held owner [] other,
      other ≠ owner ∧ which ∈ held other := by
    intro which member
    by_cases same : other = owner
    · subst same
      rw [Function.update_self] at member
      exact absurd member List.not_mem_nil
    · exact ⟨same, by rwa [Function.update_of_ne same] at member⟩
  refine ⟨fun other => ?_, fun left right different which member => ?_,
    fun other which member => ?_, fun which => ?_⟩
  · by_cases same : other = owner
    · subst same
      rw [Function.update_self]
      exact List.nodup_nil
    · rw [Function.update_of_ne same]
      exact held'.distinct other
  · exact fun again => held'.apart left right different which (within left which member).2
      (within right which again).2
  · exact held'.inside other which (within other which member).2
  · rw [releases, Bool.and_eq_true, Bool.not_eq_true', decide_eq_false_iff_not, held'.marked]
    constructor
    · rintro ⟨kept, other, isHeld⟩
      have different : other ≠ owner := by
        rintro rfl
        exact kept isHeld
      exact ⟨other, by rwa [Function.update_of_ne different]⟩
    · rintro ⟨other, member⟩
      obtain ⟨different, isHeld⟩ := within other _ member
      exact ⟨held'.apart other owner different _ isHeld, other, isHeld⟩

end Nachos.Bitmap
