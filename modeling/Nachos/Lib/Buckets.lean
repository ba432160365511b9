import Mathlib.Data.List.Nodup
import Mathlib.Data.List.Perm.Basic
import Mathlib.Logic.Function.Basic

/-! The contents of numbered buckets, bucket after bucket. -/

namespace Buckets

variable {α : Type}

/-- The contents of the buckets below `count`. -/
def gather (buckets : Nat → List α) (count : Nat) : List α := (List.range count).flatMap buckets

variable {buckets : Nat → List α} {count slot : Nat} {item : α}

/-- An item is gathered when one of the buckets has it. -/
theorem mem_gather : item ∈ gather buckets count ↔ ∃ slot < count, item ∈ buckets slot := by
  unfold gather
  rw [List.mem_flatMap]
  constructor
  · rintro ⟨slot, inside, member⟩
    exact ⟨slot, List.mem_range.mp inside, member⟩
  · rintro ⟨slot, inside, member⟩
    exact ⟨slot, List.mem_range.mpr inside, member⟩

theorem gather_empty (count : Nat) : gather (fun _ => ([] : List α)) count = [] :=
  List.flatMap_eq_nil_iff.mpr (fun _ _ => rfl)

/-- A change of one bucket changes its part of the contents only. -/
theorem gather_update (buckets : Nat → List α) (inside : slot < count)
    : ∃ rest, (gather buckets count).Perm (buckets slot ++ rest)
      ∧ ∀ bucket, (gather (Function.update buckets slot bucket) count).Perm (bucket ++ rest) := by
  obtain ⟨before, later, split⟩ := List.append_of_mem (List.mem_range.mpr inside)
  have once : (before ++ slot :: later).Nodup := split ▸ List.nodup_range
  obtain ⟨-, tail, apart⟩ := List.nodup_append.mp once
  have absent : slot ∉ before :=
    fun member => apart slot member slot List.mem_cons_self rfl
  have gone : slot ∉ later := (List.nodup_cons.mp tail).1
  have same : ∀ bucket, ∀ places : List Nat, slot ∉ places
      → places.flatMap (Function.update buckets slot bucket) = places.flatMap buckets := by
    intro bucket places elsewhere
    refine List.flatMap_congr (fun place member => ?_)
    have other : place ≠ slot := fun equal => elsewhere (equal ▸ member)
    exact Function.update_of_ne other _ _
  have arrange : ∀ contents : List α,
      (before.flatMap buckets ++ (contents ++ later.flatMap buckets)).Perm
        (contents ++ (before.flatMap buckets ++ later.flatMap buckets)) := by
    intro contents
    rw [← List.append_assoc, ← List.append_assoc]
    exact List.perm_append_comm.append_right _
  refine ⟨before.flatMap buckets ++ later.flatMap buckets, ?_, fun bucket => ?_⟩
  · rw [gather, split, List.flatMap_append, List.flatMap_cons]
    exact arrange _
  · rw [gather, split, List.flatMap_append, List.flatMap_cons, same bucket before absent,
      same bucket later gone, Function.update_self]
    exact arrange _

end Buckets
