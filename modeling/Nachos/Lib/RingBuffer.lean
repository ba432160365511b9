import Mathlib.Data.Nat.ModEq

/-! Queues in circular buffers: consecutive slots, counted around the end of the buffer. -/

namespace RingBuffer

variable {α : Type}

/-- The slots from `start` on, around the end of the buffer, hold the items in order. -/
def Holds (buffer : Nat → α) (capacity start : Nat) (items : List α) : Prop :=
  ∀ index (inside : index < items.length), buffer ((start + index) % capacity) = items[index]

variable {buffer : Nat → α} {capacity start : Nat} {items : List α} {item : α}

theorem Holds.nil (buffer : Nat → α) (capacity start : Nat) : Holds buffer capacity start [] :=
  fun _ inside => absurd inside (Nat.not_lt_zero _)

/-- Fewer steps than the capacity lead to different slots. -/
theorem slot_inj {left right : Nat} (leftSmall : left < capacity) (rightSmall : right < capacity)
    (same : (start + left) % capacity = (start + right) % capacity)
    : left = right :=
  Nat.ModEq.eq_of_lt_of_lt (Nat.ModEq.add_left_cancel' start same) leftSmall rightSmall

/-- Writing the slot behind the last item adds an item at the end. -/
theorem Holds.push (holds : Holds buffer capacity start items) (room : items.length < capacity)
    (item : α)
    : Holds (Function.update buffer ((start + items.length) % capacity) item) capacity start
        (items ++ [item]) := by
  intro index inside
  rw [List.length_append, List.length_singleton] at inside
  rcases Nat.lt_succ_iff_lt_or_eq.mp inside with before | rfl
  · rw [List.getElem_append_left before, ← holds index before]
    refine Function.update_of_ne (fun same => ?_) _ _
    exact before.ne (slot_inj (before.trans room) room same)
  · rw [List.getElem_concat_length rfl]
    exact Function.update_self _ _ _

/-- The first slot holds the first item, and the slots behind it hold the others. -/
theorem Holds.pop (holds : Holds buffer capacity start (item :: items))
    : buffer (start % capacity) = item ∧ Holds buffer capacity (start + 1) items := by
  refine ⟨holds 0 (Nat.zero_lt_succ _), fun index inside => ?_⟩
  have next := holds (index + 1) (Nat.succ_lt_succ inside)
  rw [Nat.add_assoc, Nat.add_comm 1 index, next]
  exact List.getElem_cons_succ ..

/-- Only the slot of `start` matters. -/
theorem Holds.of_mod {other : Nat} (holds : Holds buffer capacity start items)
    (same : other % capacity = start % capacity)
    : Holds buffer capacity other items := by
  intro index inside
  rw [Nat.add_mod, same, ← Nat.add_mod]
  exact holds index inside

end RingBuffer
