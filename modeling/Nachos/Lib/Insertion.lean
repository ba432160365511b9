import Mathlib.Data.List.Sort

/-! Insertion into a list by a comparison that may fail, before the first element that the
new one is smaller than.
-/

namespace Insertion

variable {ε α : Type}

/-- Put an item before the first element that it compares below. -/
def insertBy (compare : α → α → Except ε Int) (item : α) : List α → Except ε (List α)
  | [] => .ok [item]
  | head :: rest => do
      let order ← compare item head
      if order < 0 then return item :: head :: rest
      else
        let inserted ← insertBy compare item rest
        return head :: inserted

/-- Comparisons that succeed insert by the sign of their results, by induction on the list. -/
theorem insertBy_eq {compare : α → α → Except ε Int} {order : α → α → Int} {item : α}
    {items : List α}
    (compared : ∀ other ∈ items, compare item other = .ok (order item other))
    : insertBy compare item items
      = .ok (items.orderedInsert (fun left right => order left right < 0) item) := by
  induction items with
  | nil => rfl
  | cons head rest ih =>
      have first := compared head (List.mem_cons_self ..)
      have others := ih (fun other member => compared other (List.mem_cons_of_mem _ member))
      rw [insertBy, first, others]
      by_cases below : order item head < 0 <;>
        simp [below, bind, Except.bind, pure, Except.pure]

section OrderedInsert

variable {before : α → α → Prop} [DecidableRel before] {item : α} {items : List α}

/-- An item comes after all others, or before the first that stops it, by induction on the
list.
-/
theorem orderedInsert_cases (before : α → α → Prop) [DecidableRel before] (item : α)
    (items : List α)
    : ((∀ other ∈ items, ¬before item other)
        ∧ items.orderedInsert before item = items ++ [item])
      ∨ ∃ left stop right,
          items = left ++ stop :: right
          ∧ (∀ other ∈ left, ¬before item other)
          ∧ before item stop
          ∧ items.orderedInsert before item = left ++ item :: stop :: right := by
  induction items with
  | nil => exact .inl ⟨List.forall_mem_nil _, rfl⟩
  | cons head rest ih =>
      rw [List.orderedInsert_cons]
      by_cases stops : before item head
      · exact .inr ⟨[], head, rest, rfl, List.forall_mem_nil _, stops, if_pos stops⟩
      · rw [if_neg stops]
        rcases ih with ⟨passes, last⟩ | ⟨left, stop, right, rfl, passes, stopped, placed⟩
        · exact .inl ⟨List.forall_mem_cons.mpr ⟨stops, passes⟩, congrArg (head :: ·) last⟩
        · exact .inr ⟨head :: left, stop, right, rfl, List.forall_mem_cons.mpr ⟨stops, passes⟩,
            stopped, congrArg (head :: ·) placed⟩

/-- An insertion keeps an order in which the item stands before exactly the elements that
stop it, by induction on the list.
-/
theorem pairwise_orderedInsert {r : α → α → Prop} [IsTrans α r] (sorted : items.Pairwise r)
    (below : ∀ other ∈ items, before item other → r item other)
    (above : ∀ other ∈ items, ¬before item other → r other item)
    : (items.orderedInsert before item).Pairwise r := by
  induction items with
  | nil => exact List.pairwise_singleton r item
  | cons head rest ih =>
      obtain ⟨first, others⟩ := List.pairwise_cons.mp sorted
      rw [List.orderedInsert_cons]
      split
      · have start := below head (List.mem_cons_self ..) ‹_›
        refine List.pairwise_cons.mpr ⟨fun other member => ?_, sorted⟩
        rcases List.mem_cons.mp member with rfl | later
        · exact start
        · exact trans_of r start (first other later)
      · refine List.pairwise_cons.mpr ⟨fun other member => ?_, ?_⟩
        · rcases (List.mem_orderedInsert before).mp member with rfl | later
          · exact above head (List.mem_cons_self ..) ‹_›
          · exact first other later
        · exact ih others (fun other member => below other (List.mem_cons_of_mem _ member))
            (fun other member => above other (List.mem_cons_of_mem _ member))

/-- Leaving out elements that do not stop the item commutes with an insertion, by induction
on the list.
-/
theorem filter_orderedInsert {keep : α → Bool} (kept : keep item = true)
    (skipped : ∀ other ∈ items, keep other = false → ¬before item other)
    : (items.orderedInsert before item).filter keep
      = (items.filter keep).orderedInsert before item := by
  induction items with
  | nil => simp [kept]
  | cons head rest ih =>
      have others := ih (fun other member => skipped other (List.mem_cons_of_mem _ member))
      cases keeps : keep head with
      | false =>
          have stays := skipped head (List.mem_cons_self ..) keeps
          simp [stays, keeps, others]
      | true =>
          by_cases stops : before item head
          · simp [stops, keeps, kept]
          · simp [stops, keeps, others]

/-- Leaving out the item undoes an insertion, by induction on the list. -/
theorem filter_orderedInsert_of_not {keep : α → Bool} (dropped : keep item = false)
    : (items.orderedInsert before item).filter keep = items.filter keep := by
  induction items with
  | nil => simp [dropped]
  | cons head rest ih =>
      rw [List.orderedInsert_cons]
      split
      · simp [dropped]
      · rw [List.filter_cons, List.filter_cons, ih]

end OrderedInsert

end Insertion
