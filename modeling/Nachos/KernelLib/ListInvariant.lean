import Nachos.KernelLib.ListSegments
import Nachos.KernelLib.SortedList

/-! Any sequence of operations on a list or a sorted list: the members agree with the elements,
the items are those of the same operations on a sequence, and no check fails.
-/

namespace Nachos.LinkedList
open Routines Routine

variable {α : Type}

-----------------------------------------------------------------------------------------
-- Removals
-----------------------------------------------------------------------------------------

section Removals

variable {store : Store α} {list : Header} {cells left right : List (Address × α)}
  {front earlier target : Address × α} {fuel : Nat}

/-- RemoveFront returns the first item and frees its cell; the cells behind it stay linked.
Witness: the cell that `first` points to.
-/
theorem run_removeFront (owns : list.Owns store (front :: cells))
    : ∃ shorter after,
        (removeFront list).run store = (.ok (front.2, shorter), after)
        ∧ shorter.Owns after cells
        ∧ store.Spares after (front :: cells) := by
  have filled : list.isEmpty = false :=
    Bool.eq_false_iff.mpr (fun empty => List.cons_ne_nil _ _ (owns.isEmpty_iff.mp empty))
  obtain ⟨first, element, found, holds, linked⟩ := owns.linked.of_cons
  obtain ⟨outside, distinct⟩ := List.nodup_cons.mp owns.distinct
  have start : (read list.first).run store = (.ok element, store) := first ▸ run_read found
  have deleted : (delete list.first).run store = (.ok (), store.release front.1) :=
    first ▸ run_delete found
  rw [removeFront, run_bind_ok (run_assert_of filled _ _), run_bind_ok start,
    run_bind_ok deleted, run_pure, holds]
  refine ⟨_, _, rfl, ?_, (Store.Spares.refl _ _).release (List.mem_cons_self ..)⟩
  have counted : list.numInList - 1 = cells.length := by
    rw [owns.counted, List.length_cons, Int.natCast_succ, Int.add_sub_cancel]
  cases cells with
  | nil =>
      have only : list.first = list.last := by
        rw [first, owns.ended]
        rfl
      rw [if_pos only]
      exact ⟨.stop, .nil, rfl, counted⟩
  | cons next cells =>
      have more : list.first ≠ list.last := by
        rw [first, owns.ended, List.getLast?_cons_cons]
        intro same
        obtain ⟨ending, last, same⟩ := Option.map_eq_some_iff.mp same.symm
        exact outside (same ▸ List.mem_map_of_mem (List.mem_of_getLast? last))
      rw [if_neg more]
      exact ⟨linked.frame_release outside, distinct, owns.ended, counted⟩

/-- The element after another leaves the list. -/
theorem Header.Owns.without (owns : list.Owns store (left ++ [earlier] ++ target :: right))
    {next : Option Address} (follows : Segment store next right none)
    : ({
        list with
        last := if next.isNone then some earlier.1 else list.last
        numInList := list.numInList - 1
      } : Header).Owns
        ((store.link earlier.1 next).release target.1) (left ++ [earlier] ++ right) := by
  have distinct := owns.distinct
  rw [List.map_append, List.map_cons] at distinct
  obtain ⟨lefts, rights, apart⟩ := List.nodup_append'.mp distinct
  obtain ⟨outside, rights⟩ := List.nodup_cons.mp rights
  have notLeft : target.1 ∉ (left ++ [earlier]).map Prod.fst := fun member =>
    apart member (List.mem_cons_self ..)
  have once : earlier.1 ∉ left.map Prod.fst := by
    intro member
    rw [List.map_append, List.nodup_append'] at lefts
    exact lefts.2.2 member (List.mem_singleton_self _)
  have notRight : earlier.1 ∉ right.map Prod.fst := fun member =>
    apart (by simp) (List.mem_cons_of_mem _ member)
  obtain ⟨middle, first, _⟩ := owns.linked.split
  refine ⟨?_, ?_, ?_, ?_⟩
  · exact ((first.relink once next).frame_release notLeft).append
      ((follows.frame_link notRight next).frame_release outside)
  · rw [List.map_append, List.nodup_append']
    exact ⟨lefts, rights, fun address inLeft inRight =>
      apart inLeft (List.mem_cons_of_mem _ inRight)⟩
  · cases right with
    | nil =>
        cases follows
        rw [List.append_nil, List.getLast?_concat]
        rfl
    | cons cell right =>
        rw [follows.of_cons.1, List.getLast?_append_of_ne_nil _ (List.cons_ne_nil _ _)]
        change list.last = _
        rw [owns.ended, List.getLast?_append_of_ne_nil _ (List.cons_ne_nil _ _),
          List.getLast?_cons_cons]
  · change list.numInList - 1 = _
    rw [owns.counted]
    simp
    omega

variable [DecidableEq α]

/-- The loop of `Remove` takes out the first element that holds the item, by induction on the
elements before it.
-/
theorem run_removeFrom (list : Header) {pointer : Option Address} {element : Element α}
    (found : store.elements earlier.1 = some element)
    (segment : Segment store pointer (left ++ target :: right) none)
    (outside : target.1 ∉ (earlier :: left).map Prod.fst)
    (absent : target.2 ∉ left.map Prod.snd) (enough : left.length < fuel)
    : ∃ before last next,
        earlier :: left = before ++ [last]
        ∧ Segment store next right none
        ∧ (removeFrom target.2 list fuel (some earlier.1) pointer).run store
          = (.ok
              {
                list with
                last := if next.isNone then some last.1 else list.last
                numInList := list.numInList - 1
              },
              (store.link last.1 next).release target.1) := by
  induction left generalizing earlier pointer element fuel with
  | nil =>
      obtain ⟨rfl, here, there, holds, linked⟩ := segment.of_cons
      cases fuel with
      | zero => exact absurd enough (Nat.not_lt_zero _)
      | succ fuel =>
          have apart : target.1 ≠ earlier.1 := fun same => outside (by simp [same])
          have kept : (store.link earlier.1 here.next).elements target.1 = some here :=
            (Store.elements_link_of_ne apart _).trans there
          refine ⟨[], earlier, here.next, rfl, linked, ?_⟩
          rw [removeFrom, run_bind_ok (run_read there), if_pos holds.symm,
            run_bind_ok (run_setNext found _), run_bind_ok (run_delete kept), run_pure]
  | cons cell left ih =>
      obtain ⟨rfl, here, there, holds, linked⟩ := segment.of_cons
      obtain ⟨differs, notLater⟩ := not_or.mp (List.mem_cons.not.mp absent)
      cases fuel with
      | zero => exact absurd enough (Nat.not_lt_zero _)
      | succ fuel =>
          obtain ⟨before, last, next, same, follows, ran⟩ :=
            ih there linked (fun member => outside (List.mem_cons_of_mem _ member)) notLater
              (Nat.lt_of_succ_lt_succ enough)
          refine ⟨earlier :: before, last, next, congrArg (earlier :: ·) same, follows, ?_⟩
          rw [removeFrom, run_bind_ok (run_read there), holds, if_neg differs]
          exact ran

/-- The search of Remove finds the item and unlinks its cell, by cases on whether it is the first;
the search itself is an induction on the cells in front.
-/
theorem run_removeFound (owns : list.Owns store (left ++ target :: right))
    (absent : target.2 ∉ left.map Prod.snd) (enough : left.length < fuel)
    : ∃ shorter after,
        (removeFound fuel target.2 list).run store = (.ok shorter, after)
        ∧ shorter.Owns after (left ++ right)
        ∧ store.Spares after (left ++ target :: right) := by
  cases left with
  | nil =>
      obtain ⟨first, element, found, holds, _⟩ := owns.linked.of_cons
      have start : (read list.first).run store = (.ok element, store) := first ▸ run_read found
      obtain ⟨shorter, after, removed, owned, spares⟩ := run_removeFront owns
      refine ⟨shorter, after, ?_, owned, spares⟩
      rw [removeFound, run_bind_ok start, if_pos holds.symm, run_bind_ok removed]
      dsimp only
      rw [run_bind_ok (run_assert_of rfl _ _), run_pure]
  | cons front left =>
      obtain ⟨first, element, found, holds, linked⟩ := owns.linked.of_cons
      have start : (read list.first).run store = (.ok element, store) := first ▸ run_read found
      obtain ⟨differs, notLater⟩ := not_or.mp (List.mem_cons.not.mp absent)
      have outside : target.1 ∉ (front :: left).map Prod.fst := by
        have distinct := owns.distinct
        rw [List.map_append, List.nodup_append'] at distinct
        exact fun member => distinct.2.2 member (List.mem_cons_self ..)
      obtain ⟨before, last, next, same, follows, ran⟩ :=
        run_removeFrom list found linked outside notLater (Nat.lt_of_succ_lt enough)
      rw [← first] at ran
      rw [removeFound, run_bind_ok start, holds, if_neg differs, same]
      rw [same] at owns
      have spares
          := ((Store.Spares.refl store (before ++ [last] ++ target :: right)).link
            (by simp : last.1 ∈ _) next).release (by simp : target.1 ∈ _)
      exact ⟨_, _, ran, owns.without follows, spares⟩

/-- Remove of an item that is there once passes its two assertions and takes the item out. -/
theorem run_remove (owns : list.Owns store (left ++ target :: right))
    (notLeft : target.2 ∉ left.map Prod.snd) (notRight : target.2 ∉ right.map Prod.snd)
    (enough : (left ++ target :: right).length < fuel)
    : ∃ shorter after,
        (remove fuel target.2 list).run store = (.ok shorter, after)
        ∧ shorter.Owns after (left ++ right)
        ∧ store.Spares after (left ++ target :: right) := by
  have few : left.length < fuel := by
    rw [List.length_append] at enough
    exact lt_of_le_of_lt (Nat.le_add_right _ _) enough
  obtain ⟨shorter, after, removed, owned, spares⟩ := run_removeFound owns notLeft few
  have present : (isInList fuel target.2 list).run store = (.ok true, store) := by
    rw [isInList, run_isInListFrom owns.linked enough, decide_eq_true (by simp)]
  have gone : (isInList fuel target.2 shorter).run after = (.ok false, after) := by
    have fewer : (left ++ right).length < fuel := by
      rw [List.length_append] at enough ⊢
      exact lt_of_le_of_lt (Nat.add_le_add_left (Nat.le_succ _) _) enough
    rw [isInList, run_isInListFrom owned.linked fewer, decide_eq_false]
    rw [List.map_append, List.mem_append]
    exact not_or.mpr ⟨notLeft, notRight⟩
  refine ⟨shorter, after, ?_, owned, spares⟩
  rw [remove, run_bind_ok present, run_bind_ok (run_assert_of rfl _ _), run_bind_ok removed,
    run_bind_ok gone, run_bind_ok (run_assert_of rfl _ _), run_pure]

end Removals

-----------------------------------------------------------------------------------------
-- Sanity checks
-----------------------------------------------------------------------------------------

section SanityChecks

variable {store : Store α} {list : Header} {cells : List (Address × α)} {fuel : Nat}

/-- The loop of `SanityCheck` counts the elements before the last, by induction on them. -/
theorem run_countFrom {ending : Address × α} {pointer : Option Address} {numFound : Int}
    (segment : Segment store pointer (cells ++ [ending]) none) (last : list.last = some ending.1)
    (before : ending.1 ∉ cells.map Prod.fst) (within : numFound + cells.length ≤ list.numInList)
    (enough : cells.length < fuel)
    : (countFrom list fuel numFound pointer).run store
      = (.ok (numFound + cells.length), store) := by
  induction cells generalizing pointer numFound fuel with
  | nil =>
      cases fuel with
      | zero => exact absurd enough (Nat.not_lt_zero _)
      | succ fuel =>
          rw [countFrom, if_pos (segment.of_cons.1.trans last.symm), run_pure]
          simp
  | cons cell cells ih =>
      obtain ⟨rfl, element, found, _, linked⟩ := segment.of_cons
      obtain ⟨apart, notLater⟩ := not_or.mp (List.mem_cons.not.mp before)
      rw [List.length_cons, Int.natCast_succ] at within ⊢
      cases fuel with
      | zero => exact absurd enough (Nat.not_lt_zero _)
      | succ fuel =>
          have differs : some cell.1 ≠ list.last := fun same =>
            apart (Option.some.inj (last.symm.trans same.symm))
          have room : numFound + 1 ≤ list.numInList := by omega
          rw [countFrom, if_neg differs, run_bind_ok (run_assert_of room _ _),
            run_bind_ok (run_read found),
            ih linked notLater (by omega) (Nat.lt_of_succ_lt_succ enough)]
          simp only [Int.add_assoc, Int.add_comm 1]

/-- The last element has no successor. -/
theorem Header.Owns.exists_last (owns : list.Owns store cells) {ending : Address × α}
    (last : cells.getLast? = some ending)
    : ∃ element,
        store.elements ending.1 = some element
        ∧ element.next = none
        ∧ (read list.last).run store = (.ok element, store) := by
  obtain ⟨init, rfl⟩ := List.getLast?_eq_some_iff.mp last
  obtain ⟨_, _, second⟩ := owns.linked.split
  obtain ⟨_, element, found, _, stops⟩ := second.of_cons
  have ended : list.last = some ending.1 := by
    rw [owns.ended, last]
    rfl
  generalize next : element.next = pointer at stops
  cases stops
  exact ⟨element, found, next, ended ▸ run_read found⟩

/-- A list that owns its cells passes its check, by cases on none, one and more of them. -/
theorem run_sanityCheck (owns : list.Owns store cells) (enough : cells.length ≤ fuel)
    : (sanityCheck fuel list).run store = (.ok (), store) := by
  have counted := owns.counted
  have ended := owns.ended
  have distinct := owns.distinct
  rcases List.eq_nil_or_concat' cells with rfl | ⟨init, ending, rfl⟩
  · have first : list.first = none := by
      have linked := owns.linked
      generalize list.first = pointer at linked
      cases linked
      rfl
    rw [sanityCheck, if_pos first, run_assert_of ⟨counted, ended⟩]
  · obtain ⟨element, _, stops, ran⟩ := owns.exists_last List.getLast?_concat
    rw [List.getLast?_concat] at ended
    rw [List.length_append, List.length_singleton, Int.natCast_succ] at counted
    rw [List.map_append, List.nodup_append'] at distinct
    have before : ending.1 ∉ init.map Prod.fst := fun member =>
      distinct.2.2 member (List.mem_singleton_self _)
    cases init with
    | nil =>
        have first : list.first = some ending.1 := owns.linked.of_cons.1
        have one : list.numInList = 1 := counted
        rw [sanityCheck, if_neg (by simp [first]), if_pos (first.trans ended.symm),
          run_bind_ok (run_assert_of one _ _), run_bind_ok ran, run_assert_of stops]
    | cons front init =>
        have first : list.first = some front.1 := owns.linked.of_cons.1
        have more : list.first ≠ list.last := by
          rw [first, ended]
          exact fun same => before (Option.some.inj same ▸ List.mem_cons_self ..)
        have short : (front :: init).length < fuel := by
          rw [List.length_append] at enough
          exact enough
        have found := run_countFrom owns.linked ended before
          (by rw [counted, Int.add_comm] : (1 : Int) + (front :: init).length ≤ list.numInList)
          short
        rw [sanityCheck, if_neg (by simp [first]), if_neg more, run_bind_ok found,
          run_bind_ok (run_assert_of (by rw [counted, Int.add_comm]) _ _), run_bind_ok ran,
          run_assert_of stops]

variable {order : α → α → Int}

/-- The loop of the sorted check passes on sorted items, by induction on the elements. -/
theorem run_orderedFrom {previous : Address × α} {pointer : Option Address} {element : Element α}
    (found : store.elements previous.1 = some element) (holds : element.item = previous.2)
    (segment : Segment store pointer cells none)
    (sorted
      : ((previous :: cells).map Prod.snd).Pairwise (fun left right => order left right ≤ 0))
    (enough : cells.length < fuel)
    : (orderedFrom (fun left right => .ok (order left right)) fuel (some previous.1)
        pointer).run store
      = (.ok (), store) := by
  induction cells generalizing previous pointer element fuel with
  | nil =>
      cases segment
      cases fuel with
      | zero => exact absurd enough (Nat.not_lt_zero _)
      | succ fuel => rfl
  | cons cell cells ih =>
      obtain ⟨rfl, here, there, held, linked⟩ := segment.of_cons
      obtain ⟨first, others⟩ := List.pairwise_cons.mp sorted
      cases fuel with
      | zero => exact absurd enough (Nat.not_lt_zero _)
      | succ fuel =>
          have below : order element.item here.item ≤ 0 := by
            rw [holds, held]
            exact first cell.2 (List.mem_cons_self ..)
          have compared
              : (lift (.ok (order element.item here.item)) : Routine Fault (Store α) Int).run
                  store
                = (.ok (order element.item here.item), store) :=
            rfl
          rw [orderedFrom, run_bind_ok (run_read found), run_bind_ok (run_read there),
            run_bind_ok compared, run_bind_ok (run_assert_of below _ _)]
          exact ih there held linked others (Nat.lt_of_succ_lt_succ enough)

/-- A sorted list passes the check of the order too, since neighbours are in order. -/
theorem run_sortedSanityCheck (owns : list.Owns store cells)
    (sorted : (cells.map Prod.snd).Pairwise (fun left right => order left right ≤ 0))
    (enough : cells.length ≤ fuel)
    : (sortedSanityCheck fuel list (fun left right => .ok (order left right))).run store
      = (.ok (), store) := by
  rw [sortedSanityCheck, run_bind_ok (run_sanityCheck owns enough)]
  split
  · rfl
  · rename_i more
    cases cells with
    | nil =>
        refine absurd ?_ more
        have linked := owns.linked
        have ended := owns.ended
        generalize list.first = pointer at linked
        cases linked
        exact ended.symm
    | cons front cells =>
        obtain ⟨first, element, found, holds, linked⟩ := owns.linked.of_cons
        have start : (read list.first).run store = (.ok element, store) :=
          first ▸ run_read found
        rw [run_bind_ok start, first]
        exact run_orderedFrom found holds linked sorted enough

end SanityChecks

-----------------------------------------------------------------------------------------
-- Representation
-----------------------------------------------------------------------------------------

/-- Where that many links lead. -/
def Store.follow (store : Store α) : Nat → Option Address → Option Address
  | 0, pointer => pointer
  | steps + 1, pointer =>
      store.follow steps ((pointer.bind store.elements).bind Element.next)

/-- A list with these items: its links lead from the first element to the last in one step less
than it counts, over elements that exist and are all different.
-/
structure Header.Represents (list : Header) (store : Store α) (items : List α) : Prop where
  counted : list.numInList = items.length
  noFirst : list.first = none ↔ list.numInList = 0
  noLast : list.last = none ↔ list.numInList = 0
  reached
    : 0 < list.numInList
      → store.follow (list.numInList - 1).toNat list.first = list.last
        ∧ ∃ element, list.last.bind store.elements = some element ∧ element.next = none
  exist
    : ∀ step (inside : step < items.length),
        ∃ element,
          (store.follow step list.first).bind store.elements = some element
          ∧ element.item = items[step]
  distinct
    : ∀ left right, left < right → right < items.length
      → store.follow left list.first ≠ store.follow right list.first

section Represents

variable {store : Store α} {list : Header} {cells : List (Address × α)}
  {pointer final : Option Address}

/-- The links of a segment lead over its elements in turn, by induction on it. -/
theorem Segment.follow_eq (segment : Segment store pointer cells final) {step : Nat}
    (inside : step < cells.length)
    : store.follow step pointer = some cells[step].1 := by
  induction segment generalizing step with
  | stop => exact absurd inside (Nat.not_lt_zero _)
  | step found _ ih =>
      cases step with
      | zero => rfl
      | succ step =>
          rw [Store.follow, Option.bind_some, found]
          exact ih (Nat.lt_of_succ_lt_succ inside)

/-- A list that owns its cells represents their items, with all that the header says of them. -/
theorem Header.Owns.represents (owns : list.Owns store cells)
    : list.Represents store (cells.map Prod.snd) where
  counted := by rw [owns.counted, List.length_map]
  noFirst := by
    rw [owns.counted, Int.natCast_eq_zero, List.length_eq_zero_iff]
    have linked := owns.linked
    generalize list.first = pointer at linked
    cases linked <;> simp
  noLast := by
    rw [owns.counted, Int.natCast_eq_zero, List.length_eq_zero_iff, owns.ended,
      Option.map_eq_none_iff, List.getLast?_eq_none_iff]
  reached := by
    intro some
    have counted := owns.counted
    rcases List.eq_nil_or_concat' cells with rfl | ⟨init, ending, rfl⟩
    · exact absurd counted some.ne'
    · obtain ⟨element, found, stops, _⟩ := owns.exists_last List.getLast?_concat
      have ended : list.last = .some ending.1 := by
        rw [owns.ended, List.getLast?_concat]
        rfl
      have steps : (list.numInList - 1).toNat = init.length := by
        rw [counted, List.length_append]
        simp
      rw [steps, ended, owns.linked.follow_eq (by simp)]
      exact ⟨by simp, element, found, stops⟩
  exist := by
    intro step inside
    rw [List.length_map] at inside
    rw [owns.linked.follow_eq inside, List.getElem_map]
    exact owns.linked.exists_element (List.getElem_mem inside)
  distinct := by
    intro left right earlier inside same
    rw [List.length_map] at inside
    rw [owns.linked.follow_eq (lt_trans earlier inside), owns.linked.follow_eq inside] at same
    have once := List.pairwise_iff_getElem.mp owns.distinct left right
      (by rw [List.length_map]; exact lt_trans earlier inside)
      (by rwa [List.length_map]) earlier
    rw [List.getElem_map, List.getElem_map] at once
    exact once (Option.some.inj same)

end Represents

-----------------------------------------------------------------------------------------
-- Sequences of operations
-----------------------------------------------------------------------------------------

/-- The operations of `List` and of `SortedList`, which share those that remove. -/
inductive Operation (α : Type) where
  | append (item : α)
  | prepend (item : α)
  | insert (item : α)
  | removeFront
  | remove (item : α)

namespace Operation

/-- Of `SortedList`, where appending and prepending are insertions. -/
def OnSortedList : Operation α → Prop
  | .insert _ | .removeFront | .remove _ => True
  | .append _ | .prepend _ => False

/-- New items go in, and items that are there come out. -/
def Legal (items : List α) : Operation α → Prop
  | .append item | .prepend item | .insert item => item ∉ items
  | .removeFront => items ≠ []
  | .remove item => item ∈ items

variable [DecidableEq α]

def perform (allocator : Allocator α) (fuel : Nat) (compare : α → α → Except Fault Int)
    (list : Header)
    : Operation α → Routine Fault (Store α) (Option α × Header)
  | .append item => do
      let longer ← LinkedList.append allocator fuel item list
      return (none, longer)
  | .prepend item => do
      let longer ← LinkedList.prepend allocator fuel item list
      return (none, longer)
  | .insert item => do
      let longer ← LinkedList.insert allocator fuel item compare list
      return (none, longer)
  | .removeFront => do
      let (item, shorter) ← LinkedList.removeFront list
      return (some item, shorter)
  | .remove item => do
      let shorter ← LinkedList.remove fuel item list
      return (none, shorter)

/-- The same operation on a sequence of items. -/
def apply (order : α → α → Int) (items : List α) : Operation α → Option α × List α
  | .append item => (none, items ++ [item])
  | .prepend item => (none, item :: items)
  | .insert item => (none, items.orderedInsert (fun left right => order left right < 0) item)
  | .removeFront => (items.head?, items.tail)
  | .remove item => (none, items.erase item)

end Operation

section Sequences

variable [DecidableEq α]

def performAll (allocator : Allocator α) (fuel : Nat) (compare : α → α → Except Fault Int)
    : List (Operation α) → Header → Routine Fault (Store α) (List (Option α) × Header)
  | [], list => return ([], list)
  | operation :: operations, list => do
      let (removed, next) ← operation.perform allocator fuel compare list
      let (others, final) ← performAll allocator fuel compare operations next
      return (removed :: others, final)

def applyAll (order : α → α → Int)
    : List (Operation α) → List α → List (Option α) × List α
  | [], items => ([], items)
  | operation :: operations, items =>
      let (removed, next) := operation.apply order items
      let (others, final) := applyAll order operations next
      (removed :: others, final)

/-- Each operation is legal where it is performed. -/
def LegalFrom (order : α → α → Int) : List (Operation α) → List α → Prop
  | [], _ => True
  | operation :: operations, items =>
      operation.Legal items ∧ LegalFrom order operations (operation.apply order items).2

/-- The constructor of `List`. -/
def Header.empty : Header where
  first := none
  last := none
  numInList := 0

variable {store : Store α} {list : Header} {cells : List (Address × α)} {order : α → α → Int}
  {operation : Operation α} {operations : List (Operation α)} {fuel : Nat} {items : List α}

/-- Legal operations keep the items distinct, by cases on the operation. -/
theorem nodup_apply (distinct : items.Nodup) (legal : operation.Legal items)
    : (operation.apply order items).2.Nodup := by
  cases operation with
  | append item =>
      refine List.nodup_append'.mpr ⟨distinct, List.pairwise_singleton .., ?_⟩
      intro other member same
      exact legal (List.mem_singleton.mp same ▸ member)
  | prepend item => exact List.nodup_cons.mpr ⟨legal, distinct⟩
  | insert item =>
      exact (List.perm_orderedInsert _ item items).nodup_iff.mpr
        (List.nodup_cons.mpr ⟨legal, distinct⟩)
  | removeFront => exact distinct.sublist (List.tail_sublist _)
  | remove item => exact distinct.erase item

/-- An operation adds at most one item, by cases on it. -/
theorem length_apply_le (order : α → α → Int) (operation : Operation α) (items : List α)
    : (operation.apply order items).2.length ≤ items.length + 1 := by
  cases operation with
  | append item => exact le_of_eq List.length_append
  | prepend item => exact le_rfl
  | insert item => exact le_of_eq (List.orderedInsert_length _ items item)
  | removeFront =>
      exact le_trans (List.tail_sublist items).length_le (Nat.le_succ _)
  | remove item => exact le_trans (List.erase_sublist.length_le) (Nat.le_succ _)

/-- An operation does to the elements what it does to the items, by cases on it. -/
theorem run_perform (owns : list.Owns store cells) (allocator : Allocator α)
    (distinct : (cells.map Prod.snd).Nodup) (legal : operation.Legal (cells.map Prod.snd))
    (enough : cells.length + 1 < fuel)
    : ∃ next after others,
        (operation.perform allocator fuel (fun left right => .ok (order left right)) list).run
            store
          = (.ok ((operation.apply order (cells.map Prod.snd)).1, next), after)
        ∧ next.Owns after others
        ∧ others.map Prod.snd = (operation.apply order (cells.map Prod.snd)).2 := by
  cases operation with
  | append item =>
      obtain ⟨longer, after, ran, owned, _⟩ := run_append owns allocator legal enough
      refine ⟨longer, after, _, ?_, owned, List.map_append⟩
      rw [Operation.perform, run_bind_ok ran, run_pure]
      rfl
  | prepend item =>
      obtain ⟨longer, after, ran, owned⟩ := run_prepend owns allocator legal enough
      refine ⟨longer, after, _, ?_, owned, rfl⟩
      rw [Operation.perform, run_bind_ok ran, run_pure]
      rfl
  | insert item =>
      obtain ⟨longer, after, ran, owned, _⟩ :=
        @run_insert _ _ _ _ _ _ (fun left right => .ok (order left right)) order owns allocator
          item (fun _ _ => rfl) legal enough
      refine ⟨longer, after, _, ?_, owned, ?_⟩
      · rw [Operation.perform, run_bind_ok ran, run_pure]
        rfl
      · exact map_orderedInsert order _ cells
  | removeFront =>
      cases cells with
      | nil => exact absurd rfl legal
      | cons front cells =>
          obtain ⟨shorter, after, ran, owned, _⟩ := run_removeFront owns
          refine ⟨shorter, after, cells, ?_, owned, rfl⟩
          rw [Operation.perform, run_bind_ok ran]
          rfl
  | remove item =>
      obtain ⟨target, member, rfl⟩ := List.mem_map.mp legal
      obtain ⟨left, right, rfl⟩ := List.append_of_mem member
      rw [List.map_append, List.nodup_append'] at distinct
      have notLeft : target.2 ∉ left.map Prod.snd := fun inside =>
        distinct.2.2 inside (List.mem_cons_self ..)
      have notRight := (List.nodup_cons.mp distinct.2.1).1
      obtain ⟨shorter, after, ran, owned, _⟩ :=
        run_remove owns notLeft notRight (Nat.lt_of_succ_lt enough)
      refine ⟨shorter, after, _, ?_, owned, ?_⟩
      · rw [Operation.perform, run_bind_ok ran, run_pure]
        rfl
      · rw [Operation.apply, List.map_append, List.map_append, List.map_cons,
          List.erase_append_right _ notLeft, List.erase_cons_head]

/-- By induction on the operations, with fuel for a list that grows with each. -/
theorem run_performAll (owns : list.Owns store cells) (allocator : Allocator α)
    (distinct : (cells.map Prod.snd).Nodup)
    (legal : LegalFrom order operations (cells.map Prod.snd))
    (enough : cells.length + operations.length < fuel)
    : ∃ final after others,
        (performAll allocator fuel (fun left right => .ok (order left right)) operations list).run
            store
          = (.ok ((applyAll order operations (cells.map Prod.snd)).1, final), after)
        ∧ final.Owns after others
        ∧ others.map Prod.snd = (applyAll order operations (cells.map Prod.snd)).2
        ∧ others.length < fuel := by
  induction operations generalizing list store cells with
  | nil => exact ⟨list, store, cells, rfl, owns, rfl, enough⟩
  | cons operation operations ih =>
      obtain ⟨here, later⟩ := legal
      rw [List.length_cons] at enough
      obtain ⟨next, after, others, ran, owned, same⟩ :=
        @run_perform _ _ _ _ _ order _ fuel owns allocator distinct here (by omega)
      have grown := length_apply_le order operation (cells.map Prod.snd)
      rw [← same, List.length_map, List.length_map] at grown
      rw [← same] at later
      obtain ⟨final, last, rest, ended, finalOwned, equal, small⟩ :=
        ih owned (same ▸ nodup_apply distinct here) later (by omega)
      refine ⟨final, last, rest, ?_, finalOwned, ?_, small⟩
      · rw [performAll, run_bind_ok ran]
        dsimp only
        rw [run_bind_ok ended, run_pure, same]
        rfl
      · rw [equal, same]
        rfl

/-- A comparison of which any two items are in order, some as equals. -/
structure TotalPreorder (compare : α → α → Int) : Prop where
  sign : ∀ left right, compare left right < 0 ↔ 0 < compare right left
  trans
    : ∀ left middle right,
      compare left middle ≤ 0 → compare middle right ≤ 0 → compare left right ≤ 0

/-- Operations on a sorted list keep it sorted, by cases on them. -/
theorem sorted_apply (total : TotalPreorder order) (onSorted : operation.OnSortedList)
    (sorted : items.Pairwise (fun left right => order left right ≤ 0))
    : (operation.apply order items).2.Pairwise (fun left right => order left right ≤ 0) := by
  cases operation with
  | append item | prepend item => exact onSorted.elim
  | insert item =>
      have : IsTrans α (fun left right => order left right ≤ 0) := ⟨total.trans⟩
      refine Insertion.pairwise_orderedInsert sorted (fun _ _ below => le_of_lt below) ?_
      exact fun other _ passes => not_lt.mp (fun above => passes ((total.sign item other).mpr above))
  | removeFront => exact sorted.sublist (List.tail_sublist _)
  | remove item => exact sorted.sublist List.erase_sublist

/-- By induction on the operations. -/
theorem sorted_applyAll (total : TotalPreorder order)
    (onSorted : ∀ operation ∈ operations, operation.OnSortedList)
    (sorted : items.Pairwise (fun left right => order left right ≤ 0))
    : (applyAll order operations items).2.Pairwise (fun left right => order left right ≤ 0) := by
  induction operations generalizing items with
  | nil => exact sorted
  | cons operation operations ih =>
      obtain ⟨here, later⟩ := List.forall_mem_cons.mp onSorted
      exact ih later (sorted_apply total here sorted)

/-- In a sorted list an insertion comes after all items that are not above the new one. -/
theorem exists_of_insert (total : TotalPreorder order)
    (sorted : items.Pairwise (fun left right => order left right ≤ 0)) (item : α)
    : ∃ before later,
        items = before ++ later
        ∧ ((Operation.insert item).apply order items).2 = before ++ item :: later
        ∧ (∀ other ∈ before, order other item ≤ 0)
        ∧ ∀ other ∈ later, order item other < 0 := by
  rcases Insertion.orderedInsert_cases (fun left right => order left right < 0) item items with
    ⟨passes, last⟩ | ⟨left, stop, right, rfl, passes, stops, placed⟩
  · refine ⟨items, [], (List.append_nil _).symm, last, fun other member => ?_,
      List.forall_mem_nil _⟩
    exact not_lt.mp (fun above => passes other member ((total.sign item other).mpr above))
  · refine ⟨left, stop :: right, rfl, placed, fun other member => ?_,
      List.forall_mem_cons.mpr ⟨stops, fun other member => ?_⟩⟩
    · exact not_lt.mp (fun above => passes other member ((total.sign item other).mpr above))
    · -- What is above an item that is above the new one is above the new one.
      have after := (List.pairwise_cons.mp (List.pairwise_append.mp sorted).2.1).1 other member
      by_contra above
      have reaches : order other item ≤ 0 :=
        not_lt.mp (fun below => above ((total.sign item other).mpr below))
      have back := total.trans stop other item after reaches
      exact absurd ((total.sign item stop).mp stops) (not_lt.mpr back)

/-- Operations on an empty list whose insertions are of new items and whose removals are of items
that are there: no check fails, and the list is that of the items that the operations leave. A
sorted list stays sorted, and inserts an item behind all those that are not above it.
-/
theorem operations_represent (allocator : Allocator α) (store : Store α) (order : α → α → Int)
    (operations : List (Operation α)) (fuel : Nat) (enough : operations.length < fuel)
    (legal : LegalFrom order operations [])
    : let (removed, items) := applyAll order operations []
      ∃ list after,
        (performAll allocator fuel (fun left right => .ok (order left right)) operations
            .empty).run store
          = (.ok (removed, list), after)
        ∧ list.Represents after items
        ∧ (sanityCheck fuel list).run after = (.ok (), after)
        ∧ (TotalPreorder order → (∀ operation ∈ operations, operation.OnSortedList)
          → items.Pairwise (fun left right => order left right ≤ 0)
            ∧ (sortedSanityCheck fuel list (fun left right => .ok (order left right))).run after
              = (.ok (), after)
            ∧ ∀ item, ∃ before later,
                items = before ++ later
                ∧ ((Operation.insert item).apply order items).2 = before ++ item :: later
                ∧ (∀ other ∈ before, order other item ≤ 0)
                ∧ ∀ other ∈ later, order item other < 0) := by
  have owns : Header.empty.Owns store [] := ⟨.stop, .nil, rfl, rfl⟩
  obtain ⟨list, after, cells, ran, owned, same, small⟩ :=
    run_performAll owns allocator .nil legal (by simpa using enough)
  refine ⟨list, after, ran, same ▸ owned.represents, run_sanityCheck owned small.le, ?_⟩
  intro total onSorted
  have sorted := sorted_applyAll total onSorted List.Pairwise.nil
  exact ⟨sorted, run_sortedSanityCheck owned (same.symm ▸ sorted) small.le,
    exists_of_insert total sorted⟩

/-- Numbers that a comparison sorts by their tens: 13 goes behind 11, and 25 is taken out of the
end.
-/
theorem operations_represent_of_tens
    : let order (left right : Nat) : Int := (left / 10 : Nat) - (right / 10 : Nat)
      let operations : List (Operation Nat) :=
        [.insert 25, .insert 11, .insert 13, .remove 25, .insert 7, .removeFront]
      ∃ (list : Header) (after : Store Nat),
        (performAll Allocator.fresh 7 (fun left right => .ok (order left right)) operations
            .empty).run Store.empty
          = (.ok ([none, none, none, none, none, some 7], list), after)
        ∧ list.Represents after [11, 13]
        ∧ (sortedSanityCheck 7 list (fun left right => .ok (order left right))).run after
          = (.ok (), after) := by
  intro order operations
  have total : TotalPreorder order :=
    ⟨fun _ _ => by simp only [order]; omega, fun _ _ _ => by simp only [order]; omega⟩
  obtain ⟨list, after, ran, represents, _, sorted⟩ :=
    operations_represent Allocator.fresh Store.empty order operations 7 (by decide)
      (by simp [LegalFrom, operations, order, Operation.Legal, Operation.apply])
  refine ⟨list, after, ran, represents, (sorted total ?_).2.1⟩
  simp [operations, Operation.OnSortedList]

end Sequences

end Nachos.LinkedList
