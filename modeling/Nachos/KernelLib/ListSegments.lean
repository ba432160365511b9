import Mathlib.Data.List.Basic
import Mathlib.Data.List.Sort
import Nachos.KernelLib.ListPaths
import Nachos.Lib.Insertion

/-! Elements that links string together, by their addresses, and what the routines of lists and
sorted lists make of them.
-/

namespace Nachos.LinkedList
open Routines Routine

variable {α : Type}

-----------------------------------------------------------------------------------------
-- The heap
-----------------------------------------------------------------------------------------

namespace Store

variable {store : Store α} {address other : Address} {element : Element α}

@[simp]
theorem elements_construct (store : Store α) (item : α) (address : Address)
    : (store.construct item address).elements address
      = some { item, next := none, object := store.objects } :=
  Function.update_self ..

@[simp]
theorem elements_construct_of_ne (apart : other ≠ address) (item : α)
    : (store.construct item address).elements other = store.elements other :=
  Function.update_of_ne apart ..

theorem elements_link (found : store.elements address = some element) (next : Option Address)
    : (store.link address next).elements address = some { element with next } := by
  change Function.update _ _ _ _ = _
  rw [Function.update_self, found]
  rfl

@[simp]
theorem elements_link_of_ne (apart : other ≠ address) (next : Option Address)
    : (store.link address next).elements other = store.elements other :=
  Function.update_of_ne apart ..

@[simp]
theorem elements_release_of_ne (apart : other ≠ address)
    : (store.release address).elements other = store.elements other :=
  Function.update_of_ne apart ..

/-- At the addresses apart from those of a list all is as it was. -/
def Spares (before after : Store α) (cells : List (Address × α)) : Prop :=
  ∀ address, address ∉ cells.map Prod.fst → after.elements address = before.elements address

namespace Spares

variable {after final : Store α} {cells : List (Address × α)} {cell : Address × α}

theorem refl (store : Store α) (cells : List (Address × α)) : store.Spares store cells :=
  fun _ _ => rfl

theorem trans (first : store.Spares after cells) (second : after.Spares final cells)
    : store.Spares final cells :=
  fun address outside => (second address outside).trans (first address outside)

theorem construct (store : Store α) (cell : Address × α) (cells : List (Address × α))
    : store.Spares (store.construct cell.2 cell.1) (cell :: cells) := by
  intro other outside
  rw [List.map_cons, List.mem_cons, not_or] at outside
  exact elements_construct_of_ne outside.1 cell.2

theorem link (spares : store.Spares after cells) (inside : address ∈ cells.map Prod.fst)
    (next : Option Address)
    : store.Spares (after.link address next) cells := by
  intro other outside
  have apart : other ≠ address := fun same => outside (same ▸ inside)
  rw [elements_link_of_ne apart]
  exact spares other outside

theorem release (spares : store.Spares after cells) (inside : address ∈ cells.map Prod.fst)
    : store.Spares (after.release address) cells := by
  intro other outside
  have apart : other ≠ address := fun same => outside (same ▸ inside)
  rw [elements_release_of_ne apart]
  exact spares other outside

end Spares

end Store

/-- A link of a cell that is there is set without a fault. -/
theorem run_setNext {store : Store α} {address : Address} {element : Element α}
    (found : store.elements address = some element) (next : Option Address)
    : (setNext (some address) next).run store = (.ok (), store.link address next) := by
  have unfolded
      : (setNext (some address) next).run store
        = (if (store.elements address).isNone then throw .danglingPointer
            else set (store.link address next) : Routine Fault (Store α) Unit).run store :=
    rfl
  rw [unfolded, found]
  rfl

/-- A cell that is there is deleted without a fault. -/
theorem run_delete {store : Store α} {address : Address} {element : Element α}
    (found : store.elements address = some element)
    : (delete (some address)).run store = (.ok (), store.release address) := by
  have unfolded
      : (delete (some address)).run store
        = (if (store.elements address).isNone then throw .doubleDelete
            else set (store.release address) : Routine Fault (Store α) Unit).run store :=
    rfl
  rw [unfolded, found]
  rfl

-----------------------------------------------------------------------------------------
-- Segments
-----------------------------------------------------------------------------------------

/-- The links from one pointer lead to another over elements at these addresses that hold
these items.
-/
inductive Segment (store : Store α) : Option Address → List (Address × α) → Option Address → Prop
  | stop {pointer} : Segment store pointer [] pointer
  | step {address element rest final} (found : store.elements address = some element)
    (linked : Segment store element.next rest final)
    : Segment store (some address) ((address, element.item) :: rest) final

namespace Segment

variable {store after : Store α} {pointer middle final : Option Address}
  {left right cells : List (Address × α)} {cell : Address × α}

theorem of_cons (segment : Segment store pointer (cell :: cells) final)
    : pointer = some cell.1
      ∧ ∃ element,
          store.elements cell.1 = some element
          ∧ element.item = cell.2
          ∧ Segment store element.next cells final := by
  cases segment with
  | step found linked => exact ⟨rfl, _, found, rfl, linked⟩

theorem cons {element : Element α} (found : store.elements cell.1 = some element)
    (holds : element.item = cell.2) (linked : Segment store element.next cells final)
    : Segment store (some cell.1) (cell :: cells) final := by
  obtain ⟨address, item⟩ := cell
  obtain rfl : element.item = item := holds
  exact .step found linked

/-- By induction on the first segment. -/
theorem append (first : Segment store pointer left middle)
    (second : Segment store middle right final)
    : Segment store pointer (left ++ right) final := by
  induction first with
  | stop => exact second
  | step found _ ih => exact .step found (ih second)

/-- By induction on the first part. -/
theorem split (segment : Segment store pointer (left ++ right) final)
    : ∃ middle, Segment store pointer left middle ∧ Segment store middle right final := by
  induction left generalizing pointer with
  | nil => exact ⟨pointer, .stop, segment⟩
  | cons cell left ih =>
      obtain ⟨rfl, element, found, holds, linked⟩ := of_cons segment
      obtain ⟨middle, first, second⟩ := ih linked
      exact ⟨middle, cons found holds first, second⟩

/-- Elements that stay as they are stay strung together, by induction on the segment. -/
theorem frame (segment : Segment store pointer cells final)
    (same : ∀ cell ∈ cells, after.elements cell.1 = store.elements cell.1)
    : Segment after pointer cells final := by
  induction segment with
  | stop => exact .stop
  | step found _ ih =>
      have here := same _ (List.mem_cons_self ..)
      exact .step (here.trans found)
        (ih (fun cell member => same cell (List.mem_cons_of_mem _ member)))

/-- The elements of a segment exist, by induction on it. -/
theorem exists_element (segment : Segment store pointer cells final) (member : cell ∈ cells)
    : ∃ element, store.elements cell.1 = some element ∧ element.item = cell.2 := by
  induction segment with
  | stop => exact nomatch member
  | step found _ ih =>
      rcases List.mem_cons.mp member with rfl | later
      · exact ⟨_, found, rfl⟩
      · exact ih later

/-- Elements apart from those of a list stay strung together when only these change. -/
theorem spared (segment : Segment store pointer cells final) (spares : store.Spares after left)
    (apart : ∀ cell ∈ cells, cell.1 ∉ left.map Prod.fst)
    : Segment after pointer cells final :=
  segment.frame (fun cell member => spares cell.1 (apart cell member))

theorem ne_of_outside {address : Address} (outside : address ∉ cells.map Prod.fst)
    (member : cell ∈ cells)
    : cell.1 ≠ address := by
  rintro rfl
  exact outside (List.mem_map_of_mem member)

theorem frame_link {address : Address} (segment : Segment store pointer cells final)
    (outside : address ∉ cells.map Prod.fst) (next : Option Address)
    : Segment (store.link address next) pointer cells final :=
  segment.frame (fun _ member => Store.elements_link_of_ne (ne_of_outside outside member) next)

theorem frame_release {address : Address} (segment : Segment store pointer cells final)
    (outside : address ∉ cells.map Prod.fst)
    : Segment (store.release address) pointer cells final :=
  segment.frame (fun _ member => Store.elements_release_of_ne (ne_of_outside outside member))

/-- The items of a segment lie on the path over its elements, by induction on it. -/
theorem path (segment : Segment store pointer cells final)
    : Path store pointer (cells.map Prod.snd) final := by
  induction segment with
  | stop => exact .stop
  | step found _ ih => exact .step found ih

/-- Where an object is made there was none. -/
theorem not_mem_place (segment : Segment store pointer cells final) (allocator : Allocator α)
    : allocator.place store ∉ cells.map Prod.fst := by
  intro member
  obtain ⟨cell, inside, same⟩ := List.mem_map.mp member
  obtain ⟨element, found, _⟩ := segment.exists_element inside
  rw [same, allocator.unused store] at found
  cases found

/-- A change of the last link leads elsewhere. -/
theorem relink (segment : Segment store pointer (cells ++ [cell]) final)
    (once : cell.1 ∉ cells.map Prod.fst) (next : Option Address)
    : Segment (store.link cell.1 next) pointer (cells ++ [cell]) next := by
  obtain ⟨middle, first, second⟩ := segment.split
  obtain ⟨rfl, element, found, holds, _⟩ := of_cons second
  exact (first.frame_link once next).append
    (cons (Store.elements_link found next) holds .stop)

end Segment

/-- The members of a list agree with the elements that it is made of. -/
structure Header.Owns (list : Header) (store : Store α) (cells : List (Address × α)) : Prop where
  linked : Segment store list.first cells none
  distinct : (cells.map Prod.fst).Nodup
  ended : list.last = cells.getLast?.map Prod.fst
  counted : list.numInList = cells.length

/-- The elements of a list hold its items: its last pointer leads to the last of them. -/
theorem Header.Owns.holds {list : Header} {store : Store α} {cells : List (Address × α)}
    (owns : list.Owns store cells)
    : list.Holds store (cells.map Prod.snd) := by
  refine ⟨owns.linked.path, ?_, by rw [owns.counted, List.length_map]⟩
  obtain rfl | ⟨init, ending, rfl⟩ := List.eq_nil_or_concat' cells
  · exact owns.ended
  · have some : (init ++ [ending]).map Prod.snd ≠ [] := by simp
    obtain ⟨middle, first, last⟩ := owns.linked.split
    have ended : list.last = middle := by
      rw [owns.ended, List.getLast?_concat, last.of_cons.1]
      rfl
    rw [if_neg some, List.map_append, List.map_singleton, List.dropLast_concat, ended]
    exact first.path

/-- A list, and a new element that is not in it yet. -/
structure Header.Beside (list : Header) (store : Store α) (cells : List (Address × α))
    (cell : Address × α)
    : Prop where
  owns : list.Owns store cells
  outside : cell.1 ∉ cells.map Prod.fst
  made
    : ∃ element, store.elements cell.1 = some element ∧ element.item = cell.2 ∧ element.next = none

-----------------------------------------------------------------------------------------
-- Walks
-----------------------------------------------------------------------------------------

section Walks

variable [DecidableEq α] {store : Store α} {pointer : Option Address} {list : Header}
  {cells : List (Address × α)} {item : α} {fuel : Nat}

/-- `IsInList` looks at every element up to the item, by induction on the segment. -/
theorem run_isInListFrom (segment : Segment store pointer cells none)
    (enough : cells.length < fuel)
    : (isInListFrom item fuel pointer).run store
      = (.ok (decide (item ∈ cells.map Prod.snd)), store) := by
  induction cells generalizing pointer fuel with
  | nil =>
      cases segment
      cases fuel with
      | zero => exact absurd enough (Nat.not_lt_zero _)
      | succ fuel => rfl
  | cons cell cells ih =>
      obtain ⟨rfl, element, found, holds, linked⟩ := segment.of_cons
      cases fuel with
      | zero => exact absurd enough (Nat.not_lt_zero _)
      | succ fuel =>
          rw [isInListFrom, run_bind_ok (run_read found), holds, List.map_cons]
          by_cases here : item = cell.2
          · rw [if_pos here, decide_eq_true (here ▸ List.mem_cons_self ..)]
            rfl
          · rw [if_neg here, ih linked (Nat.lt_of_succ_lt_succ enough)]
            simp [here]

/-- The end of an insertion counts the item and finds it in the list. -/
theorem run_counted (segment : Segment store list.first cells none)
    (member : item ∈ cells.map Prod.snd) (enough : cells.length < fuel)
    : (counted fuel item list).run store
      = (.ok { list with numInList := list.numInList + 1 }, store) := by
  have present
      : (isInList fuel item { list with numInList := list.numInList + 1 }).run store
        = (.ok true, store) := by
    rw [← decide_eq_true member]
    exact run_isInListFrom segment enough
  rw [counted, run_bind_ok present, run_bind_ok (run_assert_of rfl _ _), run_pure]

/-- Every insertion starts with a new element and the check that its item is new. -/
theorem run_started {next : Option Address → Routine Fault (Store α) Header}
    (owns : list.Owns store cells) (allocator : Allocator α) (absent : item ∉ cells.map Prod.snd)
    (enough : cells.length < fuel)
    : ∃ built : Store α,
        list.Beside built cells (allocator.place store, item)
        ∧ store.Spares built ((allocator.place store, item) :: cells)
        ∧ (do
            let element ← new allocator item
            let present ← isInList fuel item list
            assert (present = false) .assertion
            next element).run store
          = (next (some (allocator.place store))).run built := by
  have outside := owns.linked.not_mem_place allocator
  have linked : Segment (store.construct item (allocator.place store)) list.first cells none :=
    owns.linked.frame (fun _ member =>
      Store.elements_construct_of_ne (Segment.ne_of_outside outside member) item)
  have absent
      : (isInList fuel item list).run (store.construct item (allocator.place store))
        = (.ok false, store.construct item (allocator.place store)) := by
    rw [← decide_eq_false absent]
    exact run_isInListFrom linked enough
  refine ⟨store.construct item (allocator.place store), ⟨⟨linked, owns.distinct, owns.ended,
    owns.counted⟩, outside, _, Store.elements_construct _ _ _, rfl, rfl⟩,
    .construct store (allocator.place store, item) cells, ?_⟩
  have made
      : (new allocator item).run store
        = (.ok (some (allocator.place store)),
            store.construct item (allocator.place store)) :=
    rfl
  rw [run_bind_ok made, run_bind_ok absent, run_bind_ok (run_assert_of rfl _ _)]

end Walks

-----------------------------------------------------------------------------------------
-- Insertions
-----------------------------------------------------------------------------------------

section Insertions

variable {store : Store α} {list : Header} {cells left right : List (Address × α)}
  {cell : Address × α} {fuel : Nat}

theorem Header.Owns.isEmpty_iff (owns : list.Owns store cells)
    : list.isEmpty = true ↔ cells = [] := by
  rw [isEmpty, owns.counted, beq_iff_eq, Int.natCast_eq_zero, List.length_eq_zero_iff]

/-- The new element gets a place between two others. -/
theorem Header.Beside.between {earlier : Address × α}
    (beside : list.Beside store (left ++ [earlier] ++ right) cell) {next : Option Address}
    (follows : Segment store next right none) (some : right ≠ [])
    : ({ list with numInList := list.numInList + 1 } : Header).Owns
        ((store.link cell.1 next).link earlier.1 (.some cell.1))
        (left ++ [earlier] ++ cell :: right) := by
  obtain ⟨made, found, holds, _⟩ := beside.made
  have distinct := beside.owns.distinct
  have outside := beside.outside
  rw [List.map_append] at distinct outside
  obtain ⟨notLeft, notRight⟩ := not_or.mp (List.mem_append.not.mp outside)
  obtain ⟨lefts, rights, apart⟩ := List.nodup_append'.mp distinct
  have inLeft : earlier.1 ∈ (left ++ [earlier]).map Prod.fst := by simp
  have other : cell.1 ≠ earlier.1 := fun same => notLeft (same ▸ inLeft)
  have once : earlier.1 ∉ left.map Prod.fst := by
    intro member
    rw [List.map_append, List.nodup_append'] at lefts
    exact lefts.2.2 member (List.mem_singleton_self _)
  obtain ⟨middle, first, second⟩ := beside.owns.linked.split
  have relinked := (first.frame_link notLeft next).relink once (.some cell.1)
  have kept
      : Segment ((store.link cell.1 next).link earlier.1 (.some cell.1)) next right none :=
    (follows.frame_link notRight _).frame_link (fun member => apart inLeft member) _
  have here
      : ((store.link cell.1 next).link earlier.1 (.some cell.1)).elements cell.1
        = .some { made with next } :=
    (Store.elements_link_of_ne other _).trans (Store.elements_link found _)
  refine ⟨relinked.append (.cons here holds kept), ?_, ?_, ?_⟩
  · rw [List.map_append, List.map_cons, List.nodup_append', List.nodup_cons]
    refine ⟨lefts, ⟨notRight, rights⟩, fun address member same => ?_⟩
    rcases List.mem_cons.mp same with rfl | later
    · exact notLeft member
    · exact apart member later
  · change list.last = _
    rw [beside.owns.ended, List.getLast?_append_of_ne_nil _ some,
      List.getLast?_append_of_ne_nil _ (List.cons_ne_nil _ _), List.getLast?_cons_of_ne_nil some]
  · change list.numInList + 1 = _
    rw [beside.owns.counted]
    simp [Int.add_comm, Int.add_left_comm]

section Sorted

variable {compare : α → α → Except Fault Int} {order : α → α → Int} {front : Address × α}
  {element : Option Address} {item : α}

/-- One turn of the loop of `Insert` looks at the element after the one that it stands on. -/
theorem run_insertFrom_succ {next : Address × α}
    (segment : Segment store (some front.1) (front :: next :: cells) none)
    (compared : compare item next.2 = .ok (order item next.2)) (fuel : Nat)
    : (insertFrom compare item element (fuel + 1) (some front.1)).run store
      = (if order item next.2 < 0 then do
            setNext element (some next.1)
            setNext (some front.1) element
            return true
          else insertFrom compare item element fuel (some next.1)
          : Routine Fault (Store α) Bool).run store := by
  obtain ⟨_, here, found, _, linked⟩ := segment.of_cons
  obtain ⟨after, following, there, holds, _⟩ := linked.of_cons
  have ordered
      : (lift (compare item following.item) : Routine Fault (Store α) Int).run store
        = (.ok (order item next.2), store) := by
    rw [holds, compared]
    rfl
  rw [insertFrom, run_bind_ok (run_read found), after, if_neg (by simp),
    run_bind_ok (run_read there), run_bind_ok ordered]

theorem Segment.tail {next : Address × α} {pointer : Option Address}
    (segment : Segment store pointer (front :: next :: cells) none)
    : Segment store (some next.1) (next :: cells) none := by
  obtain ⟨_, here, _, _, linked⟩ := segment.of_cons
  rwa [linked.of_cons.1] at linked

/-- The loop of `Insert` ends at the end of the list when no element stops it, by induction on
the elements.
-/
theorem run_insertFrom_end (element : Option Address)
    (segment : Segment store (some front.1) (front :: cells) none)
    (compared : ∀ other ∈ cells, compare item other.2 = .ok (order item other.2))
    (passes : ∀ other ∈ cells, ¬order item other.2 < 0) (enough : cells.length < fuel)
    : (insertFrom compare item element fuel (some front.1)).run store = (.ok false, store) := by
  induction cells generalizing front fuel with
  | nil =>
      obtain ⟨_, here, found, _, linked⟩ := segment.of_cons
      generalize next : here.next = pointer at linked
      cases linked
      cases fuel with
      | zero => exact absurd enough (Nat.not_lt_zero _)
      | succ fuel =>
          rw [insertFrom, run_bind_ok (run_read found), next]
          rfl
  | cons next cells ih =>
      cases fuel with
      | zero => exact absurd enough (Nat.not_lt_zero _)
      | succ fuel =>
          rw [run_insertFrom_succ segment (compared next (List.mem_cons_self ..)),
            if_neg (passes next (List.mem_cons_self ..))]
          exact ih segment.tail
            (fun other member => compared other (List.mem_cons_of_mem _ member))
            (fun other member => passes other (List.mem_cons_of_mem _ member))
            (Nat.lt_of_succ_lt_succ enough)

/-- The loop of `Insert` places the new element before the first one that stops it, by induction
on the elements before that.
-/
theorem run_insertFrom_between {address : Address} {stop : Address × α} {made : Element α}
    (segment : Segment store (some front.1) (front :: (cells ++ stop :: right)) none)
    (compared
      : ∀ other ∈ cells ++ stop :: right, compare item other.2 = .ok (order item other.2))
    (passes : ∀ other ∈ cells, ¬order item other.2 < 0) (stops : order item stop.2 < 0)
    (created : store.elements address = some made)
    (outside : address ∉ (front :: cells).map Prod.fst) (enough : cells.length < fuel)
    : ∃ before earlier,
        front :: cells = before ++ [earlier]
        ∧ (insertFrom compare item (some address) fuel (some front.1)).run store
          = (.ok true, (store.link address (some stop.1)).link earlier.1 (some address)) := by
  induction cells generalizing front fuel with
  | nil =>
      obtain ⟨_, here, found, _, _⟩ := segment.of_cons
      cases fuel with
      | zero => exact absurd enough (Nat.not_lt_zero _)
      | succ fuel =>
          have apart : front.1 ≠ address := fun same => outside (by simp [same])
          have kept : (store.link address (some stop.1)).elements front.1 = some here :=
            (Store.elements_link_of_ne apart _).trans found
          refine ⟨[], front, rfl, ?_⟩
          rw [run_insertFrom_succ segment (compared stop (List.mem_cons_self ..)), if_pos stops,
            run_bind_ok (run_setNext created _),
            run_bind_ok (run_setNext kept _), run_pure]
  | cons next cells ih =>
      cases fuel with
      | zero => exact absurd enough (Nat.not_lt_zero _)
      | succ fuel =>
          obtain ⟨before, earlier, same, placed⟩ :=
            ih segment.tail
              (fun other member => compared other (List.mem_cons_of_mem _ member))
              (fun other member => passes other (List.mem_cons_of_mem _ member))
              (fun member => outside (List.mem_cons_of_mem _ member))
              (Nat.lt_of_succ_lt_succ enough)
          refine ⟨front :: before, earlier, congrArg (front :: ·) same, ?_⟩
          rw [run_insertFrom_succ segment (compared next (List.mem_cons_self ..)),
            if_neg (passes next (List.mem_cons_self ..))]
          exact placed

end Sorted

/-- The items after an element is inserted by them. -/
theorem map_orderedInsert (order : α → α → Int) (cell : Address × α)
    (cells : List (Address × α))
    : (cells.orderedInsert (fun left right => order left.2 right.2 < 0) cell).map Prod.snd
      = (cells.map Prod.snd).orderedInsert (order · · < 0) cell.2 :=
  List.map_orderedInsert _ _ Prod.snd cells _ (fun _ _ => .rfl) (fun _ _ => .rfl)

variable [DecidableEq α]

namespace Header.Beside

/-- The new element becomes the only one. -/
theorem alone (beside : list.Beside store [] cell) (enough : 1 < fuel)
    : ∃ longer : Header,
        (counted fuel cell.2 { list with first := some cell.1, last := some cell.1 }).run store
          = (.ok longer, store)
        ∧ longer.Owns store [cell] := by
  obtain ⟨element, found, holds, ending⟩ := beside.made
  have linked : Segment store (some cell.1) [cell] none :=
    .cons found holds (ending ▸ .stop)
  refine ⟨_, run_counted linked (by simp) enough, linked, List.pairwise_singleton .., rfl, ?_⟩
  change list.numInList + 1 = 1
  rw [beside.owns.counted]
  rfl

/-- The new element gets a place before all others. -/
theorem before (beside : list.Beside store cells cell) (some : cells ≠ [])
    (enough : cells.length + 1 < fuel)
    : ∃ (longer : Header) (after : Store α),
        (do
          setNext (.some cell.1) list.first
          counted fuel cell.2 { list with first := .some cell.1 }).run store
          = (.ok longer, after)
        ∧ longer.Owns after (cell :: cells)
        ∧ store.Spares after (cell :: cells) := by
  obtain ⟨element, found, holds, ending⟩ := beside.made
  have linked : Segment (store.link cell.1 list.first) (.some cell.1) (cell :: cells) none :=
    .cons (Store.elements_link found _) holds (beside.owns.linked.frame_link beside.outside _)
  rw [run_bind_ok (run_setNext found _)]
  refine ⟨_, _, run_counted linked (by simp) enough, ⟨linked,
    List.nodup_cons.mpr ⟨beside.outside, beside.owns.distinct⟩, ?_, ?_⟩,
    (Store.Spares.refl _ _).link (List.mem_cons_self ..) _⟩
  · change list.last = _
    rw [List.getLast?_cons_of_ne_nil some, beside.owns.ended]
  · change list.numInList + 1 = _
    rw [beside.owns.counted, List.length_cons, Int.natCast_succ]

/-- The new element gets a place after all others: the last link leads to it. -/
theorem behind (beside : list.Beside store cells cell) (some : cells ≠ [])
    (enough : cells.length + 1 < fuel)
    : ∃ (longer : Header) (after : Store α),
        (do
          setNext list.last (.some cell.1)
          counted fuel cell.2 { list with last := .some cell.1 }).run store
          = (.ok longer, after)
        ∧ longer.Owns after (cells ++ [cell])
        ∧ store.Spares after (cell :: cells) := by
  obtain ⟨init, ending, rfl⟩ := (List.eq_nil_or_concat' cells).resolve_left some
  obtain ⟨made, found, holds, stops⟩ := beside.made
  obtain ⟨element, last, _⟩ := beside.owns.linked.exists_element (List.mem_append_right init
    (List.mem_singleton_self ending))
  have distinct := beside.owns.distinct
  have outside := beside.outside
  rw [List.map_append] at distinct outside
  obtain ⟨_, _, apart⟩ := List.nodup_append'.mp distinct
  have once : ending.1 ∉ init.map Prod.fst := fun member =>
    apart member (List.mem_singleton_self _)
  have other : cell.1 ≠ ending.1 := fun same =>
    outside (List.mem_append_right _ (same ▸ List.mem_singleton_self _))
  have linked
      : Segment (store.link ending.1 (.some cell.1)) list.first (init ++ [ending] ++ [cell])
          none :=
    (beside.owns.linked.relink once _).append
      (.cons ((Store.elements_link_of_ne other _).trans found) holds (stops ▸ .stop))
  have ended : list.last = .some ending.1 := by
    rw [beside.owns.ended, List.getLast?_concat]
    rfl
  rw [ended, run_bind_ok (run_setNext last _)]
  refine ⟨_, _, run_counted linked (by simp) (by simpa using enough), ⟨linked, ?_, ?_, ?_⟩,
    (Store.Spares.refl _ _).link (by simp) _⟩
  · rw [List.map_append, List.nodup_append']
    refine ⟨beside.owns.distinct, List.pairwise_singleton .., fun _ member same => ?_⟩
    obtain rfl := List.mem_singleton.mp same
    exact beside.outside member
  · rw [List.getLast?_concat]
    rfl
  · change list.numInList + 1 = _
    rw [beside.owns.counted]
    simp [Int.add_assoc]

end Header.Beside

/-- Append links a new cell behind the last one, by cases on whether the list is empty. -/
theorem run_append (owns : list.Owns store cells) (allocator : Allocator α) {item : α}
    (absent : item ∉ cells.map Prod.snd) (enough : cells.length + 1 < fuel)
    : ∃ longer after,
        (append allocator fuel item list).run store = (.ok longer, after)
        ∧ longer.Owns after (cells ++ [(allocator.place store, item)])
        ∧ store.Spares after ((allocator.place store, item) :: cells) := by
  obtain ⟨built, beside, spares, started⟩ :=
    run_started owns allocator absent (Nat.lt_of_succ_lt enough)
  rw [append, started]
  by_cases empty : list.isEmpty = true
  · obtain rfl := owns.isEmpty_iff.mp empty
    obtain ⟨longer, placed, owned⟩ := beside.alone enough
    exact ⟨longer, built, by rw [if_pos empty]; exact placed, owned, spares⟩
  · rw [if_neg empty]
    obtain ⟨longer, after, placed, owned, others⟩ :=
      beside.behind (fun none => empty (owns.isEmpty_iff.mpr none)) enough
    exact ⟨longer, after, placed, owned, spares.trans others⟩

/-- Prepend links a new cell before the first one, by cases on whether the list is empty. -/
theorem run_prepend (owns : list.Owns store cells) (allocator : Allocator α) {item : α}
    (absent : item ∉ cells.map Prod.snd) (enough : cells.length + 1 < fuel)
    : ∃ longer after,
        (prepend allocator fuel item list).run store = (.ok longer, after)
        ∧ longer.Owns after ((allocator.place store, item) :: cells) := by
  obtain ⟨built, beside, _, started⟩ :=
    run_started owns allocator absent (Nat.lt_of_succ_lt enough)
  rw [prepend, started]
  by_cases empty : list.isEmpty = true
  · obtain rfl := owns.isEmpty_iff.mp empty
    obtain ⟨longer, placed, owned⟩ := beside.alone enough
    exact ⟨longer, built, by rw [if_pos empty]; exact placed, owned⟩
  · rw [if_neg empty]
    obtain ⟨longer, after, placed, owned, _⟩ :=
      beside.before (fun none => empty (owns.isEmpty_iff.mpr none)) enough
    exact ⟨longer, after, placed, owned⟩

/-- `Insert` places an item before the first element that it compares below. -/
theorem run_insert {compare : α → α → Except Fault Int} {order : α → α → Int}
    (owns : list.Owns store cells) (allocator : Allocator α) {item : α}
    (compared : ∀ other ∈ cells, compare item other.2 = .ok (order item other.2))
    (absent : item ∉ cells.map Prod.snd) (enough : cells.length + 1 < fuel)
    : ∃ longer after,
        (insert allocator fuel item compare list).run store = (.ok longer, after)
        ∧ longer.Owns after
            (cells.orderedInsert (fun left right => order left.2 right.2 < 0)
              (allocator.place store, item))
        ∧ store.Spares after ((allocator.place store, item) :: cells) := by
  obtain ⟨built, beside, spares, started⟩ :=
    run_started owns allocator absent (Nat.lt_of_succ_lt enough)
  rw [insert, started]
  cases cells with
  | nil =>
      obtain ⟨longer, placed, owned⟩ := beside.alone enough
      rw [if_pos (owns.isEmpty_iff.mpr rfl)]
      exact ⟨longer, built, placed, owned, spares⟩
  | cons front cells =>
      obtain ⟨first, element, found, holds, _⟩ := beside.owns.linked.of_cons
      have ordered
          : (lift (compare item element.item) : Routine Fault (Store α) Int).run built
            = (.ok (order item front.2), built) := by
        rw [holds, compared front (List.mem_cons_self ..)]
        rfl
      have others (other : Address × α) (member : other ∈ cells)
          : compare item other.2 = .ok (order item other.2) :=
        compared other (List.mem_cons_of_mem _ member)
      have filled : ¬list.isEmpty = true := fun empty =>
        List.cons_ne_nil _ _ (owns.isEmpty_iff.mp empty)
      have start : (read list.first).run built = (.ok element, built) :=
        first ▸ run_read found
      rw [if_neg filled, run_bind_ok start, run_bind_ok ordered]
      by_cases starts : order item front.2 < 0
      · rw [if_pos starts, List.orderedInsert_cons, if_pos starts]
        obtain ⟨longer, after, placed, owned, others⟩ :=
          beside.before (List.cons_ne_nil _ _) enough
        exact ⟨longer, after, placed, owned, spares.trans others⟩
      · rw [if_neg starts, List.orderedInsert_cons, if_neg starts]
        have linked := first ▸ beside.owns.linked
        have short : cells.length < fuel :=
          lt_trans (Nat.lt_succ_self _) (Nat.lt_of_succ_lt enough)
        rcases Insertion.orderedInsert_cases (fun left right => order left.2 right.2 < 0)
            (allocator.place store, item) cells with
          ⟨passes, last⟩ | ⟨left, stop, right, rfl, passes, stops, placed⟩
        · have ran := run_insertFrom_end (some (allocator.place store)) linked others passes short
          rw [← first] at ran
          rw [run_bind_ok ran, last, if_neg Bool.false_ne_true]
          obtain ⟨longer, after, placed, owned, others⟩ :=
            beside.behind (List.cons_ne_nil _ _) enough
          exact ⟨longer, after, placed, owned, spares.trans others⟩
        · obtain ⟨made, created, _, _⟩ := beside.made
          have outside : allocator.place store ∉ (front :: left).map Prod.fst := by
            intro member
            refine beside.outside ?_
            rw [← List.cons_append, List.map_append]
            exact List.mem_append_left _ member
          have few : left.length < fuel := by
            rw [List.length_append] at short
            exact lt_of_le_of_lt (Nat.le_add_right _ _) short
          obtain ⟨before, earlier, same, ran⟩ :=
            run_insertFrom_between linked others passes stops created outside few
          rw [← first] at ran
          have first : earlier.1 ∈ ((allocator.place store, item) :: front
              :: (left ++ stop :: right)).map Prod.fst := by
            rw [← List.cons_append, same]
            simp
          have kept := spares.trans (((Store.Spares.refl _ _).link (List.mem_cons_self ..)
            (some stop.1)).link first (some (allocator.place store)))
          rw [run_bind_ok ran, placed, ← List.cons_append, same]
          refine ⟨_, _, rfl, Header.Beside.between ?_ ?_ (List.cons_ne_nil _ _), kept⟩
          · rwa [← same]
          · rw [← List.cons_append, same] at linked
            obtain ⟨_, _, follows⟩ := linked.split
            exact follows.of_cons.1 ▸ follows

end Insertions

end Nachos.LinkedList
