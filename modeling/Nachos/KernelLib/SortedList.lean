import Mathlib.Data.List.Sort
import Nachos.Fault
import Nachos.Lib.Insertion

/-! Lists that stay sorted by a comparison, with each new item after those that compare
equal to it.
-/

namespace Nachos

/-- A comparison by the sign of its result: neither below nor above counts as equal. -/
class SignOrder {α : Type} (compare : α → α → Int) : Prop where
  reverse : ∀ {left right}, ¬compare left right < 0 → compare right left ≤ 0
  trans
    : ∀ {left middle right},
      compare left middle ≤ 0 → compare middle right ≤ 0 → compare left right ≤ 0

/-- A `SortedList`. -/
structure SortedList {α : Type} (compare : α → α → Int) where
  items : List α
  sorted : items.Pairwise (fun left right => compare left right ≤ 0)

namespace SortedList

variable {α : Type} {compare : α → α → Int}

def empty : SortedList compare where
  items := []
  sorted := .nil

def front? (list : SortedList compare) : Option α := list.items.head?

/-- The list after its first element. -/
def rest (list : SortedList compare) : SortedList compare where
  items := list.items.tail
  sorted := list.sorted.sublist (List.tail_sublist _)

def removeFront (list : SortedList compare) : Except Fault (α × SortedList compare) :=
  match list.front? with
  | none => .error .assertion
  | some front => .ok (front, list.rest)

/-- The list with the item before the first element that it compares below. -/
def inserted [order : SignOrder compare] (item : α) (list : SortedList compare)
    : SortedList compare where
  items := list.items.orderedInsert (fun left right => compare left right < 0) item
  sorted := by
    have : IsTrans α (fun left right => compare left right ≤ 0) :=
      ⟨fun _ _ _ => order.trans⟩
    refine Insertion.pairwise_orderedInsert list.sorted ?_ ?_
    · exact fun _ _ below => le_of_lt below
    · exact fun _ _ above => order.reverse above

def insert [DecidableEq α] [SignOrder compare] (item : α) (list : SortedList compare)
    : Except Fault (SortedList compare) :=
  if item ∈ list.items then .error .assertion else .ok (list.inserted item)

theorem items_of_front? {list : SortedList compare} {front : α}
    (first : list.front? = some front)
    : list.items = front :: list.rest.items := by
  obtain ⟨items, sorted⟩ := list
  cases items with
  | nil => simp [front?] at first
  | cons head tail => simp_all [front?, rest]

/-- What is removed is the front. -/
theorem of_removeFront {list : SortedList compare} {front : α} {rest : SortedList compare}
    (removed : list.removeFront = .ok (front, rest))
    : list.front? = some front := by
  unfold removeFront at removed
  split at removed
  · exact nomatch removed
  · rename_i first
    injection removed with same
    rw [first, (Prod.mk.inj same).1]

theorem removeFront_of {list : SortedList compare} {front : α}
    (first : list.front? = some front)
    : list.removeFront = .ok (front, list.rest) := by
  rw [removeFront, first]

theorem items_of_front?_none {list : SortedList compare} (empty : list.front? = none)
    : list.items = [] :=
  List.head?_eq_none_iff.mp empty

/-- Nothing in the list compares below its first element. -/
theorem front?_le {list : SortedList compare} {front other : α}
    (reflexive : ∀ item, compare item item ≤ 0) (first : list.front? = some front)
    (member : other ∈ list.items)
    : compare front other ≤ 0 := by
  have sorted := list.sorted
  rw [items_of_front? first] at sorted member
  rcases List.mem_cons.mp member with rfl | later
  · exact reflexive other
  · exact (List.pairwise_cons.mp sorted).1 other later

theorem insert_of [DecidableEq α] [SignOrder compare] {item : α} {list : SortedList compare}
    (absent : item ∉ list.items)
    : list.insert item = .ok (list.inserted item) :=
  if_neg absent

theorem inserted_perm [SignOrder compare] (item : α) (list : SortedList compare)
    : (list.inserted item).items.Perm (item :: list.items) :=
  List.perm_orderedInsert _ item list.items

end SortedList

end Nachos
