import Mathlib.Logic.Function.Basic
import Mathlib.Order.Lattice
import Nachos.Fault
import Nachos.Lib.Routine

/-! `List`, `SortedList` and `ListIterator` over a heap of list elements. A deleted element
leaves the heap, and a later `new` may use its address again.
-/

namespace Nachos.LinkedList
open Routines Routine

/-- The address of a list element. -/
abbrev Address := Nat

/-- A `ListElement`. The number tells apart the elements that live at one address in turn. -/
structure Element (α : Type) where
  item : α
  next : Option Address
  object : Nat

/-- The elements that exist. `objects` numbers them as they are made, and `stale` records that
an iterator read the link of an element other than the one that it stood on.
-/
structure Store (α : Type) where
  elements : Address → Option (Element α)
  objects : Nat
  stale : Bool
  limit : Address
  numbered
    : ∀ {address element}, elements address = some element → element.object < objects
  bounded : ∀ {address}, limit ≤ address → elements address = none

/-- The choice of an address by `new`: any that is not in use. -/
structure Allocator (α : Type) where
  place : Store α → Address
  unused : ∀ store : Store α, store.elements (place store) = none

/-- The members of a `List`. -/
structure Header where
  first : Option Address
  last : Option Address
  numInList : Int
  deriving DecidableEq

def Header.isEmpty (list : Header) : Bool := list.numInList == 0

/-- A `ListIterator`, with the number of the element that it stands on. -/
structure ListIterator where
  current : Option Address
  object : Nat
  deriving DecidableEq

def ListIterator.isDone (it : ListIterator) : Bool := it.current.isNone

variable {α : Type}

-----------------------------------------------------------------------------------------
-- The heap
-----------------------------------------------------------------------------------------

namespace Store

/-- The heap before any element is made. -/
def empty : Store α where
  elements := fun _ => none
  objects := 0
  stale := false
  limit := 0
  numbered := fun found => nomatch found
  bounded := fun _ => rfl

/-- The constructor of `ListElement` at an address. -/
def construct (store : Store α) (item : α) (address : Address) : Store α where
  elements :=
    Function.update store.elements address (some { item, next := none, object := store.objects })
  objects := store.objects + 1
  stale := store.stale
  limit := max store.limit (address + 1)
  numbered := by
    intro other element found
    by_cases same : other = address
    · subst same
      rw [Function.update_self] at found
      cases found
      exact Nat.lt_succ_self _
    · rw [Function.update_of_ne same] at found
      exact Nat.lt_succ_of_lt (store.numbered found)
  bounded := by
    intro other above
    have apart : other ≠ address := by
      rintro rfl
      exact absurd (le_trans (le_max_right ..) above) (Nat.not_succ_le_self _)
    rw [Function.update_of_ne apart]
    exact store.bounded (le_trans (le_max_left ..) above)

/-- Change the link of an element. -/
def link (store : Store α) (address : Address) (next : Option Address) : Store α where
  elements :=
    Function.update store.elements address
      ((store.elements address).map (fun element => { element with next }))
  objects := store.objects
  stale := store.stale
  limit := store.limit
  numbered := by
    intro other element found
    by_cases same : other = address
    · subst same
      rw [Function.update_self] at found
      obtain ⟨earlier, exist, rfl⟩ := Option.map_eq_some_iff.mp found
      exact @Store.numbered _ store other earlier exist
    · rw [Function.update_of_ne same] at found
      exact store.numbered found
  bounded := by
    intro other above
    by_cases same : other = address
    · subst same
      rw [Function.update_self, store.bounded above]
      rfl
    · rw [Function.update_of_ne same]
      exact store.bounded above

/-- The element at an address is gone. -/
def release (store : Store α) (address : Address) : Store α where
  elements := Function.update store.elements address none
  objects := store.objects
  stale := store.stale
  limit := store.limit
  numbered := by
    intro other element found
    by_cases same : other = address
    · subst same
      rw [Function.update_self] at found
      cases found
    · rw [Function.update_of_ne same] at found
      exact store.numbered found
  bounded := by
    intro other above
    by_cases same : other = address
    · subst same
      exact Function.update_self ..
    · rw [Function.update_of_ne same]
      exact store.bounded above

def markStale (store : Store α) : Store α := { store with stale := true }

/-- Dereference a pointer. -/
def read (store : Store α) : Option Address → Except Fault (Element α)
  | none => .error .nullPointer
  | some address =>
      match store.elements address with
      | some element => .ok element
      | none => .error .danglingPointer

/-- An iterator whose `current` is set to a pointer. -/
def iterator (store : Store α) (current : Option Address) : ListIterator :=
  { current, object := (current.bind store.elements).elim 0 Element.object }

end Store

/-- The allocator that takes the first address above all elements. -/
def Allocator.fresh : Allocator α :=
  { place := Store.limit, unused := fun store => store.bounded (le_refl _) }

/-- `new ListElement<T>(item)`. -/
def new (allocator : Allocator α) (item : α) : Routine Fault (Store α) (Option Address) := do
  let store ← get
  set (store.construct item (allocator.place store))
  return some (allocator.place store)

def read (pointer : Option Address) : Routine Fault (Store α) (Element α) := do
  let store ← get
  lift (store.read pointer)

/-- `pointer->next = next`. -/
def setNext (pointer next : Option Address) : Routine Fault (Store α) Unit := do
  let store ← get
  match pointer with
  | none => throw .nullPointer
  | some address =>
      if (store.elements address).isNone then throw .danglingPointer
      else set (store.link address next)

/-- `delete pointer`, which does nothing to a null pointer. -/
def delete (pointer : Option Address) : Routine Fault (Store α) Unit := do
  let store ← get
  match pointer with
  | none => return ()
  | some address =>
      if (store.elements address).isNone then throw .doubleDelete
      else set (store.release address)

-----------------------------------------------------------------------------------------
-- Lists
-----------------------------------------------------------------------------------------

section Lists

variable [DecidableEq α] (allocator : Allocator α) (fuel : Nat) (item : α)

/-- The loop of `IsInList` from a pointer. -/
def isInListFrom (item : α) : Nat → Option Address → Routine Fault (Store α) Bool
  | 0, _ => throw .endless
  | _ + 1, none => return false
  | fuel + 1, some ptr => do
      let element ← read (some ptr)
      if item = element.item then return true
      else isInListFrom item fuel element.next

def isInList (list : Header) : Routine Fault (Store α) Bool := isInListFrom item fuel list.first

/-- The end of `Append` and `Insert`: one more element, which must be found. -/
def counted (list : Header) : Routine Fault (Store α) Header := do
  let longer := { list with numInList := list.numInList + 1 }
  let present ← isInList fuel item longer
  assert (present = true) .assertion
  return longer

def append (list : Header) : Routine Fault (Store α) Header := do
  let element ← new allocator item
  let present ← isInList fuel item list
  assert (present = false) .assertion
  if list.isEmpty then counted fuel item { list with first := element, last := element }
  else
    setNext list.last element
    counted fuel item { list with last := element }

def prepend (list : Header) : Routine Fault (Store α) Header := do
  let element ← new allocator item
  let present ← isInList fuel item list
  assert (present = false) .assertion
  if list.isEmpty then counted fuel item { list with first := element, last := element }
  else
    setNext element list.first
    counted fuel item { list with first := element }

/-- The loop of `Insert` from the element at `ptr`: whether it placed the new element. -/
def insertFrom (compare : α → α → Except Fault Int) (item : α) (element : Option Address)
    : Nat → Option Address → Routine Fault (Store α) Bool
  | 0, _ => throw .endless
  | fuel + 1, ptr => do
      let here ← read ptr
      if here.next.isNone then return false
      let following ← read here.next
      let order ← lift (compare item following.item)
      if order < 0 then
        setNext element here.next
        setNext ptr element
        return true
      else insertFrom compare item element fuel here.next

/-- `SortedList<T>::Insert`; an element placed inside the list is not looked for again. -/
def insert (compare : α → α → Except Fault Int) (list : Header)
    : Routine Fault (Store α) Header := do
  let element ← new allocator item
  let present ← isInList fuel item list
  assert (present = false) .assertion
  if list.isEmpty then counted fuel item { list with first := element, last := element }
  else
    let front ← read list.first
    let order ← lift (compare item front.item)
    if order < 0 then
      setNext element list.first
      counted fuel item { list with first := element }
    else
      let placed ← insertFrom compare item element fuel list.first
      if placed then return { list with numInList := list.numInList + 1 }
      else
        setNext list.last element
        counted fuel item { list with last := element }

def removeFront (list : Header) : Routine Fault (Store α) (α × Header) := do
  assert (list.isEmpty = false) .assertion
  let element ← read list.first
  let shorter : Header :=
    if list.first = list.last then
      { first := none, last := none, numInList := list.numInList - 1 }
    else { list with first := element.next, numInList := list.numInList - 1 }
  delete list.first
  return (element.item, shorter)

/-- The loop of `Remove`, which asserts that it finds the item. -/
def removeFrom (item : α) (list : Header)
    : Nat → Option Address → Option Address → Routine Fault (Store α) Header
  | 0, _, _ => throw .endless
  | _ + 1, _, none => throw .assertion
  | fuel + 1, prev, some ptr => do
      let element ← read (some ptr)
      if item = element.item then
        setNext prev element.next
        let last := if element.next.isNone then prev else list.last
        delete (some ptr)
        return { list with last, numInList := list.numInList - 1 }
      else removeFrom item list fuel (some ptr) element.next

/-- `Remove` between its first assertion and its last. -/
def removeFound (list : Header) : Routine Fault (Store α) Header := do
  let front ← read list.first
  if item = front.item then
    let (removed, shorter) ← removeFront list
    assert (item = removed) .assertion
    return shorter
  else removeFrom item list fuel list.first front.next

def remove (list : Header) : Routine Fault (Store α) Header := do
  let present ← isInList fuel item list
  assert (present = true) .assertion
  let shorter ← removeFound fuel item list
  let again ← isInList fuel item shorter
  assert (again = false) .assertion
  return shorter

end Lists

-----------------------------------------------------------------------------------------
-- Sanity checks
-----------------------------------------------------------------------------------------

section SanityChecks

variable (fuel : Nat) (list : Header)

/-- The loop of `List<T>::SanityCheck`, which counts up to the last element. -/
def countFrom : Nat → Int → Option Address → Routine Fault (Store α) Int
  | 0, _, _ => throw .endless
  | fuel + 1, numFound, ptr => do
      if ptr = list.last then return numFound
      else
        assert (numFound + 1 ≤ list.numInList) .assertion
        let element ← read ptr
        countFrom fuel (numFound + 1) element.next

/-- `List<T>::SanityCheck`. -/
def sanityCheck : Routine Fault (Store α) Unit := do
  if list.first = none then assert (list.numInList = 0 ∧ list.last = none) .assertion
  else if list.first = list.last then
    assert (list.numInList = 1) .assertion
    let ending ← read list.last
    assert (ending.next = none) .assertion
  else
    let numFound ← countFrom list fuel 1 list.first
    assert (numFound = list.numInList) .assertion
    let ending ← read list.last
    assert (ending.next = none) .assertion

/-- The loop of `SortedList<T>::SanityCheck` over two elements in turn. -/
def orderedFrom (compare : α → α → Except Fault Int)
    : Nat → Option Address → Option Address → Routine Fault (Store α) Unit
  | 0, _, _ => throw .endless
  | _ + 1, _, none => return ()
  | fuel + 1, prev, some ptr => do
      let before ← read prev
      let element ← read (some ptr)
      let order ← lift (compare before.item element.item)
      assert (order ≤ 0) .assertion
      orderedFrom compare fuel (some ptr) element.next

/-- `SortedList<T>::SanityCheck`. -/
def sortedSanityCheck (compare : α → α → Except Fault Int) : Routine Fault (Store α) Unit := do
  sanityCheck fuel list
  if list.first = list.last then return ()
  else
    let front ← read list.first
    orderedFrom compare fuel list.first front.next

end SanityChecks

/-- `List<T>::Apply` from a pointer, for a function that may change more than the heap. -/
def applyFrom {σ : Type} (store : σ → Store α) (func : α → Routine Fault σ Unit)
    : Nat → Option Address → Routine Fault σ Unit
  | 0, _ => throw .endless
  | _ + 1, none => return ()
  | fuel + 1, some ptr => do
      let before ← get
      let element ← lift ((store before).read (some ptr))
      func element.item
      let after ← get
      let again ← lift ((store after).read (some ptr))
      applyFrom store func fuel again.next

namespace ListIterator

/-- `ListIterator::Item`. -/
def item (it : ListIterator) : Routine Fault (Store α) α := do
  assert (it.isDone = false) .assertion
  let element ← LinkedList.read it.current
  return element.item

/-- `ListIterator::Next`, which notes when another element is at the address. -/
def next (it : ListIterator) : Routine Fault (Store α) ListIterator := do
  let element ← LinkedList.read it.current
  let store ← get
  set (if element.object = it.object then store else store.markStale)
  return store.iterator element.next

end ListIterator

end Nachos.LinkedList
