import Nachos.KernelLib.LinkedList

/-! Paths of links through the heap, what becomes of the elements that existed before an
operation on a list, and what an iterator meets when the element under it is gone.
-/

namespace Nachos.LinkedList
open Routines Routine

variable {α : Type}

-----------------------------------------------------------------------------------------
-- Later heaps
-----------------------------------------------------------------------------------------

/-- What any operations make of a heap: an element is where it was, or was made since. -/
structure Store.Later (before after : Store α) : Prop where
  objects : before.objects ≤ after.objects
  limit : before.limit ≤ after.limit
  stale : before.stale = true → after.stale = true
  element
    : ∀ {address element},
        after.elements address = some element
        → before.objects ≤ element.object
          ∨ ∃ earlier,
              before.elements address = some earlier ∧ earlier.object = element.object

namespace Store.Later

variable {start store : Store α}

/-- Every store comes after itself. -/
theorem refl (store : Store α)
    : store.Later store :=
  {
    objects := le_refl _
    limit := le_refl _
    stale := id
    element := fun {_ element} found => .inr ⟨element, found, rfl⟩
  }

/-- A new element makes a later store, by cases on whether it is at the address asked about. -/
theorem construct (later : start.Later store) (item : α) (address : Address)
    : start.Later (store.construct item address) := by
  refine ⟨Nat.le_succ_of_le later.objects, le_trans later.limit (le_max_left ..), later.stale, ?_⟩
  intro other element found
  simp only [Store.construct] at found
  by_cases same : other = address
  · subst same
    rw [Function.update_self] at found
    cases found
    exact .inl later.objects
  · rw [Function.update_of_ne same] at found
    exact later.element found

/-- A changed link makes a later store, since the object stays. -/
theorem link (later : start.Later store) (address : Address) (next : Option Address)
    : start.Later (store.link address next) := by
  refine ⟨later.objects, later.limit, later.stale, ?_⟩
  intro other element found
  simp only [Store.link] at found
  by_cases same : other = address
  · subst same
    rw [Function.update_self] at found
    obtain ⟨linked, exist, rfl⟩ := Option.map_eq_some_iff.mp found
    exact @Later.element _ _ _ later other linked exist
  · rw [Function.update_of_ne same] at found
    exact later.element found

/-- A deleted element makes a later store. -/
theorem release (later : start.Later store) (address : Address)
    : start.Later (store.release address) := by
  refine ⟨later.objects, later.limit, later.stale, ?_⟩
  intro other element found
  simp only [Store.release] at found
  by_cases same : other = address
  · subst same
    rw [Function.update_self] at found
    cases found
  · rw [Function.update_of_ne same] at found
    exact later.element found

theorem markStale (later : start.Later store)
    : start.Later store.markStale :=
  ⟨later.objects, later.limit, fun _ => rfl, later.element⟩

/-- No later element at the address of one that is gone has its number. -/
theorem object_ne {address : Address} {object : Nat} {element : Element α}
    (later : start.Later store) (gone : start.elements address = none)
    (known : object < start.objects) (found : store.elements address = some element)
    : element.object ≠ object := by
  rcases later.element found with newer | ⟨earlier, exist, _⟩
  · exact (Nat.lt_of_lt_of_le known newer).ne'
  · rw [gone] at exist
    cases exist

end Store.Later

/-- A property that a new element and a change of a link keep. -/
structure Stable (allocator : Allocator α) (property : Store α → Prop) : Prop where
  construct
    : ∀ store item, property store → property (store.construct item (allocator.place store))
  link : ∀ store address next, property store → property (store.link address next)

theorem Store.Later.stable (start : Store α) (allocator : Allocator α)
    : Stable allocator start.Later :=
  ⟨fun _ item later => later.construct item _, fun _ address next later => later.link address next⟩

/-- An address that was in use once and is not any more. -/
def Store.Left (address : Address) (store : Store α) : Prop :=
  store.elements address = none ∧ address < store.limit

/-- The allocator that takes new addresses only uses none again. -/
theorem Store.Left.stable (address : Address) : Stable (α := α) .fresh (Store.Left address) := by
  refine ⟨fun store item left => ⟨?_, ?_⟩, fun store other next left => ⟨?_, left.2⟩⟩
  · exact (Function.update_of_ne left.2.ne _ _).trans left.1
  · exact lt_of_lt_of_le left.2 (le_max_left ..)
  · by_cases same : address = other
    · subst same
      change Function.update _ _ _ _ = _
      rw [Function.update_self, left.1]
      rfl
    · exact (Function.update_of_ne same _ _).trans left.1

-----------------------------------------------------------------------------------------
-- What operations keep: those that only read keep everything
-----------------------------------------------------------------------------------------

section Kept

variable {property : Store α → Prop} {start : Store α}

theorem keeps_read (pointer : Option Address)
    : Keeps property (read pointer : Routine Fault (Store α) (Element α)) :=
  keeps_get_bind (fun _ holds => holds)

theorem keeps_item (it : ListIterator)
    : Keeps property (it.item : Routine Fault (Store α) α) :=
  keeps_bind (keeps_assert _ _) (fun _ => keeps_bind (keeps_read _) (fun _ => keeps_pure _))

theorem keeps_new {allocator : Allocator α} (stable : Stable allocator property) (item : α)
    : Keeps property (new allocator item) :=
  keeps_get_bind (fun store holds => stable.construct store item holds)

/-- To set a link keeps what is stable, by cases on the pointer. -/
theorem keeps_setNext {allocator : Allocator α} (stable : Stable allocator property)
    (pointer next : Option Address)
    : Keeps property (setNext pointer next) := by
  refine keeps_get_bind (fun store holds => ?_)
  cases pointer with
  | none => exact holds
  | some address =>
      dsimp only
      split
      · exact holds
      · exact stable.link store address next holds

/-- To delete goes on to a later store, by cases on the pointer. -/
theorem keeps_delete (pointer : Option Address)
    : Keeps start.Later (delete pointer) := by
  refine keeps_get_bind (fun store later => ?_)
  cases pointer with
  | none => exact later
  | some address =>
      dsimp only
      split
      · exact later
      · exact later.release _

/-- By induction on the fuel. -/
theorem keeps_insertFrom {allocator : Allocator α} (stable : Stable allocator property)
    (compare : α → α → Except Fault Int) (item : α) (element : Option Address) (fuel : Nat)
    (pointer : Option Address)
    : Keeps property (insertFrom compare item element fuel pointer) := by
  induction fuel generalizing pointer with
  | zero => exact keeps_throw _
  | succ fuel ih =>
      refine keeps_bind (keeps_read _) (fun here => keeps_ite (keeps_pure _) ?_)
      refine keeps_bind (keeps_read _) (fun following => ?_)
      refine keeps_bind (keeps_lift _) (fun order => keeps_ite ?_ (ih _))
      exact keeps_bind (keeps_setNext stable _ _)
        (fun _ => keeps_bind (keeps_setNext stable _ _) (fun _ => keeps_pure _))

theorem keeps_removeFront (list : Header)
    : Keeps start.Later (removeFront list : Routine Fault (Store α) (α × Header)) := by
  refine keeps_bind (keeps_assert _ _) (fun _ => ?_)
  refine keeps_bind (keeps_read _) (fun element => ?_)
  exact keeps_bind (keeps_delete _) (fun _ => keeps_pure _)

/-- An iterator only marks the store as stale when its element was replaced. -/
theorem keeps_next (it : ListIterator)
    : Keeps start.Later (it.next : Routine Fault (Store α) ListIterator) := by
  refine keeps_bind (keeps_read _) (fun element => keeps_get_bind (fun store later => ?_))
  change start.Later (if element.object = it.object then store else store.markStale)
  split
  · exact later
  · exact later.markStale

variable [DecidableEq α]

/-- By induction on the fuel. -/
theorem keeps_isInListFrom (item : α) (fuel : Nat) (pointer : Option Address)
    : Keeps property (isInListFrom item fuel pointer) := by
  induction fuel generalizing pointer with
  | zero => exact keeps_throw _
  | succ fuel ih =>
      cases pointer with
      | none => exact keeps_pure _
      | some ptr =>
          refine keeps_bind (keeps_read _) (fun element => ?_)
          exact keeps_ite (keeps_pure _) (ih element.next)

theorem keeps_counted (fuel : Nat) (item : α) (list : Header)
    : Keeps property (counted fuel item list) :=
  keeps_bind (keeps_isInListFrom _ _ _)
    (fun _ => keeps_bind (keeps_assert _ _) (fun _ => keeps_pure _))

theorem keeps_append {allocator : Allocator α} (stable : Stable allocator property)
    (fuel : Nat) (item : α) (list : Header)
    : Keeps property (append allocator fuel item list) := by
  refine keeps_bind (keeps_new stable _) (fun element => ?_)
  refine keeps_bind (keeps_isInListFrom _ _ _) (fun _ => ?_)
  refine keeps_bind (keeps_assert _ _) (fun _ => keeps_ite (keeps_counted _ _ _) ?_)
  exact keeps_bind (keeps_setNext stable _ _) (fun _ => keeps_counted _ _ _)

/-- Insert keeps what is stable, part by part; the search for the place is `keeps_insertFrom`. -/
theorem keeps_insert {allocator : Allocator α} (stable : Stable allocator property)
    (fuel : Nat) (item : α) (compare : α → α → Except Fault Int) (list : Header)
    : Keeps property (insert allocator fuel item compare list) := by
  refine keeps_bind (keeps_new stable _) (fun element => ?_)
  refine keeps_bind (keeps_isInListFrom _ _ _) (fun _ => ?_)
  refine keeps_bind (keeps_assert _ _) (fun _ => keeps_ite (keeps_counted _ _ _) ?_)
  refine keeps_bind (keeps_read _) (fun front => ?_)
  refine keeps_bind (keeps_lift _) (fun order => keeps_ite ?_ ?_)
  · exact keeps_bind (keeps_setNext stable _ _) (fun _ => keeps_counted _ _ _)
  · refine keeps_bind (keeps_insertFrom stable _ _ _ _ _) (fun placed => ?_)
    refine keeps_ite (keeps_pure _) ?_
    exact keeps_bind (keeps_setNext stable _ _) (fun _ => keeps_counted _ _ _)

/-- By induction on the fuel. -/
theorem keeps_removeFrom (item : α) (list : Header) (fuel : Nat)
    (prev pointer : Option Address)
    : Keeps start.Later (removeFrom item list fuel prev pointer) := by
  induction fuel generalizing prev pointer with
  | zero => exact keeps_throw _
  | succ fuel ih =>
      cases pointer with
      | none => exact keeps_throw _
      | some ptr =>
          refine keeps_bind (keeps_read _) (fun element => keeps_ite ?_ (ih _ _))
          refine keeps_bind (keeps_setNext (Store.Later.stable start .fresh) _ _) (fun _ => ?_)
          exact keeps_bind (keeps_delete _) (fun _ => keeps_pure _)

theorem keeps_removeFound (fuel : Nat) (item : α) (list : Header)
    : Keeps start.Later (removeFound fuel item list) := by
  refine keeps_bind (keeps_read _) (fun front => keeps_ite ?_ (keeps_removeFrom _ _ _ _ _))
  refine keeps_bind (keeps_removeFront _) (fun removed => ?_)
  exact keeps_bind (keeps_assert _ _) (fun _ => keeps_pure _)

/-- Remove goes on to a later store, part by part. -/
theorem keeps_remove (fuel : Nat) (item : α) (list : Header)
    : Keeps start.Later (remove fuel item list) := by
  refine keeps_bind (keeps_isInListFrom item fuel list.first) (fun _ => ?_)
  refine keeps_bind (keeps_assert _ _) (fun _ => ?_)
  refine keeps_bind (keeps_removeFound _ _ _) (fun shorter => ?_)
  refine keeps_bind (keeps_isInListFrom item fuel shorter.first) (fun _ => ?_)
  exact keeps_bind (keeps_assert _ _) (fun _ => keeps_pure _)

end Kept

-----------------------------------------------------------------------------------------
-- Paths
-----------------------------------------------------------------------------------------

/-- The links from one pointer lead to another over elements that hold these items. -/
inductive Path (store : Store α) : Option Address → List α → Option Address → Prop
  | stop {pointer} : Path store pointer [] pointer
  | step {address element rest final} (found : store.elements address = some element)
    (linked : Path store element.next rest final)
    : Path store (some address) (element.item :: rest) final

/-- The members of a list agree with the elements that it is made of. -/
structure Header.Holds (list : Header) (store : Store α) (items : List α) : Prop where
  linked : Path store list.first items none
  ended : if items = [] then list.last = none else Path store list.first items.dropLast list.last
  counted : list.numInList = items.length

namespace Path

variable {store : Store α} {pointer final : Option Address} {address : Address}
  {element : Element α} {items : List α}

/-- A path goes on over the element that it leads to, by induction on the path. -/
theorem snoc (found : store.elements address = some element)
    (path : Path store pointer items (some address))
    : Path store pointer (items ++ [element.item]) element.next := by
  generalize reached : some address = stop at path
  induction path with
  | stop =>
      subst reached
      exact .step found .stop
  | step exist _ ih => exact .step exist (ih reached)

/-- The items up to the end of a list are determined, by induction on the first path. -/
theorem unique {others : List α} (path : Path store pointer items none)
    (other : Path store pointer others none)
    : items = others := by
  generalize ended : none = stop at path
  induction path generalizing others with
  | stop =>
      subst ended
      cases other
      rfl
  | step exist _ ih =>
      cases other with
      | step found linked =>
          obtain rfl := Option.some.inj (exist.symm.trans found)
          rw [ih linked ended]

end Path

-----------------------------------------------------------------------------------------
-- Removal
-----------------------------------------------------------------------------------------

section Removal

variable {store after : Store α} {address : Address} {element : Element α}

theorem run_read (found : store.elements address = some element)
    : (read (some address)).run store = (.ok element, store) := by
  change (store.read (some address), store) = _
  rw [Store.read, found]

/-- There is no element where one was deleted. -/
theorem elements_of_delete (returned : (delete (some address)).run store = (.ok (), after))
    : after.elements address = none := by
  have unfolded : (delete (some address)).run store
      = (if (store.elements address).isNone then throw .doubleDelete
          else set (store.release address) : Routine Fault (Store α) Unit).run store :=
    rfl
  rw [unfolded] at returned
  split at returned
  · cases congrArg Prod.fst returned
  · obtain rfl := (Prod.mk.inj returned).2.symm
    exact Function.update_self ..

/-- RemoveFront leaves no element where the first one was, since it deletes it last. -/
theorem elements_of_removeFront {list shorter : Header} {removed : α}
    (first : list.first = some address)
    (returned : (removeFront list).run store = (.ok (removed, shorter), after))
    : after.elements address = none := by
  obtain ⟨_, _, _, returned⟩ := of_run_bind_ok returned
  obtain ⟨_, _, _, returned⟩ := of_run_bind_ok returned
  obtain ⟨_, final, deleted, returned⟩ := of_run_bind_ok returned
  obtain rfl := (Prod.mk.inj returned).2
  rw [first] at deleted
  exact elements_of_delete deleted

variable [DecidableEq α]

/-- The loop of `Remove` deletes the first element that holds the item, by induction on the
items before it.
-/
theorem elements_of_removeFrom {list shorter : Header} {before : List α} {fuel : Nat}
    {prev pointer : Option Address} (path : Path store pointer before (some address))
    (found : store.elements address = some element) (notBefore : element.item ∉ before)
    (returned
      : (removeFrom element.item list fuel prev pointer).run store = (.ok shorter, after))
    : after.elements address = none := by
  induction before generalizing prev pointer fuel with
  | nil =>
      cases path
      cases fuel with
      | zero => cases congrArg Prod.fst returned
      | succ fuel =>
          rw [removeFrom, run_bind_ok (run_read found), if_pos rfl] at returned
          obtain ⟨_, _, _, returned⟩ := of_run_bind_ok returned
          obtain ⟨_, final, deleted, returned⟩ := of_run_bind_ok returned
          obtain rfl := (Prod.mk.inj returned).2
          exact elements_of_delete deleted
  | cons item before ih =>
      cases path with
      | step exist linked =>
          obtain ⟨differs, notLater⟩ := not_or.mp (List.mem_cons.not.mp notBefore)
          cases fuel with
          | zero => cases congrArg Prod.fst returned
          | succ fuel =>
              rw [removeFrom, run_bind_ok (run_read exist), if_neg differs] at returned
              exact ih linked notLater returned

/-- `Remove` deletes the first element that holds the item. -/
theorem elements_of_remove {list shorter : Header} {before : List α} {fuel : Nat}
    (path : Path store list.first before (some address))
    (found : store.elements address = some element) (notBefore : element.item ∉ before)
    (returned : (remove fuel element.item list).run store = (.ok shorter, after))
    : after.elements address = none := by
  obtain ⟨_, _, returned⟩ :=
    of_run_bind_ok_reading (fun _ => keeps_isInListFrom element.item fuel list.first) returned
  obtain ⟨_, _, returned⟩ := of_run_bind_ok_reading (fun _ => keeps_assert _ _) returned
  obtain ⟨left, removed, taken, returned⟩ := of_run_bind_ok returned
  obtain ⟨_, _, returned⟩ :=
    of_run_bind_ok_reading (fun _ => keeps_isInListFrom element.item fuel left.first) returned
  obtain ⟨_, _, returned⟩ := of_run_bind_ok_reading (fun _ => keeps_assert _ _) returned
  obtain rfl := (Prod.mk.inj returned).2
  obtain ⟨front, read, taken⟩ := of_run_bind_ok_reading (fun _ => keeps_read _) taken
  generalize start : list.first = pointer at path
  cases path with
  | stop =>
      rw [start, run_read found] at read
      obtain rfl := Except.ok.inj (Prod.mk.inj read).1
      rw [if_pos rfl] at taken
      obtain ⟨⟨_, _⟩, _, fronted, taken⟩ := of_run_bind_ok taken
      obtain ⟨_, _, taken⟩ := of_run_bind_ok_reading (fun _ => keeps_assert _ _) taken
      obtain rfl := (Prod.mk.inj taken).2
      exact elements_of_removeFront start fronted
  | step exist linked =>
      obtain ⟨differs, notLater⟩ := not_or.mp (List.mem_cons.not.mp notBefore)
      rw [start, run_read exist] at read
      obtain rfl := Except.ok.inj (Prod.mk.inj read).1
      rw [if_neg differs] at taken
      exact elements_of_removeFrom linked found notLater taken

end Removal

-----------------------------------------------------------------------------------------
-- Iterators
-----------------------------------------------------------------------------------------

section Iterators

variable {store after : Store α} {address : Address} {element : Element α}
  {it moved : ListIterator}

theorem run_item (found : store.elements address = some element)
    : ((store.iterator (some address)).item).run store = (.ok element.item, store) := by
  have notDone : (store.iterator (some address)).isDone = false := rfl
  have current : (store.iterator (some address)).current = some address := rfl
  rw [ListIterator.item, run_bind_ok (run_assert_of notDone _ _), current,
    run_bind_ok (run_read found), run_pure]

/-- The iterator goes to the next element of a cell that was not replaced. -/
theorem run_next (found : store.elements address = some element)
    : ((store.iterator (some address)).next).run store
      = (.ok (store.iterator element.next), store) := by
  have current : (store.iterator (some address)).current = some address := rfl
  have same : element.object = (store.iterator (some address)).object := by
    simp [Store.iterator, found]
  rw [ListIterator.next, current, run_bind_ok (run_read found), run_bind_ok (run_get _),
    if_pos same, run_bind_ok (run_set _ _), run_pure]

/-- An iterator that goes on read the element at its address. -/
theorem of_next (current : it.current = some address)
    (returned : it.next.run store = (.ok moved, after))
    : ∃ element,
        store.elements address = some element
        ∧ moved = after.iterator element.next
        ∧ after.elements = store.elements := by
  obtain ⟨element, read, returned⟩ := of_run_bind_ok_reading (fun _ => keeps_read _) returned
  rw [current] at read
  change (store.read (some address), store) = _ at read
  have found : store.elements address = some element := by
    rw [Store.read] at read
    split at read
    · rw [← Except.ok.inj (Prod.mk.inj read).1]
      assumption
    · cases congrArg Prod.fst read
  rw [run_bind_ok (run_get _), run_bind_ok (run_set _ _)] at returned
  obtain ⟨onward, rfl⟩ := Prod.mk.inj returned
  obtain rfl := Except.ok.inj onward
  refine ⟨element, found, ?_, ?_⟩ <;> split <;> rfl

/-- An iterator that goes on from an element that is gone does so from a stale link. -/
theorem stale_of_next (current : it.current = some address)
    (gone : ∀ element, store.elements address = some element → element.object ≠ it.object)
    (returned : it.next.run store = (.ok moved, after))
    : after.stale = true := by
  obtain ⟨element, read, returned⟩ := of_run_bind_ok_reading (fun _ => keeps_read _) returned
  rw [current] at read
  have found : store.elements address = some element := by
    change (store.read (some address), store) = _ at read
    rw [Store.read] at read
    split at read
    · rw [← Except.ok.inj (Prod.mk.inj read).1]
      assumption
    · cases congrArg Prod.fst read
  rw [run_bind_ok (run_get _), if_neg (gone element found), run_bind_ok (run_set _ _)]
    at returned
  obtain rfl := (Prod.mk.inj returned).2
  rfl

end Iterators

-----------------------------------------------------------------------------------------
-- Apply
-----------------------------------------------------------------------------------------

section Apply

variable {σ : Type} {store : σ → Store α} {func : α → Routine Fault σ Unit} {state : σ}
  {pointer : Option Address} {items : List α} {fuel : Nat}

/-- One turn of the loop of `Apply`. -/
theorem run_applyFrom_succ {address : Address} {element : Element α}
    (same : ∀ item state, store ((func item).run state).2 = store state)
    (found : (store state).elements address = some element)
    : (applyFrom store func (fuel + 1) (some address)).run state
      = (func element.item >>= fun _ => applyFrom store func fuel element.next).run state := by
  have read : (store state).read (some address) = .ok element := by rw [Store.read, found]
  have kept := same element.item state
  rw [applyFrom, run_bind_ok (run_get _), read, run_bind_ok (run_lift _ _)]
  cases outcome : (func element.item).run state with
  | mk result after =>
      rw [outcome] at kept
      cases result with
      | error fault => rw [run_bind_error outcome, run_bind_error outcome]
      | ok _ =>
          rw [run_bind_ok outcome, run_bind_ok outcome, run_bind_ok (run_get _), kept, read,
            run_bind_ok (run_lift _ _)]

/-- With fuel for its items, `Apply` calls the function on them in order, by induction on
them.
-/
theorem run_applyFrom (same : ∀ item state, store ((func item).run state).2 = store state)
    (path : Path (store state) pointer items none) (enough : items.length < fuel)
    : (applyFrom store func fuel pointer).run state = (items.forM func).run state := by
  induction items generalizing state pointer fuel with
  | nil =>
      cases path
      cases fuel with
      | zero => exact absurd enough (Nat.lt_irrefl 0)
      | succ fuel => rfl
  | cons item items ih =>
      cases path with
      | @step address element _ _ found linked =>
          cases fuel with
          | zero => exact absurd enough (Nat.not_lt_zero _)
          | succ fuel =>
              have kept := same element.item state
              rw [run_applyFrom_succ same found]
              cases outcome : (func element.item).run state with
              | mk result after =>
                  rw [outcome] at kept
                  change store after = store state at kept
                  cases result with
                  | error fault =>
                      exact (run_bind_error outcome _).trans (run_bind_error outcome _).symm
                  | ok _ =>
                      have others := ih (kept ▸ linked) (Nat.lt_of_succ_lt_succ enough)
                      rw [run_bind_ok outcome, others]
                      exact (run_bind_ok outcome (fun _ => items.forM func)).symm

/-- `Apply` returns only with fuel for all items, by induction on them. -/
theorem length_lt_of_applyFrom {after : σ}
    (same : ∀ item state, store ((func item).run state).2 = store state)
    (path : Path (store state) pointer items none)
    (returned : (applyFrom store func fuel pointer).run state = (.ok (), after))
    : items.length < fuel := by
  induction items generalizing state pointer fuel with
  | nil =>
      cases fuel with
      | zero => cases congrArg Prod.fst returned
      | succ fuel => exact Nat.succ_pos fuel
  | cons item items ih =>
      cases path with
      | @step address element _ _ found linked =>
          cases fuel with
          | zero => cases congrArg Prod.fst returned
          | succ fuel =>
              rw [run_applyFrom_succ same found] at returned
              obtain ⟨_, middle, called, rest⟩ := of_run_bind_ok returned
              have kept := same element.item state
              rw [called] at kept
              exact Nat.succ_lt_succ (ih (kept ▸ linked) rest)

end Apply

end Nachos.LinkedList
