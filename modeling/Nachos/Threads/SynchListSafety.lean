import Nachos.Threads.SynchListSteps

/-! Threads that use a `SynchList` get every item once and in order, lose no wake-up, and use no
semaphore that was deleted.
-/

namespace Nachos.SynchList
open Outcome

variable {ι α : Type} {current : Option ι} {state after : State ι α} {t : ι}

-----------------------------------------------------------------------------------------
-- Items
-----------------------------------------------------------------------------------------

namespace Progress

/-- The item that a thread removed and did not return yet. -/
def taken : Progress α → Option α
  | .release (.removeFront item) | .released (.removeFront item) => some item
  | _ => none

/-- The item that a thread with the lock did not append yet. -/
def brought : Progress α → Option α
  | .acquired (.append item) | .append item => some item
  | _ => none

/-- The rest of a turn keeps the items and their order. -/
theorem finish_items (progress : Progress α) (list : List α)
    : (progress.finish list).1.toList ++ (progress.finish list).2
      = progress.taken.toList ++ list ++ progress.brought.toList := by
  have plain : list = [] ++ list ++ [] := (List.append_nil list).symm
  have taking : (take list).1.toList ++ (take list).2 = [] ++ list ++ [] :=
    (take_items list).symm.trans plain
  cases progress with
  | acquired entry =>
      cases entry with
      | append item => rfl
      | removeFront | wait => exact taking
  | append item => rfl
  | release exit | released exit =>
      cases exit with
      | removeFront item => exact (List.append_nil (item :: list)).symm
      | append | wait => exact plain
  | test | remove | delete => exact taking
  | _ => exact plain

theorem hasLock_of_share {progress : Progress α} (here : progress.share = 1)
    : progress.hasLock = true := by
  cases progress <;> first | rfl | exact nomatch here

end Progress

/-- The items of all calls of `Append` that got the lock, while a thread has it. -/
theorem Served.items_held (served : Served (some t) state)
    : appended state.turns
      = state.returned.map Prod.snd ++ (state.threads t).taken.toList ++ state.list
          ++ (state.threads t).brought.toList := by
  have items : appended state.turns
      = (state.returned
            ++ ((state.threads t).finish state.list).1.toList.map (t, ·)).map Prod.snd
          ++ ((state.threads t).finish state.list).2 := by
    have items := serial_items state.turns ([] : List α)
    rwa [served.outcome] at items
  have removed (found : Option α)
      : (found.toList.map ((t, ·) : α → ι × α)).map Prod.snd = found.toList := by
    rw [List.map_map]
    exact List.map_id _
  rw [items, List.map_append, removed, List.append_assoc, Progress.finish_items]
  simp only [List.append_assoc]

theorem Served.items (served : Served none state)
    : appended state.turns = state.returned.map Prod.snd ++ state.list := by
  have items := serial_items state.turns ([] : List α)
  rwa [served.outcome] at items

-----------------------------------------------------------------------------------------
-- Wake-ups
-----------------------------------------------------------------------------------------

/-- A thread is in `Wait`, and its semaphore was not signalled yet. -/
def Unsignalled (state : State ι α) (t : ι) : Prop :=
  ∃ waiter semaphore,
    (state.threads t).waits = some waiter
    ∧ state.heap waiter.address = some { object := waiter.object, semaphore }
    ∧ semaphore.value = 0

/-- A thread was signalled, or has the lock and will test the list or signal a thread. -/
def OnItsWay (state : State ι α) (t : ι) : Prop :=
  Coming state t ∨ (state.threads t).share = 1

/-- A thread that waits for a signal has a semaphore that is pending. -/
theorem Waiters.pending_of_unsignalled (waiters : Waiters current state)
    (unsignalled : Unsignalled state t)
    : ∃ waiter, waiter ∈ pending current state := by
  obtain ⟨waiter, semaphore, waits, found, zero⟩ := unsignalled
  refine ⟨waiter, ?_⟩
  obtain ⟨value, stored, _, signalled⟩ :=
    waiters.owned t waiter (Progress.waiter_of_waits waits)
  by_contra absent
  obtain rfl := (Cell.mk.inj (Option.some.inj (found.symm.trans stored))).2
  exact (signalled waits absent).1 zero

/-- While the list is not empty, a thread comes for its items as long as others wait. -/
theorem Holds.exists_onItsWay (holds : Holds current state) (unsignalled : Unsignalled state t)
    (some : state.list ≠ [])
    : ∃ u, OnItsWay state u := by
  obtain ⟨waiter, member⟩ := holds.waiters.pending_of_unsignalled unsignalled
  have length := List.length_pos_iff.mpr some
  have covered (queued : waiter ∈ state.waitQueue)
      : (∃ u, OnItsWay state u) ∨ share current state ≠ 0 := by
    obtain ⟨coming, _, each, enough⟩ := holds.covered (List.ne_nil_of_mem queued)
    cases coming with
    | nil =>
        rw [List.length_nil] at enough
        exact .inr (by omega)
    | cons u rest => exact .inl ⟨u, .inl (each u (List.mem_cons_self ..))⟩
  cases current with
  | none =>
      have queued : waiter ∈ state.waitQueue := by simpa [pending] using member
      exact (covered queued).resolve_right (fun there => there rfl)
  | some holder =>
      rw [pending_some rfl rfl, List.mem_append, List.mem_append] at member
      rcases member with (signalled | queued) | enqueued
      · refine ⟨holder, .inr ?_⟩
        cases here : state.threads holder with
        | v pointer => rfl
        | _ => simp [here, Progress.signals] at signalled
      · rcases covered queued with found | there
        · exact found
        · refine ⟨holder, .inr ?_⟩
          have most := (state.threads holder).share_le_one
          change (state.threads holder).share ≠ 0 at there
          omega
      · have knows := holds.served.knows holder
        cases here : state.threads holder with
        | enqueue pointer =>
            rw [here] at knows
            exact absurd knows some
        | _ => simp [here, Progress.enqueues] at enqueued

/-- A thread that is on its way is awake, or another one has the lock or will take it. -/
theorem Holds.exists_awake (holds : Holds current state) (comes : OnItsWay state t)
    : ∃ u, state.threads u ≠ .outside ∧ state.asleep u = false := by
  have inCall {u : ι} (has : (state.threads u).hasLock = true) : state.threads u ≠ .outside := by
    intro outside
    rw [outside] at has
    exact nomatch has
  rcases comes with (⟨waiter, enters⟩ | ⟨waiter, semaphore, inP, found, signalled⟩) | here
  · cases asleep : state.asleep t with
    | false => exact ⟨t, by simp [enters], asleep⟩
    | true =>
        have queued : t ∈ state.lock.queue :=
          (holds.mutex.queue t).mpr ⟨asleep, by rw [enters]; rfl⟩
        cases current with
        | none =>
            obtain ⟨u, awake, atLock⟩ := holds.mutex.free rfl (List.ne_nil_of_mem queued)
            refine ⟨u, ?_, awake⟩
            intro outside
            rw [outside] at atLock
            exact nomatch atLock
        | some holder =>
            have has := (holds.mutex.only holder).mpr rfl
            exact ⟨holder, inCall has, holds.mutex.awake has⟩
  · obtain ⟨value, stored, zero, awake⟩ := holds.waiters.owned t waiter (by rw [inP]; rfl)
    obtain rfl := (Cell.mk.inj (Option.some.inj (found.symm.trans stored))).2
    have rests := (awake (by rw [inP]; rfl) (fun member => signalled (zero member))).2
    rw [State.rests, inP] at rests
    exact ⟨t, by simp [inP], (Bool.and_true _).symm.trans rests⟩
  · have has := Progress.hasLock_of_share here
    exact ⟨t, inCall has, holds.mutex.awake has⟩

-----------------------------------------------------------------------------------------
-- Safety
-----------------------------------------------------------------------------------------

variable [DecidableEq ι]

/-- What holds of a `SynchList` between any two statements. -/
structure Safe [DecidableEq α] (state : State ι α) : Prop where
  exclusive
    : ∀ t u, (state.threads t).hasLock = true → (state.threads u).hasLock = true → t = u
  /-- Calls have the effect of their turns, in the order in which they acquired the lock. -/
  turns
    : (∀ t, (state.threads t).hasLock = false)
      → serial state.turns [] = (state.returned, state.list)
  /-- Every item was returned once, in the order of the calls of `Append`, or is in the list. -/
  order
    : (∀ t, (state.threads t).hasLock = false)
      → appended state.turns = state.returned.map Prod.snd ++ state.list
  /-- So it is while a thread has the lock, but for an item that this thread has. -/
  held
    : ∀ t, (state.threads t).hasLock = true
      → appended state.turns
        = state.returned.map Prod.snd ++ (state.threads t).taken.toList ++ state.list
            ++ (state.threads t).brought.toList
  noLostWakeUp
    : ∀ t, Unsignalled state t → state.list ≠ [] → ∃ u, OnItsWay state u
  /-- While a thread is on its way, some thread in a call is awake. -/
  awake : ∀ t, OnItsWay state t → ∃ u, state.threads u ≠ .outside ∧ state.asleep u = false
  /-- No statement fails an assertion or uses a semaphore that was deleted, but for `Append` of
  an item that is in the list.
  -/
  returns
    : ∀ t place, state.Legal (.advance t place)
      → (∀ item, state.threads t = .append item → item ∉ state.list)
      → ∃ after, state.perform (.advance t place) = .ok after

/-- The invariant gives all that safety asks for, field by field. -/
theorem Holds.safe [DecidableEq α] (holds : Holds current state) : Safe state where
  exclusive t u has other := by
    rw [holds.mutex.only] at has other
    exact Option.some.inj (has.symm.trans other)
  turns free := by
    obtain rfl := holds.mutex.eq_none free
    exact holds.served.outcome
  order free := by
    obtain rfl := holds.mutex.eq_none free
    exact holds.served.items
  held t has := by
    obtain rfl := (holds.mutex.only t).mp has
    exact holds.served.items_held
  noLostWakeUp t := holds.exists_onItsWay
  awake t := holds.exists_awake
  returns t place legal absent := by
    obtain ⟨after, returned, _⟩ := holds.advance legal absent
    exact ⟨after, returned⟩

/-- However threads use a `SynchList`, it is safe. -/
theorem safe_synchList [DecidableEq α]
    (reachable : Runs.Reachable (@State.Step ι α _ _) initial state)
    : Safe state := by
  obtain ⟨current, holds⟩ := holds_of_reachable reachable
  exact holds.safe

/-- A thread waits for the item that another one appends. -/
theorem safe_synchList_of_waiting_thread
    : ∃ state : State Nat Nat, state.returned = [(0, 7)] ∧ state.list = [] ∧ Safe state := by
  have tested : (Runs.follow State.next
      (.removeFront 0 :: List.replicate 8 (.advance 0 0)
        ++ .append 1 7 :: List.replicate 7 (.advance 1 0)
        ++ List.replicate 8 (.advance 0 0))
      (initial : State Nat Nat)).any
      (fun state => decide (state.returned = [(0, 7)] ∧ state.list = [])) := by
    decide +kernel
  obtain ⟨state, followed, found⟩ := (Option.any_eq_true _ _).mp tested
  obtain ⟨returned, list⟩ := of_decide_eq_true found
  exact ⟨state, returned, list,
    safe_synchList (.of_follow (fun _ _ _ => State.step_of_next) (.refl _) followed)⟩

end Nachos.SynchList
