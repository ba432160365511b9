import Nachos.Threads.SynchListTurns

/-! The semaphores that threads make in `Wait`: each exists as long as a thread may use it, and
while the list is not empty, a thread that was signalled comes for its items.
-/

namespace Nachos.SynchList
open Outcome
open SynchDevice (Semaphore)

variable {ι α : Type}

-----------------------------------------------------------------------------------------
-- Semaphores in use
-----------------------------------------------------------------------------------------

namespace Progress

/-- The semaphore that a thread made in `Wait`, until it deletes it. -/
def waiter : Progress α → Option Pointer
  | .enqueue waiter | .release (.wait waiter) | .released (.wait waiter) | .p waiter
  | .acquire (.wait waiter) | .acquired (.wait waiter) | .delete waiter => some waiter
  | _ => none

/-- The semaphore of a thread that did not get through `P` in `Wait` yet. -/
def waits : Progress α → Option Pointer
  | .enqueue waiter | .release (.wait waiter) | .released (.wait waiter) | .p waiter =>
      some waiter
  | _ => none

/-- The semaphore that a thread took out of the queue and will signal. -/
def signals : Progress α → Option Pointer
  | .v waiter => some waiter
  | _ => none

/-- The semaphore that a thread will put into the queue. -/
def enqueues : Progress α → Option Pointer
  | .enqueue waiter => some waiter
  | _ => none

theorem waiter_of_waits {progress : Progress α} {waiter : Pointer}
    (waits : progress.waits = some waiter)
    : progress.waiter = some waiter := by
  cases progress with
  | release exit => cases exit <;> exact waits
  | released exit => cases exit <;> exact waits
  | _ => first | exact waits | exact nomatch waits

theorem eq_p_of_waits {progress : Progress α} {waiter : Pointer}
    (waits : progress.waits = some waiter) (lacks : progress.hasLock = false)
    : progress = .p waiter := by
  cases progress with
  | p own => exact congrArg Progress.p (Option.some.inj waits)
  | outside | acquire _ => exact nomatch waits
  | _ => exact nomatch lacks

end Progress

/-- Whether a thread sleeps in the queue of its own semaphore. -/
def State.rests (state : State ι α) (t : ι) : Bool := state.asleep t && (state.threads t).inP

/-- The semaphores that were not signalled yet, in the order in which they will be. -/
def pending (current : Option ι) (state : State ι α) : List Pointer :=
  let progress := current.map state.threads
  (progress.bind Progress.signals).toList ++ state.waitQueue
    ++ (progress.bind Progress.enqueues).toList

/-- The semaphore of a thread exists, and was signalled if it is no longer pending. -/
def Owned (current : Option ι) (state : State ι α) (t : ι) : Prop :=
  ∀ waiter, (state.threads t).waiter = some waiter
    → ∃ value,
        state.heap waiter.address
          = some {
              object := waiter.object
              semaphore := { value, queue := if state.rests t then [t] else [] }
            }
        ∧ (waiter ∈ pending current state → value = 0)
        ∧ ((state.threads t).waits = some waiter → waiter ∉ pending current state
          → value ≠ 0 ∧ state.rests t = false)

/-- Every thread in `Wait` has a semaphore of its own, and those that are pending belong to
threads that wait.
-/
structure Waiters (current : Option ι) (state : State ι α) : Prop where
  apart
    : ∀ t u waiter other, (state.threads t).waiter = some waiter
      → (state.threads u).waiter = some other → waiter.address = other.address → t = u
  waiting : ∀ waiter ∈ pending current state, ∃ t, (state.threads t).waits = some waiter
  distinct : ((pending current state).map Pointer.address).Nodup
  owned : ∀ t, Owned current state t

variable {current next : Option ι} {state after : State ι α} {t : ι} {progress : Progress α}
  {waiter : Pointer}

theorem waiters_initial : Waiters none (initial : State ι α) where
  apart := nofun
  waiting := nofun
  distinct := List.nodup_nil
  owned := nofun

/-- Nothing changes that concerns these semaphores. -/
theorem Waiters.congr (waiters : Waiters current state)
    (waiter : ∀ u, (after.threads u).waiter = (state.threads u).waiter)
    (waits : ∀ u, (after.threads u).waits = (state.threads u).waits)
    (rests : ∀ u, (after.threads u).waiter ≠ none → after.rests u = state.rests u)
    (heap : after.heap = state.heap) (same : pending next after = pending current state)
    : Waiters next after where
  apart t u := by
    rw [waiter, waiter]
    exact waiters.apart t u
  waiting := by
    rw [same]
    simp only [waits]
    exact waiters.waiting
  distinct := same ▸ waiters.distinct
  owned t := by
    intro pointer own
    have rests := rests t (by simp [own])
    rw [waiter] at own
    rw [heap, same, waits, rests]
    exact waiters.owned t pointer own

/-- The semaphore of one thread changes. -/
theorem Waiters.change (waiters : Waiters current state) (t : ι)
    (waiter : ∀ u, u ≠ t → (after.threads u).waiter = (state.threads u).waiter)
    (waits : ∀ u, u ≠ t → (after.threads u).waits = (state.threads u).waits)
    (rests
      : ∀ u, u ≠ t → (after.threads u).waiter ≠ none → after.rests u = state.rests u)
    (others
      : ∀ u pointer, u ≠ t → (state.threads u).waiter = some pointer
        → after.heap pointer.address = state.heap pointer.address
          ∧ (pointer ∈ pending next after ↔ pointer ∈ pending current state)
          ∧ ∀ own, (after.threads t).waiter = some own → own.address ≠ pointer.address)
    (waiting
      : ∀ pointer ∈ pending next after,
          (after.threads t).waits = some pointer
          ∨ ∃ u, u ≠ t ∧ (state.threads u).waits = some pointer)
    (distinct : ((pending next after).map Pointer.address).Nodup)
    (own : Owned next after t)
    : Waiters next after where
  apart first second pointer1 pointer2 own1 own2 shared := by
    by_cases same1 : first = t
    · by_cases same2 : second = t
      · rw [same1, same2]
      · rw [waiter second same2] at own2
        exact absurd shared ((others second pointer2 same2 own2).2.2 _ (same1 ▸ own1))
    · rw [waiter first same1] at own1
      by_cases same2 : second = t
      · exact absurd shared.symm ((others first pointer1 same1 own1).2.2 _ (same2 ▸ own2))
      · rw [waiter second same2] at own2
        exact waiters.apart first second pointer1 pointer2 own1 own2 shared
  waiting pointer member := by
    rcases waiting pointer member with own | ⟨u, apart, other⟩
    · exact ⟨t, own⟩
    · exact ⟨u, (waits u apart).trans other⟩
  distinct := distinct
  owned u := by
    by_cases same : u = t
    · exact same ▸ own
    · intro pointer has
      have rests := rests u same (by simp [has])
      rw [waiter u same] at has
      obtain ⟨heap, members, _⟩ := others u pointer same has
      rw [heap, members, waits u same, rests]
      exact waiters.owned u pointer has

theorem read_of_found {semaphore : Semaphore ι}
    (found : state.heap waiter.address = some { object := waiter.object, semaphore })
    : state.read waiter = .ok semaphore := by
  rw [State.read, found]
  exact if_pos rfl

variable [DecidableEq ι]

/-- A thread makes its semaphore in `Wait`. -/
theorem Waiters.make (waiters : Waiters (some t) state) (waits : state.threads t = .wait)
    (unused : state.heap waiter.address = none)
    (threads : after.threads = Function.update state.threads t (.enqueue waiter))
    (heap
      : after.heap
        = Function.update state.heap waiter.address
            (some { object := waiter.object, semaphore := .new 0 }))
    (waitQueue : after.waitQueue = state.waitQueue) (asleep : after.asleep = state.asleep)
    : Waiters (some t) after := by
  have apart {u : ι} {pointer : Pointer} (own : (state.threads u).waiter = some pointer)
      : waiter.address ≠ pointer.address := by
    intro same
    obtain ⟨_, found, _⟩ := waiters.owned u pointer own
    rw [← same, unused] at found
    exact nomatch found
  have longer : pending (some t) after = pending (some t) state ++ [waiter] := by
    simp [pending, threads, waits, waitQueue, Progress.signals, Progress.enqueues]
  have own : after.threads t = .enqueue waiter := by rw [threads, Function.update_self]
  have old {pointer : Pointer} (member : pointer ∈ pending (some t) state)
      : ∃ u, u ≠ t ∧ (state.threads u).waits = some pointer := by
    obtain ⟨u, other⟩ := waiters.waiting pointer member
    refine ⟨u, ?_, other⟩
    rintro rfl
    rw [waits] at other
    exact nomatch other
  refine waiters.change t (fun u other => ?_) (fun u other => ?_) (fun u other _ => ?_)
    (fun u pointer _ has => ⟨?_, ?_, ?_⟩) ?_ ?_ ?_
  · rw [threads, Function.update_of_ne other]
  · rw [threads, Function.update_of_ne other]
  · rw [State.rests, State.rests, threads, Function.update_of_ne other, asleep]
  · rw [heap, Function.update_of_ne (apart has).symm]
  · rw [longer, List.mem_append, List.mem_singleton]
    refine or_iff_left ?_
    rintro rfl
    exact apart has rfl
  · intro pointer mine
    rw [own] at mine
    exact Option.some.inj mine ▸ apart has
  · intro pointer member
    rw [longer, List.mem_append, List.mem_singleton] at member
    rcases member with before | rfl
    · exact .inr (old before)
    · exact .inl (own ▸ rfl)
  · rw [longer, List.map_append]
    refine List.nodup_append.mpr ⟨waiters.distinct, List.nodup_singleton _, ?_⟩
    intro address before other last same
    obtain ⟨pointer, member, rfl⟩ := List.mem_map.mp before
    obtain ⟨u, _, has⟩ := old member
    rw [List.map_singleton, List.mem_singleton] at last
    exact apart (Progress.waiter_of_waits has) (same.trans last).symm
  · intro pointer mine
    rw [own] at mine
    obtain rfl := Option.some.inj mine
    have awake : after.rests t = false := by
      rw [State.rests, own]
      exact Bool.and_false _
    refine ⟨0, ?_, fun _ => rfl, fun _ absent => ?_⟩
    · rw [heap, Function.update_self, awake]
      rfl
    · rw [longer] at absent
      exact absurd (List.mem_append_right _ (List.mem_singleton_self _)) absent

omit [DecidableEq ι] in
/-- The semaphore that a thread takes out of the queue has an owner that waits. -/
theorem Waiters.exists_of_signals (waiters : Waiters (some t) state)
    (signals : state.threads t = .v waiter)
    : ∃ u,
        u ≠ t
        ∧ (state.threads u).waits = some waiter
        ∧ state.heap waiter.address
          = some {
              object := waiter.object
              semaphore := { value := 0, queue := if state.rests u then [u] else [] }
            } := by
  have member : waiter ∈ pending (some t) state := by
    simp [pending, signals, Progress.signals]
  obtain ⟨u, waits⟩ := waiters.waiting waiter member
  obtain ⟨value, found, zero, _⟩ :=
    waiters.owned u waiter (Progress.waiter_of_waits waits)
  refine ⟨u, ?_, waits, zero member ▸ found⟩
  rintro rfl
  rw [signals] at waits
  exact nomatch waits

/-- The owner of a semaphore is signalled. -/
theorem Waiters.signal (waiters : Waiters (some t) state)
    (signals : state.threads t = .v waiter) {u : ι}
    (waits : (state.threads u).waits = some waiter)
    (threads : after.threads = Function.update state.threads t (.release .append))
    (heap
      : after.heap
        = Function.update state.heap waiter.address
            (some { object := waiter.object, semaphore := { value := 1, queue := [] } }))
    (waitQueue : after.waitQueue = state.waitQueue)
    (asleep
      : ∀ other, after.asleep other
        = if other = u ∧ state.rests u = true then false else state.asleep other)
    : Waiters (some t) after := by
  have apart {other : ι} (away : other ≠ u) {pointer : Pointer}
      (own : (state.threads other).waiter = some pointer)
      : waiter.address ≠ pointer.address :=
    fun same => away (waiters.apart u other waiter pointer
      (Progress.waiter_of_waits waits) own same).symm
  have shorter : pending (some t) state = waiter :: pending (some t) after := by
    simp [pending, threads, signals, waitQueue, Progress.signals, Progress.enqueues]
  have distinct := waiters.distinct
  rw [shorter, List.map_cons, List.nodup_cons] at distinct
  have same (other : ι) : (after.threads other).waiter = (state.threads other).waiter
      ∧ (after.threads other).waits = (state.threads other).waits
      ∧ (after.threads other).inP = (state.threads other).inP := by
    rw [threads]
    by_cases own : other = t
    · subst own
      rw [Function.update_self, signals]
      exact ⟨rfl, rfl, rfl⟩
    · rw [Function.update_of_ne own]
      exact ⟨rfl, rfl, rfl⟩
  refine waiters.change u (fun other _ => (same other).1) (fun other _ => (same other).2.1)
    (fun other away _ => ?_) (fun other pointer away has => ⟨?_, ?_, ?_⟩) ?_ distinct.2 ?_
  · rw [State.rests, State.rests, (same other).2.2, asleep, if_neg (fun own => away own.1)]
  · rw [heap, Function.update_of_ne (apart away has).symm]
  · rw [shorter, List.mem_cons, or_iff_right]
    rintro rfl
    exact apart away has rfl
  · intro own mine
    rw [(same u).1, Progress.waiter_of_waits waits] at mine
    exact Option.some.inj mine ▸ apart away has
  · intro pointer member
    obtain ⟨other, has⟩ :=
      waiters.waiting pointer (shorter ▸ List.mem_cons_of_mem _ member)
    refine .inr ⟨other, ?_, has⟩
    rintro rfl
    obtain rfl := Option.some.inj (waits.symm.trans has)
    exact distinct.1 (List.mem_map_of_mem member)
  · intro pointer mine
    rw [(same u).1, Progress.waiter_of_waits waits] at mine
    obtain rfl := Option.some.inj mine
    have awake : after.rests u = false := by
      rw [State.rests, asleep, (same u).2.2]
      by_cases slept : state.rests u = true
      · rw [if_pos ⟨rfl, slept⟩, Bool.false_and]
      · rw [if_neg (fun own => slept own.2)]
        exact (Bool.not_eq_true _).mp slept
    refine ⟨1, ?_, fun member => ?_, fun _ _ => ⟨by decide, awake⟩⟩
    · rw [heap, Function.update_self, awake]
      rfl
    · exact absurd (List.mem_map_of_mem member) distinct.1

/-- A thread writes to its own semaphore, or deletes it, and no other changes. -/
theorem Waiters.own (waiters : Waiters current state)
    (has : (state.threads t).waiter = some waiter)
    (threads : after.threads = Function.update state.threads t progress)
    (keeps : progress.waiter = some waiter ∨ progress.waiter = none)
    (heap
      : ∀ address, address ≠ waiter.address → after.heap address = state.heap address)
    (asleep : ∀ u, u ≠ t → after.asleep u = state.asleep u)
    (same : pending next after = pending current state)
    (waits
      : waiter ∈ pending current state
        → (state.threads t).waits = some waiter
        → progress.waits = some waiter)
    (own : Owned next after t)
    : Waiters next after := by
  have apart {u : ι} (away : u ≠ t) {pointer : Pointer}
      (other : (state.threads u).waiter = some pointer)
      : waiter.address ≠ pointer.address :=
    fun shared => away (waiters.apart t u waiter pointer has other shared).symm
  have mine : after.threads t = progress := by rw [threads, Function.update_self]
  refine waiters.change t (fun u away => ?_) (fun u away => ?_) (fun u away _ => ?_)
    (fun u pointer away other => ⟨?_, ?_, ?_⟩) ?_ (same ▸ waiters.distinct) own
  · rw [threads, Function.update_of_ne away]
  · rw [threads, Function.update_of_ne away]
  · rw [State.rests, State.rests, threads, Function.update_of_ne away, asleep u away]
  · exact heap _ (apart away other).symm
  · rw [same]
  · intro kept held
    rw [mine] at held
    rcases keeps with stays | gone
    · exact Option.some.inj (stays.symm.trans held) ▸ apart away other
    · exact nomatch gone.symm.trans held
  · intro pointer member
    rw [same] at member
    obtain ⟨u, other⟩ := waiters.waiting pointer member
    by_cases away : u = t
    · subst away
      have shared := has.symm.trans (Progress.waiter_of_waits other)
      obtain rfl := Option.some.inj shared
      exact .inl (mine ▸ waits member other)
    · exact .inr ⟨u, away, other⟩

omit [DecidableEq ι] in
/-- A thread that is awake in `P` of its semaphore finds it, with an empty queue. -/
theorem Waiters.exists_of_p (waiters : Waiters current state)
    (inP : state.threads t = .p waiter) (awake : state.asleep t = false)
    : ∃ value,
        state.heap waiter.address
          = some { object := waiter.object, semaphore := { value, queue := [] } }
        ∧ (waiter ∈ pending current state ↔ value = 0) := by
  obtain ⟨value, found, zero, signalled⟩ := waiters.owned t waiter (by rw [inP]; rfl)
  rw [State.rests, awake, Bool.false_and] at found
  refine ⟨value, found, zero, fun none => ?_⟩
  by_contra absent
  exact (signalled (by rw [inP]; rfl) absent).1 none

/-- A thread takes the unit of its semaphore. -/
theorem Waiters.pass (waiters : Waiters current state) (inP : state.threads t = .p waiter)
    {value : Int} (absent : waiter ∉ pending current state)
    (threads : after.threads = Function.update state.threads t (.acquire (.wait waiter)))
    (heap
      : after.heap
        = Function.update state.heap waiter.address
            (some { object := waiter.object, semaphore := { value, queue := [] } }))
    (asleep : after.asleep = state.asleep)
    (same : pending current after = pending current state)
    : Waiters current after := by
  refine waiters.own (by rw [inP]; rfl) threads (.inl rfl)
    (fun address away => by rw [heap, Function.update_of_ne away]) (fun _ _ => by rw [asleep])
    same (fun member => absurd member absent) ?_
  have mine : after.threads t = .acquire (.wait waiter) := by
    rw [threads, Function.update_self]
  have awake : after.rests t = false := by
    rw [State.rests, mine]
    exact Bool.and_false _
  intro pointer has
  rw [mine] at has
  obtain rfl := Option.some.inj has
  refine ⟨value, ?_, fun member => absurd (same ▸ member) absent, ?_⟩
  · rw [heap, Function.update_self, awake]
    rfl
  · rw [mine]
    exact nofun

/-- A thread goes to sleep in the queue of its semaphore. -/
theorem Waiters.sleep (waiters : Waiters current state) (inP : state.threads t = .p waiter)
    (member : waiter ∈ pending current state)
    (threads : after.threads = state.threads)
    (heap
      : after.heap
        = Function.update state.heap waiter.address
            (some { object := waiter.object, semaphore := { value := 0, queue := [t] } }))
    (asleep : after.asleep = Function.update state.asleep t true)
    (same : pending current after = pending current state)
    : Waiters current after := by
  have stays : after.threads = Function.update state.threads t (.p waiter) := by
    rw [threads, ← inP, Function.update_eq_self]
  refine waiters.own (by rw [inP]; rfl) stays (.inl rfl)
    (fun address away => by rw [heap, Function.update_of_ne away])
    (fun u away => by rw [asleep, Function.update_of_ne away])
    same (fun _ _ => rfl) ?_
  have mine : after.threads t = .p waiter := by rw [threads, inP]
  have slept : after.rests t = true := by
    rw [State.rests, mine, asleep, Function.update_self]
    rfl
  intro pointer has
  rw [mine] at has
  obtain rfl := Option.some.inj has
  refine ⟨0, ?_, fun _ => rfl, fun _ absent => absurd (same ▸ member) absent⟩
  rw [heap, Function.update_self, slept]
  rfl

/-- A thread deletes its semaphore. -/
theorem Waiters.delete (waiters : Waiters current state)
    (deletes : state.threads t = .delete waiter)
    (threads : after.threads = Function.update state.threads t .test)
    (heap : after.heap = Function.update state.heap waiter.address none)
    (asleep : after.asleep = state.asleep)
    (same : pending current after = pending current state)
    : Waiters current after := by
  refine waiters.own (by rw [deletes]; rfl) threads (.inr rfl)
    (fun address away => by rw [heap, Function.update_of_ne away]) (fun _ _ => by rw [asleep])
    same (fun _ waits => ?_) (fun pointer has => ?_)
  · rw [deletes] at waits
    exact nomatch waits
  · rw [threads, Function.update_self] at has
    exact nomatch has

-----------------------------------------------------------------------------------------
-- Threads that come for items
-----------------------------------------------------------------------------------------

namespace Progress

/-- One, for a thread that has the lock and will take an item or signal a thread that will. -/
def share : Progress α → Nat
  | .acquired .removeFront | .acquired (.wait _) | .delete _ | .test | .remove
  | .signal | .v _ => 1
  | _ => 0

theorem share_le_one (progress : Progress α) : progress.share ≤ 1 := by
  unfold share
  split <;> decide

end Progress

/-- A thread was signalled in `Wait` and will take the lock. -/
def Coming (state : State ι α) (t : ι) : Prop :=
  (∃ waiter, state.threads t = .acquire (.wait waiter))
  ∨ ∃ waiter semaphore,
      state.threads t = .p waiter
      ∧ state.heap waiter.address = some { object := waiter.object, semaphore }
      ∧ semaphore.value ≠ 0

/-- The share of the thread that has the lock. -/
def share (current : Option ι) (state : State ι α) : Nat :=
  current.elim 0 (fun t => (state.threads t).share)

/-- While a semaphore is in the queue, for every item a thread comes or is there. -/
def Covered (current : Option ι) (state : State ι α) : Prop :=
  state.waitQueue ≠ []
    → ∃ coming : List ι,
        coming.Nodup
        ∧ (∀ t ∈ coming, Coming state t)
        ∧ state.list.length ≤ coming.length + share current state

omit [DecidableEq ι] in
theorem covered_initial : Covered none (initial : State ι α) := fun some => absurd rfl some

omit [DecidableEq ι] in
theorem Covered.of_empty (empty : after.list = []) : Covered next after :=
  fun _ => ⟨[], List.nodup_nil, nofun, by simp [empty]⟩

omit [DecidableEq ι] in
/-- The waiters stay covered when no one who is coming goes and no share is lost. -/
theorem Covered.keep (covered : Covered current state)
    (waitQueue : after.waitQueue ≠ [] → state.waitQueue ≠ [])
    (coming : ∀ u, Coming state u → Coming after u)
    (shares
      : after.waitQueue ≠ []
        → after.list.length + share current state ≤ state.list.length + share next after)
    : Covered next after := by
  intro some
  obtain ⟨list, distinct, each, enough⟩ := covered (waitQueue some)
  refine ⟨list, distinct, fun u member => coming u (each u member), ?_⟩
  have shares := shares some
  omega

omit [DecidableEq ι] in
/-- A thread that is coming does not have the lock yet, by cases on where it is. -/
theorem Coming.not_hasLock (coming : Coming state t) : (state.threads t).hasLock = false := by
  rcases coming with ⟨_, same⟩ | ⟨_, _, same, _⟩
  · rw [same]
    rfl
  · rw [same]
    rfl

omit [DecidableEq ι] in
/-- A thread whose semaphore has no unit does not come. -/
theorem not_coming_of_zero {semaphore : Semaphore ι} (inP : state.threads t = .p waiter)
    (found : state.heap waiter.address = some { object := waiter.object, semaphore })
    (zero : semaphore.value = 0)
    : ¬Coming state t := by
  rintro (⟨_, same⟩ | ⟨_, _, same, stored, signalled⟩)
  · exact nomatch inP.symm.trans same
  · obtain rfl := Progress.p.inj (inP.symm.trans same)
    obtain rfl := (Cell.mk.inj (Option.some.inj (found.symm.trans stored))).2
    exact signalled zero

omit [DecidableEq ι] in
/-- A thread still comes when another one goes on. -/
theorem Coming.congr (coming : Coming state t) (threads : after.threads t = state.threads t)
    (heap
      : ∀ waiter, state.threads t = .p waiter
        → after.heap waiter.address = state.heap waiter.address)
    : Coming after t := by
  rcases coming with ⟨waiter, same⟩ | ⟨waiter, semaphore, same, found, signalled⟩
  · exact .inl ⟨waiter, threads.trans same⟩
  · exact .inr ⟨waiter, semaphore, threads.trans same, (heap waiter same).trans found, signalled⟩

omit [DecidableEq ι] in
/-- One more thread comes. -/
theorem Covered.signal (covered : Covered current state) {u : ι} (absent : ¬Coming state u)
    (comes : Coming after u) (others : ∀ v, v ≠ u → Coming state v → Coming after v)
    (list : after.list = state.list) (waitQueue : after.waitQueue = state.waitQueue)
    (shares : share current state ≤ share next after + 1)
    : Covered next after := by
  intro some
  obtain ⟨coming, distinct, each, enough⟩ := covered (waitQueue ▸ some)
  have fresh : u ∉ coming := fun member => absent (each u member)
  refine ⟨u :: coming, List.nodup_cons.mpr ⟨fresh, distinct⟩, fun v member => ?_, ?_⟩
  · rcases List.mem_cons.mp member with rfl | member
    · exact comes
    · exact others v (fun same => fresh (same ▸ member)) (each v member)
  · rw [list, List.length_cons]
    omega

/-- A thread that may have come takes the lock. -/
theorem Covered.pass (covered : Covered none state) (t : ι)
    (others : ∀ v, v ≠ t → Coming state v → Coming after v)
    (list : after.list = state.list) (waitQueue : after.waitQueue = state.waitQueue)
    (here : Coming state t → share next after = 1)
    : Covered next after := by
  intro some
  obtain ⟨coming, distinct, each, enough⟩ := covered (waitQueue ▸ some)
  change state.list.length ≤ coming.length + 0 at enough
  refine ⟨coming.erase t, distinct.erase t, fun v member => ?_, ?_⟩
  · obtain ⟨away, member⟩ := distinct.mem_erase_iff.mp member
    exact others v away (each v member)
  · rw [list]
    by_cases member : t ∈ coming
    · have shorter := List.length_erase_of_mem member
      have here := here (each t member)
      omega
    · rw [List.erase_of_not_mem member]
      omega

end Nachos.SynchList
