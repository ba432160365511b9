import Mathlib.Data.List.Nodup
import Nachos.Threads.SynchList

/-! The lock of a `SynchList` lets one thread at a time use the list, so that calls have the
effect of their turns, taken one after the other.
-/

namespace Nachos.SynchList
open Outcome
open SynchDevice (Semaphore)

variable {ι α : Type}

-----------------------------------------------------------------------------------------
-- Places in a call
-----------------------------------------------------------------------------------------

namespace Progress

/-- Whether a thread is between `P` and `V` of the lock. -/
def hasLock : Progress α → Bool
  | .outside | .acquire _ | .p _ => false
  | .acquired _ | .append _ | .signal | .v _ | .test | .remove | .wait | .enqueue _
  | .release _ | .released _ | .delete _ => true

/-- Whether `lockHolder` names a thread that has the lock. -/
def isHolder : Progress α → Bool
  | .outside | .acquire _ | .p _ | .acquired _ | .released _ => false
  | .append _ | .signal | .v _ | .test | .remove | .wait | .enqueue _ | .release _
  | .delete _ => true

/-- Whether a thread is in `P` of the lock. -/
def atLock : Progress α → Bool
  | .acquire _ => true
  | _ => false

/-- Whether a thread is in `P` of its own semaphore. -/
def inP : Progress α → Bool
  | .p _ => true
  | _ => false

theorem hasLock_of_isHolder {progress : Progress α} (holder : progress.isHolder = true)
    : progress.hasLock = true := by
  cases progress <;> first | rfl | exact nomatch holder

theorem not_atLock_of_inP {progress : Progress α} (inside : progress.inP = true)
    : progress.atLock = false := by
  cases progress <;> first | rfl | exact nomatch inside

theorem not_atLock_of_hasLock {progress : Progress α} (has : progress.hasLock = true)
    : progress.atLock = false := by
  cases progress <;> first | rfl | exact nomatch has

theorem not_inP_of_hasLock {progress : Progress α} (has : progress.hasLock = true)
    : progress.inP = false := by
  cases progress <;> first | rfl | exact nomatch has

end Progress

@[simp]
theorem hasLock_next (entry : Entry α) : entry.next.hasLock = true := by cases entry <;> rfl

-----------------------------------------------------------------------------------------
-- The lock
-----------------------------------------------------------------------------------------

/-- At most one thread has the lock, and threads in its queue sleep. `current` is the thread
that has it.
-/
structure Mutex (current : Option ι) (state : State ι α) : Prop where
  only : ∀ t, (state.threads t).hasLock = true ↔ current = some t
  value : state.lock.value = if current = none then 1 else 0
  holder : ∀ t, (state.threads t).isHolder = true → state.lockHolder = some t
  queue
    : ∀ t, t ∈ state.lock.queue
      ↔ state.asleep t = true ∧ (state.threads t).atLock = true
  distinct : state.lock.queue.Nodup
  /-- While threads sleep and the lock is free, another thread is on its way to take it. -/
  free
    : current = none → state.lock.queue ≠ []
      → ∃ t, state.asleep t = false ∧ (state.threads t).atLock = true
  resting
    : ∀ t, state.asleep t = true
      → (state.threads t).atLock = true ∨ (state.threads t).inP = true

variable {current : Option ι} {state after : State ι α} {t : ι} {progress : Progress α}

/-- Before the first call the lock is free and nobody waits for it. -/
theorem mutex_initial : Mutex none (initial : State ι α) where
  only _ := iff_of_false nofun nofun
  value := rfl
  holder := nofun
  queue _ := iff_of_false List.not_mem_nil (fun asleep => nomatch asleep.1)
  distinct := List.nodup_nil
  free _ some := absurd rfl some
  resting := nofun

theorem Mutex.eq_none (mutex : Mutex current state)
    (free : ∀ t, (state.threads t).hasLock = false)
    : current = none := by
  cases current with
  | none => rfl
  | some t => exact nomatch (free t).symm.trans ((mutex.only t).mpr rfl)

/-- A thread that has the lock is awake. -/
theorem Mutex.awake (mutex : Mutex current state) (has : (state.threads t).hasLock = true)
    : state.asleep t = false := by
  rw [← Bool.not_eq_true]
  intro asleep
  rcases mutex.resting t asleep with atLock | inP
  · rw [Progress.not_atLock_of_hasLock has] at atLock
    exact nomatch atLock
  · rw [Progress.not_inP_of_hasLock has] at inP
    exact nomatch inP

variable [DecidableEq ι]

/-- What is the same for the next statement of a thread is the same for all threads. -/
theorem view_update {β : Type} {threads : ι → Progress α} {earlier : Progress α}
    (here : threads t = earlier) (view : Progress α → β) (same : view progress = view earlier)
    (u : ι)
    : view (Function.update threads t progress u) = view (threads u) := by
  by_cases own : u = t
  · rw [own, Function.update_self, same, here]
  · rw [Function.update_of_ne own]

/-- The thread that has the lock goes on, and may wake up one that is not in its queue. -/
theorem Mutex.move (mutex : Mutex current state) (has : (state.threads t).hasLock = true)
    (keeps : progress.hasLock = true)
    (threads : after.threads = Function.update state.threads t progress)
    (lock : after.lock = state.lock)
    (asleep
      : ∀ u, after.asleep u = state.asleep u
        ∨ (after.asleep u = false ∧ (state.threads u).atLock = false))
    (holder : progress.isHolder = true → after.lockHolder = some t)
    : Mutex current after := by
  have own := (mutex.only t).mp has
  have atLock (u : ι) : (after.threads u).atLock = (state.threads u).atLock := by
    rw [threads, view_update rfl Progress.atLock]
    rw [Progress.not_atLock_of_hasLock has, Progress.not_atLock_of_hasLock keeps]
  have inP (u : ι) : (after.threads u).inP = (state.threads u).inP := by
    rw [threads, view_update rfl Progress.inP]
    rw [Progress.not_inP_of_hasLock has, Progress.not_inP_of_hasLock keeps]
  refine {
    only := fun u => by
      rw [threads, view_update rfl Progress.hasLock (keeps.trans has.symm), mutex.only]
    value := lock ▸ mutex.value
    holder := fun u isHolder => ?_
    queue := fun u => ?_
    distinct := lock ▸ mutex.distinct
    free := fun free => absurd (own.symm.trans free) nofun
    resting := fun u rests => ?_
  }
  · rw [threads] at isHolder
    by_cases same : u = t
    · subst same
      rw [Function.update_self] at isHolder
      exact holder isHolder
    · rw [Function.update_of_ne same] at isHolder
      have other := (mutex.only u).mp (Progress.hasLock_of_isHolder isHolder)
      exact absurd (Option.some.inj (other.symm.trans own)) same
  · rw [lock, mutex.queue, atLock]
    rcases asleep u with same | ⟨_, away⟩
    · rw [same]
    · simp [away]
  · rcases asleep u with same | ⟨awake, _⟩
    · rw [same] at rests
      rw [atLock, inP]
      exact mutex.resting u rests
    · exact nomatch awake.symm.trans rests

/-- A thread that does not have the lock goes on. -/
theorem Mutex.aside (mutex : Mutex current state) (has : (state.threads t).hasLock = false)
    (keeps : progress.hasLock = false) (away : (state.threads t).atLock = false)
    (threads : after.threads = Function.update state.threads t progress)
    (lock : after.lock = state.lock) (lockHolder : after.lockHolder = state.lockHolder)
    (asleep : ∀ u, u ≠ t → after.asleep u = state.asleep u)
    (rests : after.asleep t = true → progress.inP = true)
    : Mutex current after := by
  have unheld {progress : Progress α} (lacks : progress.hasLock = false)
      : progress.isHolder ≠ true := by
    intro holder
    rw [Progress.hasLock_of_isHolder holder] at lacks
    exact nomatch lacks
  refine {
    only := fun u => by
      rw [threads, view_update rfl Progress.hasLock (keeps.trans has.symm), mutex.only]
    value := lock ▸ mutex.value
    holder := fun u isHolder => ?_
    queue := fun u => ?_
    distinct := lock ▸ mutex.distinct
    free := fun free sleeping => ?_
    resting := fun u resting => ?_
  }
  · rw [threads] at isHolder
    by_cases same : u = t
    · rw [same, Function.update_self] at isHolder
      exact absurd isHolder (unheld keeps)
    · rw [Function.update_of_ne same] at isHolder
      rw [lockHolder]
      exact mutex.holder u isHolder
  · rw [lock, mutex.queue, threads]
    by_cases same : u = t
    · subst same
      rw [Function.update_self, away]
      refine iff_of_false (fun own => nomatch own.2) (fun own => ?_)
      rw [Progress.not_atLock_of_inP (rests own.1)] at own
      exact nomatch own.2
    · rw [Function.update_of_ne same, asleep u same]
  · rw [lock] at sleeping
    obtain ⟨u, awake, atLock⟩ := mutex.free free sleeping
    have apart : u ≠ t := by
      rintro rfl
      exact nomatch away.symm.trans atLock
    exact ⟨u, (asleep u apart).trans awake, by rwa [threads, Function.update_of_ne apart]⟩
  · rw [threads]
    by_cases same : u = t
    · subst same
      rw [Function.update_self]
      exact .inr (rests resting)
    · rw [Function.update_of_ne same]
      exact mutex.resting u ((asleep u same).symm.trans resting)

/-- A thread finds the lock taken and goes to sleep. -/
theorem Mutex.sleep (mutex : Mutex current state) (atLock : (state.threads t).atLock = true)
    (awake : state.asleep t = false) (taken : state.lock.value = 0)
    (threads : after.threads = state.threads)
    (lock : after.lock = { state.lock with queue := state.lock.queue ++ [t] })
    (lockHolder : after.lockHolder = state.lockHolder)
    (asleep : after.asleep = Function.update state.asleep t true)
    : Mutex current after := by
  have held : current ≠ none := by
    intro free
    rw [mutex.value, if_pos free] at taken
    exact absurd taken (by decide)
  refine {
    only := threads ▸ mutex.only
    value := by rw [lock]; exact mutex.value
    holder := fun u isHolder => ?_
    queue := fun u => ?_
    distinct := ?_
    free := fun free => absurd free held
    resting := fun u resting => ?_
  }
  · rw [threads] at isHolder
    exact lockHolder.trans (mutex.holder u isHolder)
  · rw [lock, threads, asleep, List.mem_append, mutex.queue, List.mem_singleton]
    by_cases same : u = t
    · subst same
      simp [atLock]
    · simp [same]
  · rw [lock]
    refine List.nodup_append.mpr ⟨mutex.distinct, List.nodup_singleton t, ?_⟩
    rintro u member _ last rfl
    rw [List.mem_singleton.mp last, mutex.queue, awake] at member
    exact nomatch member.1
  · rw [threads]
    rw [asleep] at resting
    by_cases same : u = t
    · exact .inl (same ▸ atLock)
    · rw [Function.update_of_ne same] at resting
      exact mutex.resting u resting

/-- A thread finds the lock free and takes it. -/
theorem Mutex.pass (mutex : Mutex current state) (atLock : (state.threads t).atLock = true)
    (awake : state.asleep t = false) (free : state.lock.value ≠ 0) {entry : Entry α}
    (threads : after.threads = Function.update state.threads t (.acquired entry))
    (lock : after.lock = { state.lock with value := state.lock.value - 1 })
    (asleep : after.asleep = state.asleep)
    : current = none ∧ Mutex (some t) after := by
  have unheld : current = none := by
    by_contra held
    rw [mutex.value, if_neg held] at free
    exact free rfl
  subst unheld
  have lacks (u : ι) : (state.threads u).hasLock = false := by
    rw [← Bool.not_eq_true, mutex.only]
    exact nofun
  refine ⟨rfl, {
    only := fun u => ?_
    value := ?_
    holder := fun u isHolder => ?_
    queue := fun u => ?_
    distinct := by rw [lock]; exact mutex.distinct
    free := nofun
    resting := fun u resting => ?_
  }⟩
  · rw [threads]
    by_cases same : u = t
    · rw [same, Function.update_self]
      exact iff_of_true rfl rfl
    · rw [Function.update_of_ne same, lacks u, Option.some.injEq]
      exact iff_of_false nofun (Ne.symm same)
  · rw [lock, mutex.value]
    rfl
  · rw [threads] at isHolder
    by_cases same : u = t
    · rw [same, Function.update_self] at isHolder
      exact nomatch isHolder
    · rw [Function.update_of_ne same] at isHolder
      exact nomatch (lacks u).symm.trans (Progress.hasLock_of_isHolder isHolder)
  · rw [lock, mutex.queue, threads, asleep]
    by_cases same : u = t
    · subst same
      simp [awake]
    · rw [Function.update_of_ne same]
  · rw [threads]
    rw [asleep] at resting
    have apart : u ≠ t := by
      rintro rfl
      exact nomatch awake.symm.trans resting
    rw [Function.update_of_ne apart]
    exact mutex.resting u resting

/-- The thread that has the lock frees it, and wakes up the first one in its queue. -/
theorem Mutex.free_lock (mutex : Mutex current state) (has : (state.threads t).hasLock = true)
    (keeps : progress.hasLock = false) (away : progress.atLock = false)
    (threads : after.threads = Function.update state.threads t progress)
    (lock : after.lock = state.lock.v)
    (asleep : after.asleep = (state.wake state.lock.queue.head?).asleep)
    : Mutex none after := by
  have own := (mutex.only t).mp has
  have lacks (u : ι) : (after.threads u).hasLock = false := by
    rw [threads]
    by_cases same : u = t
    · rw [same, Function.update_self, keeps]
    · rw [Function.update_of_ne same, ← Bool.not_eq_true, mutex.only, own, Option.some.injEq]
      exact Ne.symm same
  have atLock (u : ι) : (after.threads u).atLock = (state.threads u).atLock := by
    rw [threads, view_update rfl Progress.atLock]
    rw [away, Progress.not_atLock_of_hasLock has]
  -- The first thread in the queue, if there is one, is the only one that wakes up.
  have woken : (after.lock.queue = [] ∧ state.lock.queue = [] ∧ after.asleep = state.asleep)
      ∨ ∃ first, state.lock.queue = first :: after.lock.queue
          ∧ after.asleep = Function.update state.asleep first false := by
    rw [lock, asleep]
    change (state.lock.queue.tail = [] ∧ _) ∨ ∃ first, _ = first :: state.lock.queue.tail ∧ _
    cases state.lock.queue with
    | nil => exact .inl ⟨rfl, rfl, rfl⟩
    | cons first rest => exact .inr ⟨first, rfl, rfl⟩
  have value : after.lock.value = 1 := by
    rw [lock]
    change state.lock.value + 1 = 1
    rw [mutex.value, own]
    rfl
  refine {
    only := fun u => iff_of_false (by simp [lacks]) nofun
    value := value
    holder := fun u isHolder =>
      nomatch (lacks u).symm.trans (Progress.hasLock_of_isHolder isHolder)
    queue := fun u => ?_
    distinct := ?_
    free := fun _ sleeping => ?_
    resting := fun u resting => ?_
  }
  · rw [atLock]
    have queue := mutex.queue u
    rcases woken with ⟨now, before, same⟩ | ⟨first, before, changed⟩
    · rwa [now, ← before, same]
    · have distinct := mutex.distinct
      rw [before] at queue distinct
      rw [changed]
      by_cases same : u = first
      · subst same
        simp [(List.nodup_cons.mp distinct).1]
      · rw [List.mem_cons, or_iff_right same] at queue
        rwa [Function.update_of_ne same]
  · rcases woken with ⟨now, _⟩ | ⟨first, before, _⟩
    · rw [now]
      exact List.nodup_nil
    · exact (List.nodup_cons.mp (before ▸ mutex.distinct)).2
  · rcases woken with ⟨now, _⟩ | ⟨first, before, changed⟩
    · exact absurd now sleeping
    · refine ⟨first, ?_, ?_⟩
      · rw [changed, Function.update_self]
      · rw [atLock]
        exact ((mutex.queue first).mp (before ▸ List.mem_cons_self ..)).2
  · have slept : state.asleep u = true := by
      rcases woken with ⟨_, _, same⟩ | ⟨first, _, changed⟩
      · rwa [same] at resting
      · rw [changed] at resting
        by_cases same : u = first
        · rw [same, Function.update_self] at resting
          exact nomatch resting
        · rwa [Function.update_of_ne same] at resting
    have apart : u ≠ t := by
      rintro rfl
      exact nomatch (mutex.awake has).symm.trans slept
    rw [threads, Function.update_of_ne apart]
    exact mutex.resting u slept

-----------------------------------------------------------------------------------------
-- Turns
-----------------------------------------------------------------------------------------

namespace Progress

/-- What a thread that has the lock will still do with the list. -/
def finish : Progress α → List α → Option α × List α
  | .acquired entry, list => entry.turn list
  | .append item, list => (none, list ++ [item])
  | .test, list | .remove, list | .delete _, list => take list
  | .release (.removeFront item), list | .released (.removeFront item), list => (some item, list)
  | _, list => (none, list)

/-- What a thread that has the lock found out about the list. -/
def Knows : Progress α → List α → Prop
  | .remove, list => list ≠ []
  | .wait, list | .enqueue _, list | .release (.wait _), list | .released (.wait _), list =>
      list = []
  | _, _ => True

theorem knows_of_not_hasLock {progress : Progress α} (lacks : progress.hasLock = false)
    (list : List α)
    : progress.Knows list := by
  cases progress <;> trivial

end Progress

/-- The outcome of the turns taken so far, when the thread that has the lock ends its own. -/
def ended (current : Option ι) (state : State ι α) : List (ι × α) × List α :=
  match current with
  | none => (state.returned, state.list)
  | some t =>
      let rest := (state.threads t).finish state.list
      (state.returned ++ rest.1.toList.map (t, ·), rest.2)

/-- The calls have the effect of their turns. -/
structure Served (current : Option ι) (state : State ι α) : Prop where
  outcome : serial state.turns [] = ended current state
  knows : ∀ t, (state.threads t).Knows state.list

omit [DecidableEq ι] in
theorem served_initial : Served none (initial : State ι α) where
  outcome := rfl
  knows _ := trivial

/-- The thread that has the lock goes on with its turn. -/
theorem Served.move (served : Served current state) (mutex : Mutex current state)
    (has : (state.threads t).hasLock = true)
    (threads : after.threads = Function.update state.threads t progress)
    (turns : after.turns = state.turns) (returned : after.returned = state.returned)
    (finish : progress.finish after.list = (state.threads t).finish state.list)
    (knows : progress.Knows after.list)
    : Served current after := by
  have own := (mutex.only t).mp has
  refine ⟨?_, ?_⟩
  · rw [turns, served.outcome, own]
    unfold ended
    dsimp only
    rw [threads, returned, Function.update_self, finish]
  · rw [threads]
    refine (Function.forall_update_iff state.threads (fun _ other => other.Knows after.list)).mpr
      ⟨knows, fun u same => Progress.knows_of_not_hasLock ?_ _⟩
    rw [← Bool.not_eq_true, mutex.only, own, Option.some.injEq]
    exact Ne.symm same

/-- A thread that does not have the lock goes on. -/
theorem Served.aside (served : Served current state) (mutex : Mutex current state)
    (has : (state.threads t).hasLock = false) (keeps : progress.hasLock = false)
    (threads : after.threads = Function.update state.threads t progress)
    (list : after.list = state.list) (turns : after.turns = state.turns)
    (returned : after.returned = state.returned)
    : Served current after := by
  refine ⟨?_, ?_⟩
  · rw [turns, served.outcome]
    cases current with
    | none =>
        unfold ended
        rw [list, returned]
    | some holder =>
        have apart : holder ≠ t := by
          rintro rfl
          exact nomatch has.symm.trans ((mutex.only holder).mpr rfl)
        unfold ended
        dsimp only
        rw [threads, Function.update_of_ne apart, list, returned]
  · rw [threads, list]
    exact (Function.forall_update_iff state.threads (fun _ other => other.Knows state.list)).mpr
      ⟨Progress.knows_of_not_hasLock keeps _, fun u _ => served.knows u⟩

/-- A turn begins. -/
theorem Served.pass (served : Served none state) {entry : Entry α}
    (threads : after.threads = Function.update state.threads t (.acquired entry))
    (list : after.list = state.list) (turns : after.turns = state.turns ++ [(t, entry)])
    (returned : after.returned = state.returned)
    : Served (some t) after := by
  refine ⟨?_, ?_⟩
  · rw [turns, serial_snoc, served.outcome]
    unfold ended
    dsimp only
    rw [threads, Function.update_self, list, returned]
    rfl
  · rw [threads, list]
    exact (Function.forall_update_iff state.threads (fun _ other => other.Knows state.list)).mpr
      ⟨trivial, fun u _ => served.knows u⟩

/-- A turn ends. -/
theorem Served.free (served : Served (some t) state) (mutex : Mutex (some t) state)
    {exit : Exit α} (releases : state.threads t = .released exit)
    (keeps : progress.hasLock = false)
    (threads : after.threads = Function.update state.threads t progress)
    (list : after.list = state.list) (turns : after.turns = state.turns)
    (returned
      : after.returned
        = state.returned
            ++ (((state.threads t).finish state.list).1.toList.map (t, ·)))
    : Served none after := by
  refine ⟨?_, fun u => Progress.knows_of_not_hasLock ?_ _⟩
  · rw [turns, served.outcome]
    unfold ended
    dsimp only
    rw [list, returned, releases]
    cases exit <;> rfl
  · rw [threads]
    by_cases same : u = t
    · rw [same, Function.update_self, keeps]
    · rw [Function.update_of_ne same, ← Bool.not_eq_true, mutex.only, Option.some.injEq]
      exact Ne.symm same

end Nachos.SynchList
