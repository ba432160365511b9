import Mathlib.Data.Finset.Card
import Nachos.Threads.BegunThreads

/-! The counter of running programs: it is the number of the threads of `Exec` that have begun
and not finished.
-/

namespace Nachos.Threads

namespace Kernel

variable {kernel after : Kernel} {t : ThreadId}

-----------------------------------------------------------------------------------------
-- The counter
-----------------------------------------------------------------------------------------

/-- Each thread begins at most once, and until the machine halts the counter is the number of
the threads of `Exec` that have begun and not finished.
-/
structure Tally (kernel : Kernel) : Prop where
  execExit : kernel.execExit = true
  once : ∀ t, beginnings (kernel.calls t) ≤ 1
  counted : kernel.control ≠ .halted →
    ∃ counted : Finset ThreadId,
      (∀ t, t ∈ counted ↔ kernel.Counted t) ∧ kernel.execRunningNum = counted.card

/-- Steps that count nobody and leave the counter alone. -/
theorem Tally.of_counted (tally : kernel.Tally) (going : kernel.control ≠ .halted)
    (execExit : after.execExit = kernel.execExit)
    (once : ∀ t, beginnings (after.calls t) ≤ 1)
    (execRunningNum : after.execRunningNum = kernel.execRunningNum)
    (same : ∀ t, after.Counted t ↔ kernel.Counted t)
    : after.Tally := by
  refine ⟨execExit.trans tally.execExit, once, fun _ => ?_⟩
  obtain ⟨counted, members, number⟩ := tally.counted going
  exact ⟨counted, fun t => (members t).trans (same t).symm, execRunningNum.trans number⟩

theorem Tally.of_keeps (tally : kernel.Tally) (going : kernel.control ≠ .halted)
    (keeps : Keeps kernel after)
    : after.Tally :=
  tally.of_counted going keeps.execExit
    (fun t => (keeps.beginnings t).trans (tally.once t)) keeps.execRunningNum keeps.counted

/-- New calls of one thread, in which it begins at most once. -/
theorem Tally.once_update (tally : kernel.Tally) {calls : List Frame}
    (once : beginnings calls ≤ 1)
    : ∀ other, beginnings (Function.update kernel.calls t calls other) ≤ 1 :=
  (Function.forall_update_iff kernel.calls (fun _ own => beginnings own ≤ 1)).mpr
    ⟨once, fun other _ => tally.once other⟩

/-- A new thread has not begun. -/
theorem tally_construct (tally : kernel.Tally) (going : kernel.control ≠ .halted)
    (free : kernel.scheduler.threads t = none) (initPriority : Int)
    : (kernel.construct t initPriority).Tally := by
  have statuses : (kernel.construct t initPriority).scheduler.statusOf
      = Function.update kernel.scheduler.statusOf t (some .new) :=
    SchedulerState.statusOf_put ..
  refine tally.of_counted going rfl (tally.once_update (Nat.zero_le _)) rfl (fun other => ?_)
  rw [Counted, Counted, Begun, Begun, statuses]
  by_cases same : other = t
  · rw [same, Function.update_self]
    simp [Ongoing, SchedulerState.statusOf, free]
  · change Function.update kernel.isExec t false other = true
      ∧ _ ∧ beginnings (Function.update kernel.calls t [] other) = 0 ↔ _
    rw [Function.update_of_ne same, Function.update_of_ne same, Function.update_of_ne same]

/-- A thread of `Exec` is marked before it begins. -/
theorem tally_setIsExec (tally : kernel.Tally) (going : kernel.control ≠ .halted)
    (early : ¬kernel.Begun t)
    : Tally { kernel with isExec := Function.update kernel.isExec t true } := by
  refine tally.of_counted going rfl tally.once rfl (fun other => ?_)
  rw [Counted, Counted]
  by_cases same : other = t
  · rw [same]
    exact iff_of_false (fun holds => early holds.2) (fun holds => early holds.2)
  · change Function.update kernel.isExec t true other = true ∧ kernel.Begun other ↔ _
    rw [Function.update_of_ne same]

/-- A forked thread has yet to begin. -/
theorem tally_fork (tally : kernel.Tally) (working : kernel.Working)
    (isNew : kernel.scheduler.statusOf t = some .new) (forked : kernel.fork t = .ok after)
    : after.Tally := by
  have going : kernel.control ≠ .halted := by simp [working.control]
  obtain ⟨scheduler, ready, _, changes⟩ :=
    @exists_readyToRun
      {
        kernel with
        calls := Function.update kernel.calls t [.begin]
        interrupt.level := .intOff
      } _ _ _ working.active.sound.accurate rfl isNew (.inl rfl)
  simp only [fork, setLevel_off, ready, bind, Except.bind] at forked
  suffices Tally
      {
        kernel with
        calls := Function.update kernel.calls t [.begin]
        interrupt.level := .intOff
        scheduler
        history := kernel.history ++ [.readied t]
      } from
    this.of_keeps going (keeps_setLevel forked)
  refine tally.of_counted going rfl (tally.once_update (Nat.le_refl 1)) rfl (fun other => ?_)
  rw [Counted, Counted, Begun, Begun]
  change _ ∧ Ongoing (scheduler.statusOf other)
    ∧ beginnings (Function.update kernel.calls t [.begin] other) = 0 ↔ _
  by_cases same : other = t
  · rw [same, Function.update_self]
    refine iff_of_false ?_ (fun holds => ?_)
    · rintro ⟨_, _, holds⟩
      cases holds
    · simp [Ongoing, isNew] at holds
  · rw [changes, Function.update_of_ne same, Function.update_of_ne same]

/-- A thread that leaves `Begin` has nothing left to begin. -/
theorem Tally.beginnings_pop {rest : List Frame} (tally : kernel.Tally)
    (frames : kernel.calls kernel.currentThread = .begun :: rest)
    : ∀ other, beginnings (kernel.pop.calls other)
      = if other = kernel.currentThread then 0 else beginnings (kernel.calls other) := by
  have once := tally.once kernel.currentThread
  rw [frames, beginnings, List.countP_cons_of_pos rfl] at once
  intro other
  by_cases same : other = kernel.currentThread
  · rw [same, if_pos rfl, calls_pop, frames, List.tail_cons, beginnings]
    omega
  · rw [if_neg same]
    exact congrArg beginnings (Function.update_of_ne same _ _)

/-- It has begun then, and the others as before. -/
theorem Tally.begun_pop {rest : List Frame} (tally : kernel.Tally) (active : kernel.Active)
    (frames : kernel.calls kernel.currentThread = .begun :: rest) (other : ThreadId)
    : kernel.pop.Begun other ↔ other = kernel.currentThread ∨ kernel.Begun other := by
  rw [Begun, Begun, tally.beginnings_pop frames]
  change Ongoing (kernel.scheduler.statusOf other) ∧ _ ↔ _
  by_cases same : other = kernel.currentThread
  · rw [same]
    simp [Ongoing, (active.running _).mpr rfl]
  · simp [same]

/-- The current thread counts itself, with its status unchanged. -/
theorem tally_begun {rest : List Frame} (tally : kernel.Tally) (invariant : kernel.Invariant)
    (control : kernel.control = .thread)
    (frames : kernel.calls kernel.currentThread = .begun :: rest)
    (resumed : kernel.resume = .ok after)
    : after.Tally := by
  have going : kernel.control ≠ .halted := by simp [control]
  have active : kernel.Active := by
    rcases invariant.of_thread control with working | returning | switched
    · exact working.active
    · exact returning.active
    · have suspended := switched.suspended
      rw [frames] at suspended
      cases suspended
  have unbegun : ¬kernel.Begun kernel.currentThread := by
    rintro ⟨_, none⟩
    simp [frames, beginnings, Frame.starts] at none
  have begun := tally.begun_pop active frames
  have single (other : ThreadId) : beginnings (kernel.pop.calls other) ≤ 1 := by
    rw [tally.beginnings_pop frames]
    split
    · exact Nat.zero_le _
    · exact tally.once other
  obtain ⟨counted, members, number⟩ := tally.counted going
  simp only [resume, frames] at resumed
  have fresh : kernel.currentThread ∉ counted := fun member =>
    unbegun ((members _).mp member).2
  by_cases isExec : kernel.isExec kernel.currentThread = true
  · have counts : kernel.pop.execExit ∧ kernel.pop.isExec kernel.pop.currentThread :=
      ⟨tally.execExit, isExec⟩
    rw [if_pos counts] at resumed
    obtain rfl := Except.ok.inj resumed
    refine ⟨tally.execExit, single, fun _ => ⟨insert kernel.currentThread counted, ?_, ?_⟩⟩
    · intro other
      rw [Finset.mem_insert, members]
      change _ ↔ kernel.isExec other = true ∧ kernel.pop.Begun other
      rw [begun, Counted]
      by_cases same : other = kernel.currentThread
      · simp [same, isExec]
      · simp [same]
    · rw [Finset.card_insert_of_notMem fresh]
      change kernel.execRunningNum + 1 = _
      rw [number]
      rfl
  · have skips : ¬(kernel.pop.execExit ∧ kernel.pop.isExec kernel.pop.currentThread) :=
      fun counts => isExec counts.2
    rw [if_neg skips] at resumed
    obtain rfl := Except.ok.inj resumed
    refine ⟨tally.execExit, single, fun _ => ⟨counted, fun other => ?_, number⟩⟩
    rw [members]
    change _ ↔ kernel.isExec other = true ∧ kernel.pop.Begun other
    rw [begun, Counted]
    by_cases same : other = kernel.currentThread
    · simp [same, isExec]
    · simp [same]

/-- A thread that runs its own code is counted if `Exec` made it. -/
theorem counted_current (working : kernel.Working)
    (own : kernel.calls kernel.currentThread = [])
    : kernel.Counted kernel.currentThread ↔ kernel.isExec kernel.currentThread = true := by
  have begun : kernel.Begun kernel.currentThread :=
    ⟨.inr (.inl ((working.active.running _).mpr rfl)), by rw [own]; rfl⟩
  exact and_iff_left begun

/-- The current thread is no longer counted once it is in `Sleep` for good. -/
theorem begun_sleep (active : kernel.Active) (off : kernel.interrupt.level = .intOff)
    (slept : kernel.sleep true = .ok after) (other : ThreadId)
    : after.Begun other ↔ other ≠ kernel.currentThread ∧ kernel.Begun other := by
  obtain ⟨scheduler, done, _, changes, _⟩ :=
    exists_sleep active.sound.accurate active.running off true
  obtain rfl := Except.ok.inj (slept.symm.trans done)
  rw [Begun, Begun, changes]
  by_cases same : other = kernel.currentThread
  · simp [same, Ongoing]
  · simp [same]

/-- What `Finish` keeps while it puts the current thread to sleep. -/
theorem tally_sleep (tally : kernel.Tally) (working : kernel.Working)
    (own : kernel.calls kernel.currentThread = []) {number : Int}
    (changed
      : number = kernel.execRunningNum - if kernel.isExec kernel.currentThread then 1 else 0)
    (slept
      : sleep true { kernel with interrupt.level := .intOff, execRunningNum := number }
          = .ok after)
    : after.Tally := by
  have going : kernel.control ≠ .halted := by simp [working.control]
  have active : Active { kernel with interrupt.level := .intOff, execRunningNum := number } :=
    working.active.congr ⟨rfl, rfl, rfl, rfl, rfl, rfl, rfl⟩
  have begun := begun_sleep active rfl slept
  obtain ⟨scheduler, done, _⟩ := exists_sleep active.sound.accurate active.running rfl true
  obtain rfl := Except.ok.inj (slept.symm.trans done)
  obtain ⟨counted, members, size⟩ := tally.counted going
  have current := counted_current working own
  refine ⟨tally.execExit, tally.once, fun _ => ⟨counted.erase kernel.currentThread, ?_, ?_⟩⟩
  · intro other
    rw [Finset.mem_erase, members, Counted, Counted, begun]
    constructor
    · rintro ⟨apart, isExec, past⟩
      exact ⟨isExec, apart, past⟩
    · rintro ⟨isExec, apart, past⟩
      exact ⟨apart, isExec, past⟩
  · change number = _
    rw [changed, size]
    by_cases isExec : kernel.isExec kernel.currentThread = true
    · have member := (members _).mpr (current.mpr isExec)
      rw [if_pos isExec, ← Finset.card_erase_add_one member]
      omega
    · have absent : kernel.currentThread ∉ counted := fun member =>
        isExec (current.mp ((members _).mp member))
      rw [if_neg isExec, Finset.erase_eq_of_notMem absent]
      omega

/-- Finish keeps the tally of running programs, by cases on whether the machine halts. -/
theorem tally_finish (tally : kernel.Tally) (working : kernel.Working)
    (own : kernel.calls kernel.currentThread = []) (finished : kernel.finish = .ok after)
    : after.Tally := by
  simp only [finish, setLevel_off, bind, Except.bind] at finished
  split at finished
  · rename_i counts
    split at finished
    · obtain rfl := Except.ok.inj finished
      exact ⟨tally.execExit, tally.once, fun going => absurd rfl going⟩
    · exact tally_sleep tally working own (by rw [if_pos counts.2]) finished
  · rename_i skips
    have plain : ¬kernel.isExec kernel.currentThread = true := fun isExec =>
      skips ⟨tally.execExit, isExec⟩
    exact tally_sleep tally working own (by rw [if_neg plain, sub_zero]) finished

/-- Every step keeps the tally, by cases on whether it counts. -/
theorem Tally.step {action : Action} (tally : kernel.Tally) (invariant : kernel.Invariant)
    (step : Step kernel action after)
    (early : ∀ t, action = .call (.setIsExec t) → ¬kernel.Begun t)
    : after.Tally := by
  have going : kernel.control ≠ .halted := by
    intro halted
    have legal := step.1
    cases action <;> simp [Legal, halted] at legal
  by_cases counts : kernel.Counts action
  · obtain ⟨legal, performed⟩ := step
    cases action with
    | resume =>
        obtain ⟨rest, frames⟩ := counts
        exact tally_begun tally invariant legal.1 frames performed
    | call call =>
        have working := invariant.own legal.1 legal.2.1
        cases call with
        | construct t initPriority =>
            obtain rfl := Except.ok.inj performed
            exact tally_construct tally going legal.2.2 initPriority
        | setIsExec t =>
            obtain rfl := Except.ok.inj performed
            exact tally_setIsExec tally going (early t rfl)
        | fork t => exact tally_fork tally working legal.2.2 performed
        | finish => exact tally_finish tally working legal.2.1 performed
        | _ => exact absurd counts id
    | _ => exact absurd counts id
  · exact tally.of_keeps going (keeps_step invariant step counts)

end Kernel

end Nachos.Threads
