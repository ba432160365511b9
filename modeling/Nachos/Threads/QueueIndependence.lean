import Nachos.Lib.Outcome
import Nachos.Threads.Kernel

/-! What the kernel does apart from its ready lists does not depend on them, and leaves them as they
are.
-/

namespace Nachos.Threads
open Outcome

namespace Kernel

/-- The kernel with other ready lists. -/
def withQueue (kernel : Kernel) (queue : MultilevelThreadQueue) : Kernel :=
  { kernel with scheduler := { kernel.scheduler with readyList := queue } }

/-- A function that does the same whatever the ready lists are, and leaves them as they are. -/
def Blind (f : Kernel → Except Fault Kernel) : Prop :=
  ∀ kernel after queue,
    f kernel = .ok after → f (kernel.withQueue queue) = .ok (after.withQueue queue)

variable {t : ThreadId} {s : SemaphoreId} {f g : Kernel → Except Fault Kernel}

theorem Blind.ok {f : Kernel → Kernel}
    (same : ∀ kernel queue, f (kernel.withQueue queue) = (f kernel).withQueue queue)
    : Blind (fun kernel => .ok (f kernel)) :=
  fun kernel _ queue returned =>
    congrArg Except.ok ((same kernel queue).trans
      (congrArg (·.withQueue queue) (Except.ok.inj returned)))

/-- A function that does not look at the ready lists leaves them alone. -/
theorem Blind.readyList (blind : Blind f) {kernel after : Kernel} (returned : f kernel = .ok after)
    : after.scheduler.readyList = kernel.scheduler.readyList := by
  have again := blind kernel after kernel.scheduler.readyList returned
  have same : after = after.withQueue kernel.scheduler.readyList :=
    Except.ok.inj (returned.symm.trans again)
  rw [same]
  rfl

/-- By cases on its two conditions, neither of which is one on the lists. -/
theorem blind_setLevel (now : IntStatus) : Blind (setLevel now) := by
  intro kernel after queue returned
  by_cases prohibited : now = .intOn ∧ kernel.interrupt.inHandler
  · rw [setLevel, if_pos prohibited] at returned
    cases returned
  · have still : ¬(now = .intOn ∧ (kernel.withQueue queue).interrupt.inHandler) := prohibited
    rw [setLevel, if_neg prohibited] at returned
    rw [setLevel, if_neg still]
    dsimp only at returned ⊢
    by_cases enabling : now = .intOn ∧ kernel.interrupt.level = .intOff
    · have here : now = .intOn ∧ (kernel.withQueue queue).interrupt.level = .intOff := enabling
      rw [if_pos enabling] at returned
      rw [if_pos here, ← Except.ok.inj returned]
      rfl
    · have here : ¬(now = .intOn ∧ (kernel.withQueue queue).interrupt.level = .intOff) := enabling
      rw [if_neg enabling] at returned
      rw [if_neg here, ← Except.ok.inj returned]
      rfl

/-- A status changes the threads alone. -/
theorem setStatus_withQueue {kernel : Kernel} {st : ThreadStatus} {after : SchedulerState}
    (set : kernel.scheduler.setStatus t st = .ok after) (queue : MultilevelThreadQueue)
    : (kernel.withQueue queue).scheduler.setStatus t st = .ok { after with readyList := queue } := by
  obtain ⟨thread, changed, found, changes, rfl⟩ := SchedulerState.setStatus_eq_ok set
  exact @SchedulerState.setStatus_of (kernel.withQueue queue).scheduler _ _ _ _ found changes

/-- The switch to a thread does not look at the ready list, by cases on whether it finishes
another.
-/
theorem blind_run (t : ThreadId) (finishing : Bool) : Blind (run t finishing) := by
  intro kernel after queue returned
  obtain ⟨done, off, returned⟩ := of_bind_ok returned
  have off' : (kernel.withQueue queue).requireOff = .ok done := off
  by_cases marked : finishing = true ∧ kernel.toBeDestroyed ≠ none
  · rw [if_pos marked] at returned
    cases returned
  · have still : ¬(finishing = true ∧ (kernel.withQueue queue).toBeDestroyed ≠ none) := marked
    rw [if_neg marked] at returned
    obtain ⟨scheduler, set, returned⟩ := of_bind_ok returned
    rw [run, bind_ok off', if_neg still, ← Except.ok.inj returned]
    dsimp only
    rw [bind_ok (setStatus_withQueue set queue)]
    rfl

/-- The start of Sleep does not look at the ready list. -/
theorem blind_sleep (finishing : Bool) : Blind (sleep finishing) := by
  intro kernel after queue returned
  obtain ⟨done, off, returned⟩ := of_bind_ok returned
  obtain ⟨scheduler, set, returned⟩ := of_bind_ok returned
  have off' : (kernel.withQueue queue).requireOff = .ok done := off
  have set' := setStatus_withQueue set queue
  rw [← Except.ok.inj returned, sleep, bind_ok off']
  exact bind_ok set' _

/-- By cases on the mark of a finished thread. -/
theorem blind_checkToBeDestroyed : Blind checkToBeDestroyed := by
  intro kernel after queue returned
  have marked : (kernel.withQueue queue).toBeDestroyed = kernel.toBeDestroyed := rfl
  rw [checkToBeDestroyed] at returned ⊢
  rw [marked]
  cases destroyed : kernel.toBeDestroyed with
  | none =>
      rw [destroyed] at returned
      rw [← Except.ok.inj returned]
      rfl
  | some t =>
      rw [destroyed] at returned
      obtain ⟨thread, found, returned⟩ := of_bind_ok returned
      have found' : (kernel.withQueue queue).scheduler.lookup t = .ok thread := found
      dsimp only
      rw [bind_ok found']
      by_cases own : t = kernel.currentThread
      · rw [if_pos own] at returned
        cases returned
      · have other : ¬t = (kernel.withQueue queue).currentThread := own
        rw [if_neg own] at returned
        rw [if_neg other, ← Except.ok.inj returned]
        rfl

/-- By cases on the value of the semaphore. -/
theorem blind_wait (s : SemaphoreId) (oldLevel : IntStatus) : Blind (wait s oldLevel) := by
  intro kernel after queue returned
  obtain ⟨semaphore, found, returned⟩ := of_bind_ok returned
  have found' : (kernel.withQueue queue).lookup s = .ok semaphore := found
  rw [wait, bind_ok found']
  by_cases zero : semaphore.value = 0
  · rw [if_pos zero] at returned ⊢
    by_cases member : kernel.currentThread ∈ semaphore.queue
    · rw [if_pos member] at returned
      cases returned
    · have outside : ¬(kernel.withQueue queue).currentThread ∈ semaphore.queue := member
      rw [if_neg member] at returned
      rw [if_neg outside]
      exact blind_sleep false _ after queue returned
  · rw [if_neg zero] at returned ⊢
    exact blind_setLevel oldLevel _ after queue returned

theorem blind_p (s : SemaphoreId) : Blind (p s) := by
  intro kernel after queue returned
  obtain ⟨off, set, returned⟩ := of_bind_ok returned
  exact (bind_ok (blind_setLevel .intOff kernel off queue set) _).trans
    (blind_wait s kernel.interrupt.level off after queue returned)

/-- By cases on whether the thread is counted, and is the last of those. -/
theorem blind_finish : Blind finish := by
  intro kernel after queue returned
  obtain ⟨off, set, returned⟩ := of_bind_ok returned
  rw [finish, bind_ok (blind_setLevel .intOff kernel off queue set)]
  by_cases counted : off.execExit = true ∧ off.isExec off.currentThread = true
  · have counted' : (off.withQueue queue).execExit = true
        ∧ (off.withQueue queue).isExec (off.withQueue queue).currentThread = true := counted
    rw [if_pos counted] at returned
    rw [if_pos counted']
    dsimp only at returned ⊢
    by_cases last : off.execRunningNum - 1 = 0
    · have last' : (off.withQueue queue).execRunningNum - 1 = 0 := last
      rw [if_pos last] at returned
      rw [if_pos last', ← Except.ok.inj returned]
      rfl
    · have more : ¬(off.withQueue queue).execRunningNum - 1 = 0 := last
      rw [if_neg last] at returned
      rw [if_neg more]
      exact blind_sleep true _ after queue returned
  · have others : ¬((off.withQueue queue).execExit = true
        ∧ (off.withQueue queue).isExec (off.withQueue queue).currentThread = true) := counted
    rw [if_neg counted] at returned
    rw [if_neg others]
    exact blind_sleep true off after queue returned

/-- By cases on the topmost call. -/
theorem blind_resume : Blind resume := by
  intro kernel after queue returned
  have calls : (kernel.withQueue queue).calls (kernel.withQueue queue).currentThread
      = kernel.calls kernel.currentThread := rfl
  rw [resume] at returned ⊢
  rw [calls]
  cases own : kernel.calls kernel.currentThread with
  | nil =>
      rw [own] at returned
      rw [← Except.ok.inj returned]
  | cons frame rest =>
      rw [own] at returned
      cases frame with
      | begin =>
          obtain ⟨checked, deleted, returned⟩ := of_bind_ok returned
          exact (bind_ok (blind_checkToBeDestroyed kernel.pop checked queue deleted) _).trans
            (blind_setLevel .intOn _ after queue returned)
      | begun =>
          dsimp only at returned ⊢
          by_cases counted : kernel.pop.execExit = true
              ∧ kernel.pop.isExec kernel.pop.currentThread = true
          · have counted' : (kernel.withQueue queue).pop.execExit = true
                ∧ (kernel.withQueue queue).pop.isExec (kernel.withQueue queue).pop.currentThread
                  = true := counted
            rw [if_pos counted] at returned
            rw [if_pos counted', ← Except.ok.inj returned]
            rfl
          · have others : ¬((kernel.withQueue queue).pop.execExit = true
                ∧ (kernel.withQueue queue).pop.isExec (kernel.withQueue queue).pop.currentThread
                  = true) := counted
            rw [if_neg counted] at returned
            rw [if_neg others, ← Except.ok.inj returned]
            rfl
      | run =>
          obtain ⟨done, off, returned⟩ := of_bind_ok returned
          have off' : (kernel.withQueue queue).requireOff = .ok done := off
          exact (bind_ok off' _).trans
            (blind_checkToBeDestroyed kernel.pop after queue returned)
      | yield oldLevel => exact blind_setLevel oldLevel kernel.pop after queue returned
      | p s oldLevel => exact blind_wait s oldLevel kernel.pop after queue returned
      | oneTick oldStatus =>
          rw [← Except.ok.inj returned]
          rfl

end Kernel

end Nachos.Threads
