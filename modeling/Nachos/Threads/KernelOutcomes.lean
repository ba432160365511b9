import Nachos.Lib.Outcome
import Nachos.Threads.KernelSteps

/-! What each operation of the kernel has done once it returned: which thread has the
processor, and what became of semaphores, calls and statuses.
-/

namespace Nachos.Threads
open Outcome

-----------------------------------------------------------------------------------------
-- The scheduler
-----------------------------------------------------------------------------------------

namespace SchedulerState

variable {state after : SchedulerState} {t : ThreadId} {st : ThreadStatus}

/-- A thread that changed its status has the new one. -/
theorem status_of_setStatus {totalTicks : Int} {thread changed : Thread}
    (set : thread.setStatus totalTicks st = .ok changed)
    : changed.status = st := by
  unfold Thread.setStatus at set
  split at set
  all_goals first | (split at set <;> cases set <;> rfl) | (cases set; rfl)

/-- Only a ready thread can run. -/
theorem status_of_setStatus_running {totalTicks : Int} {thread changed : Thread}
    (set : thread.setStatus totalTicks .running = .ok changed)
    : thread.status = .ready := by
  by_contra other
  rw [Thread.setStatus, if_neg other] at set
  cases set

/-- A change of status is the only one. -/
theorem of_setStatus (returned : state.setStatus t st = .ok after)
    : (∃ before, state.statusOf t = some before)
      ∧ after.statusOf = Function.update state.statusOf t (some st)
      ∧ after.readyList = state.readyList := by
  obtain ⟨thread, found, returned⟩ := of_bind_ok returned
  obtain ⟨changed, set, returned⟩ := of_bind_ok returned
  obtain rfl := Except.ok.inj returned
  refine ⟨⟨thread.status, ?_⟩, ?_, rfl⟩
  · rw [statusOf, some_of_lookup found, Option.map_some]
  · rw [statusOf_put, status_of_setStatus set]

theorem of_setStatus_running (returned : state.setStatus t .running = .ok after)
    : state.statusOf t = some .ready
      ∧ after.statusOf = Function.update state.statusOf t (some .running) := by
  obtain ⟨thread, found, set⟩ := of_bind_ok returned
  obtain ⟨changed, set, _⟩ := of_bind_ok set
  refine ⟨?_, (of_setStatus returned).2.1⟩
  rw [statusOf, some_of_lookup found, Option.map_some, status_of_setStatus_running set]

/-- Queueing a thread changes no thread. -/
theorem of_append (returned : state.append t = .ok after) : after.threads = state.threads := by
  obtain ⟨thread, _, returned⟩ := of_bind_ok returned
  split at returned
  · obtain ⟨l1, _, returned⟩ := of_bind_ok returned
    exact Except.ok.inj returned ▸ rfl
  · obtain ⟨l2, _, returned⟩ := of_bind_ok returned
    exact Except.ok.inj returned ▸ rfl
  · split at returned
    · exact nomatch returned
    · exact Except.ok.inj returned ▸ rfl

/-- ReadyToRun that returned has made its thread ready and no other. -/
theorem of_readyToRun (returned : state.readyToRun t = .ok after)
    : after.statusOf = Function.update state.statusOf t (some .ready) := by
  obtain ⟨ready, set, returned⟩ := of_bind_ok returned
  rw [← (of_setStatus set).2.1]
  funext other
  rw [statusOf, of_append returned]
  rfl

/-- The next thread is the front of the lists, if there is one. -/
theorem of_findNextToRun {found : Option ThreadId}
    (returned : state.findNextToRun = .ok (found, after))
    : (state.readyList.threads = [] ∧ found = none ∧ after = state)
      ∨ ∃ t readyList,
          state.readyList.removeFront = .ok (t, readyList)
          ∧ found = some t
          ∧ after = { state with readyList } := by
  rcases findNextToRun_eq state with ⟨empty, same⟩ | ⟨t, readyList, removed, _, same⟩
  · obtain ⟨rfl, rfl⟩ := Prod.mk.inj (Except.ok.inj (returned.symm.trans same))
    exact .inl ⟨empty, rfl, rfl⟩
  · obtain ⟨rfl, rfl⟩ := Prod.mk.inj (Except.ok.inj (returned.symm.trans same))
    exact .inr ⟨t, readyList, removed, rfl, rfl⟩

end SchedulerState

namespace Kernel

variable {kernel after : Kernel} {t : ThreadId} {s : SemaphoreId}

-----------------------------------------------------------------------------------------
-- Interrupt levels
-----------------------------------------------------------------------------------------

/-- Nothing is asked of the interrupted thread, and no handler begins or ends. -/
structure Unasked (kernel after : Kernel) : Prop where
  inHandler : after.interrupt.inHandler = kernel.interrupt.inHandler
  yieldOnReturn : after.interrupt.yieldOnReturn = kernel.interrupt.yieldOnReturn

/-- A change of the level may let time pass, and no more. -/
theorem of_setLevel {now : IntStatus} (returned : kernel.setLevel now = .ok after)
    : Same kernel after ∧ Unasked kernel after := by
  by_cases forbidden : now = .intOn ∧ kernel.interrupt.inHandler = true
  · rw [setLevel, if_pos forbidden] at returned
    exact absurd returned not_throw_bind_ok
  · rw [setLevel, if_neg forbidden] at returned
    dsimp only at returned
    split at returned <;>
      obtain rfl := Except.ok.inj returned <;>
      exact ⟨⟨rfl, rfl, rfl, rfl, rfl, rfl, rfl⟩, ⟨rfl, rfl⟩⟩

/-- Turning interrupts off does not fail. -/
theorem of_setLevel_off {β : Type} {next : Kernel → Except Fault β} {result : β}
    (returned : kernel.setLevel .intOff >>= next = .ok result)
    : next { kernel with interrupt.level := .intOff } = .ok result := by
  rwa [setLevel_off] at returned

-----------------------------------------------------------------------------------------
-- Giving up the processor
-----------------------------------------------------------------------------------------

theorem of_readyToRun (returned : kernel.readyToRun t = .ok after)
    : ∃ scheduler,
        kernel.scheduler.readyToRun t = .ok scheduler
        ∧ after = { kernel with scheduler, history := kernel.history ++ [.readied t] } := by
  obtain ⟨_, _, returned⟩ := of_bind_ok returned
  obtain ⟨scheduler, ready, returned⟩ := of_bind_ok returned
  exact ⟨scheduler, ready, (Except.ok.inj returned).symm⟩

/-- FindNextToRun that returned has taken the front of the ready list, or there was none. -/
theorem of_findNextToRun {found : Option ThreadId}
    (returned : kernel.findNextToRun = .ok (found, after))
    : (kernel.scheduler.readyList.threads = [] ∧ found = none ∧ after = kernel)
      ∨ ∃ t readyList,
          kernel.scheduler.readyList.removeFront = .ok (t, readyList)
          ∧ found = some t
          ∧ after = { kernel with scheduler := { kernel.scheduler with readyList } } := by
  obtain ⟨_, _, returned⟩ := of_bind_ok returned
  obtain ⟨⟨other, scheduler⟩, next, returned⟩ := of_bind_ok returned
  obtain ⟨rfl, rfl⟩ := Prod.mk.inj (Except.ok.inj returned)
  rcases SchedulerState.of_findNextToRun next with ⟨empty, same, rfl⟩ | ⟨t, readyList, rest⟩
  · exact .inl ⟨empty, same, rfl⟩
  · obtain ⟨removed, same, rfl⟩ := rest
    exact .inr ⟨t, readyList, removed, same, rfl⟩

/-- `Run` switches to a ready thread. -/
theorem of_run {finishing : Bool} (returned : kernel.run t finishing = .ok after)
    : ∃ scheduler toBeDestroyed,
        after
          = {
              kernel.push kernel.currentThread .run with
              scheduler
              toBeDestroyed
              currentThread := t
              control := .thread
              history := kernel.history ++ [.dispatched t]
            }
        ∧ kernel.scheduler.statusOf t = some .ready
        ∧ scheduler.statusOf = Function.update kernel.scheduler.statusOf t (some .running) := by
  obtain ⟨_, _, returned⟩ := of_bind_ok returned
  by_cases marked : finishing = true ∧ kernel.toBeDestroyed ≠ none
  · rw [if_pos marked] at returned
    exact absurd returned not_throw_bind_ok
  · rw [if_neg marked] at returned
    obtain ⟨scheduler, set, returned⟩ := of_bind_ok returned
    exact ⟨scheduler, _, (Except.ok.inj returned).symm, SchedulerState.of_setStatus_running set⟩

/-- `Yield` keeps the processor only when no thread is ready, and else gives it to the front
of the ready lists.
-/
theorem of_yield (returned : kernel.yield = .ok after)
    : (kernel.scheduler.readyList.threads = [] ∧ Same kernel after ∧ Unasked kernel after)
      ∨ ∃ t readyList scheduler toBeDestroyed history,
          kernel.scheduler.readyList.removeFront = .ok (t, readyList)
          ∧ after
            = {
                kernel with
                scheduler
                toBeDestroyed
                currentThread := t
                interrupt.level := .intOff
                calls :=
                  Function.update kernel.calls kernel.currentThread
                    (.run :: .yield kernel.interrupt.level
                      :: kernel.calls kernel.currentThread)
                control := .thread
                history
              }
          ∧ scheduler.statusOf
            = Function.update
                (Function.update kernel.scheduler.statusOf kernel.currentThread (some .ready))
                t (some .running)
          ∧ Function.update kernel.scheduler.statusOf kernel.currentThread (some .ready) t
            = some .ready := by
  have returned := of_setLevel_off returned
  obtain ⟨⟨found, middle⟩, next, returned⟩ := of_bind_ok returned
  rcases of_findNextToRun next with ⟨empty, rfl, rfl⟩ | ⟨t, readyList, removed, rfl, rfl⟩
  · obtain ⟨same, unasked⟩ := of_setLevel returned
    exact .inl ⟨empty, { same with }, ⟨unasked.inHandler, unasked.yieldOnReturn⟩⟩
  · obtain ⟨ready, readied, returned⟩ := of_bind_ok returned
    obtain ⟨scheduler, entered, rfl⟩ := of_readyToRun readied
    have changes := SchedulerState.of_readyToRun entered
    obtain ⟨switched, toBeDestroyed, rfl, isReady, runs⟩ := of_run returned
    refine .inr ⟨t, readyList, switched, toBeDestroyed,
      kernel.history ++ [.readied kernel.currentThread] ++ [.dispatched t], removed, ?_, ?_, ?_⟩
    · simp only [push, Function.update_idem, Function.update_self]
    · exact runs.trans (congrArg (Function.update · t _) changes)
    · exact (congrFun changes t).symm.trans isReady

/-- `Sleep` changes the status of the current thread and enters its loop. -/
theorem of_sleep {finishing : Bool} (returned : kernel.sleep finishing = .ok after)
    : ∃ scheduler history,
        after = { kernel with scheduler, control := .sleep finishing, history }
        ∧ scheduler.statusOf
          = Function.update kernel.scheduler.statusOf kernel.currentThread
              (some (if finishing then .terminated else .waiting)) := by
  obtain ⟨_, _, returned⟩ := of_bind_ok returned
  obtain ⟨scheduler, set, returned⟩ := of_bind_ok returned
  exact ⟨scheduler, _, (Except.ok.inj returned).symm, (SchedulerState.of_setStatus set).2.1⟩

/-- The loop of `Sleep` idles or runs the next thread. -/
theorem of_findNext {finishing : Bool} (returned : kernel.findNext finishing = .ok after)
    : after = { kernel with interrupt.status := .idleMode, control := .idle finishing }
      ∨ ∃ t readyList,
          run t finishing { kernel with scheduler := { kernel.scheduler with readyList } }
            = .ok after := by
  obtain ⟨⟨found, middle⟩, next, rest⟩ := of_bind_ok returned
  rcases of_findNextToRun next with ⟨_, rfl, same⟩ | ⟨t, readyList, _, rfl, same⟩
  · exact .inl (same ▸ (Except.ok.inj rest).symm)
  · exact .inr ⟨t, readyList, same ▸ rest⟩

/-- A thread that finishes sleeps for good, unless it was the last program. -/
theorem of_finish (returned : kernel.finish = .ok after)
    : ∃ scheduler execRunningNum control history,
        after
          = {
              kernel with
              scheduler
              interrupt.level := .intOff
              execRunningNum
              control
              history
            }
        ∧ (scheduler = kernel.scheduler
          ∨ scheduler.statusOf
            = Function.update kernel.scheduler.statusOf kernel.currentThread
                (some .terminated)) := by
  have returned := of_setLevel_off returned
  dsimp only at returned
  split at returned
  · split at returned
    · exact ⟨_, _, _, _, (Except.ok.inj returned).symm, .inl rfl⟩
    · obtain ⟨scheduler, history, rfl, changes⟩ := of_sleep returned
      exact ⟨scheduler, _, _, history, rfl, .inr changes⟩
  · obtain ⟨scheduler, history, rfl, changes⟩ := of_sleep returned
    exact ⟨scheduler, _, _, history, rfl, .inr changes⟩

/-- Only the thread that is marked is deleted, and not while it runs. -/
theorem of_checkToBeDestroyed (returned : kernel.checkToBeDestroyed = .ok after)
    : after = kernel
      ∨ ∃ t history,
          kernel.toBeDestroyed = some t
          ∧ t ≠ kernel.currentThread
          ∧ after
            = {
                kernel with
                scheduler :=
                  {
                    kernel.scheduler with
                    threads := Function.update kernel.scheduler.threads t none
                  }
                calls := Function.update kernel.calls t []
                toBeDestroyed := none
                history
              } := by
  unfold checkToBeDestroyed at returned
  split at returned
  · exact .inl (Except.ok.inj returned).symm
  · rename_i t marked
    obtain ⟨_, _, returned⟩ := of_bind_ok returned
    by_cases own : t = kernel.currentThread
    · rw [if_pos own] at returned
      exact absurd returned not_throw_bind_ok
    · rw [if_neg own] at returned
      exact .inr ⟨t, _, marked, own, (Except.ok.inj returned).symm⟩

/-- A forked thread is ready to start at `Begin`. -/
theorem of_fork (returned : kernel.fork t = .ok after)
    : ∃ scheduler history,
        Same
          {
            kernel with
            calls := Function.update kernel.calls t [.begin]
            scheduler
            history
          } after
        ∧ Unasked kernel after
        ∧ scheduler.statusOf
          = Function.update kernel.scheduler.statusOf t (some .ready) := by
  have returned := of_setLevel_off returned
  obtain ⟨middle, readied, returned⟩ := of_bind_ok returned
  obtain ⟨scheduler, ready, rfl⟩ := of_readyToRun readied
  obtain ⟨same, unasked⟩ := of_setLevel returned
  exact ⟨scheduler, _, { same with }, ⟨unasked.inHandler, unasked.yieldOnReturn⟩,
    SchedulerState.of_readyToRun ready⟩

-----------------------------------------------------------------------------------------
-- Semaphores
-----------------------------------------------------------------------------------------

/-- A semaphore that is looked up is there. -/
theorem of_lookup {semaphore : Semaphore} (returned : kernel.lookup s = .ok semaphore)
    : kernel.semaphores s = some semaphore := by
  unfold lookup at returned
  split at returned
  · rename_i found
    rw [found, Except.ok.inj returned]
  · exact nomatch returned

/-- `P` tests the value: the current thread sleeps in the queue, or takes one unit. -/
theorem of_wait {oldLevel : IntStatus} (returned : kernel.wait s oldLevel = .ok after)
    : ∃ semaphore,
        kernel.semaphores s = some semaphore
        ∧ ((semaphore.value = 0
            ∧ kernel.currentThread ∉ semaphore.queue
            ∧ ∃ scheduler history,
              after
                = {
                    push kernel.currentThread (.p s oldLevel)
                      (kernel.store s
                        {
                          semaphore with
                          queue := semaphore.queue ++ [kernel.currentThread]
                        }) with
                    scheduler
                    control := .sleep false
                    history
                  }
              ∧ scheduler.statusOf
                = Function.update kernel.scheduler.statusOf kernel.currentThread
                    (some .waiting))
          ∨ (semaphore.value ≠ 0
            ∧ Same (kernel.store s { semaphore with value := semaphore.value - 1 }) after
            ∧ Unasked kernel after)) := by
  obtain ⟨semaphore, found, returned⟩ := of_bind_ok returned
  refine ⟨semaphore, of_lookup found, ?_⟩
  by_cases taken : semaphore.value = 0
  · rw [if_pos taken] at returned
    by_cases queued : kernel.currentThread ∈ semaphore.queue
    · rw [if_pos queued] at returned
      exact absurd returned not_throw_bind_ok
    · rw [if_neg queued] at returned
      obtain ⟨scheduler, history, rfl, changes⟩ := of_sleep returned
      exact .inl ⟨taken, queued, scheduler, history, rfl, changes⟩
  · rw [if_neg taken] at returned
    obtain ⟨same, unasked⟩ := of_setLevel returned
    exact .inr ⟨taken, same, ⟨unasked.inHandler, unasked.yieldOnReturn⟩⟩

theorem of_p (returned : kernel.p s = .ok after)
    : wait s kernel.interrupt.level { kernel with interrupt.level := .intOff } = .ok after :=
  of_setLevel_off returned

/-- `V` adds one unit, and makes the first thread in the queue ready. -/
theorem of_v (returned : kernel.v s = .ok after)
    : ∃ semaphore,
        kernel.semaphores s = some semaphore
        ∧ Unasked kernel after
        ∧ ((semaphore.queue = []
            ∧ Same (kernel.store s { semaphore with value := semaphore.value + 1 }) after)
          ∨ ∃ t rest scheduler history,
            semaphore.queue = t :: rest
            ∧ kernel.scheduler.readyToRun t = .ok scheduler
            ∧ Same
                {
                  kernel.store s { value := semaphore.value + 1, queue := rest } with
                  scheduler
                  history
                } after) := by
  have returned := of_setLevel_off returned
  obtain ⟨semaphore, found, returned⟩ := of_bind_ok returned
  refine ⟨semaphore, of_lookup found, ?_⟩
  dsimp only at returned
  split at returned
  · rename_i empty
    obtain ⟨same, unasked⟩ := of_setLevel returned
    exact ⟨⟨unasked.inHandler, unasked.yieldOnReturn⟩, .inl ⟨empty, { same with }⟩⟩
  · rename_i t rest queue
    obtain ⟨middle, readied, returned⟩ := of_bind_ok returned
    obtain ⟨scheduler, ready, rfl⟩ := of_readyToRun readied
    obtain ⟨same, unasked⟩ := of_setLevel returned
    refine ⟨⟨unasked.inHandler, unasked.yieldOnReturn⟩,
      .inr ⟨t, rest, scheduler, kernel.history ++ [.readied t], queue, ready, ?_⟩⟩
    exact {
      same with
      semaphores := same.semaphores.trans (Function.update_idem ..)
    }

end Kernel

end Nachos.Threads
