import Nachos.Threads.KernelOutcomes
import Nachos.Threads.LifeCycle
import Nachos.Threads.LinkedScheduler

/-! Preemption in one tick: the timer decides, handlers of devices before and after it make
threads ready, and then the interrupted thread yields.
-/

namespace Nachos.Threads
open Outcome

-----------------------------------------------------------------------------------------
-- Threads that become ready
-----------------------------------------------------------------------------------------

/-- The front of the highest level that is not empty. -/
def MultilevelThreadQueue.front (queue : MultilevelThreadQueue) : Option ThreadId :=
  queue.l1.head?.or (queue.l2.head?.or queue.l3.head?)

namespace MultilevelThreadQueue

theorem front_of_removeFront {queue after : MultilevelThreadQueue} {t : ThreadId}
    (removed : queue.removeFront = .ok (t, after))
    : queue.front = some t := by
  obtain ⟨l1, l2, l3⟩ := queue
  cases l1 <;> cases l2 <;> cases l3 <;> cases removed <;> rfl

theorem front_of_empty {queue : MultilevelThreadQueue} (empty : queue.threads = [])
    : queue.front = none := by
  obtain ⟨l1, l2, l3⟩ := queue
  obtain ⟨upper, rfl⟩ := List.append_eq_nil_iff.mp empty
  obtain ⟨rfl, rfl⟩ := List.append_eq_nil_iff.mp upper
  rfl

theorem front_of_l1 {queue : MultilevelThreadQueue} {t : ThreadId} {rest : List ThreadId}
    (first : queue.l1 = t :: rest)
    : queue.front = some t := by
  rw [front, first]
  rfl

theorem mem_of_front {queue : MultilevelThreadQueue} {t : ThreadId}
    (front : queue.front = some t)
    : t ∈ queue.threads := by
  obtain ⟨l1, l2, l3⟩ := queue
  cases l1 <;> cases l2 <;> cases l3 <;> cases front <;> simp [threads]

end MultilevelThreadQueue

namespace SchedulerState

variable {state after : SchedulerState} {t current : ThreadId}

/-- Threads entered the queue: the running thread is as it was, and the front of L1 has no
more time left than the one before.
-/
structure Grown (current : ThreadId) (state after : SchedulerState) : Prop where
  thread : after.threads current = state.threads current
  totalTicks : after.totalTicks = state.totalTicks
  front
    : ∀ front rest, state.readyList.l1 = front :: rest
      → ∃ t others,
          after.readyList.l1 = t :: others ∧ after.remainTime t ≤ state.remainTime front

namespace Grown

theorem refl (current : ThreadId) (state : SchedulerState) : Grown current state state :=
  ⟨rfl, rfl, fun front rest first => ⟨front, rest, first, le_refl _⟩⟩

/-- Two changes in which the front grows one after the other are one. -/
theorem trans {middle : SchedulerState} (first : Grown current state middle)
    (second : Grown current middle after)
    : Grown current state after := by
  refine ⟨second.thread.trans first.thread, second.totalTicks.trans first.totalTicks, ?_⟩
  intro front rest before
  obtain ⟨t, others, between, less⟩ := first.front front rest before
  obtain ⟨final, final_, now, lesser⟩ := second.front t others between
  exact ⟨final, final_, now, le_trans lesser less⟩

theorem level (grown : Grown current state after) : after.level current = state.level current := by
  rw [SchedulerState.level, priority, grown.thread]
  rfl

theorem remainTime (grown : Grown current state after)
    : after.remainTime current = state.remainTime current := by
  rw [SchedulerState.remainTime, grown.thread, grown.totalTicks]
  rfl

end Grown

/-- A thread that becomes ready gets to the front of L1 only with less time left. -/
theorem Queued.grown (queued : state.Queued) (apart : t ≠ current)
    (returned : state.readyToRun t = .ok after)
    : Grown current state after := by
  obtain ⟨middle, set, _⟩ := of_bind_ok returned
  obtain ⟨thread, changed, found, changes, _⟩ := setStatus_eq_ok set
  obtain ⟨again, _, _, notQueued, done⟩ :=
    readyToRun_eq queued found (status_of_setStatus_ready changes)
  obtain rfl := Except.ok.inj (returned.symm.trans done)
  refine ⟨threads_put_of_ne apart.symm again, rfl, fun front rest first => ?_⟩
  have member : front ∈ state.readyList.threads :=
    MultilevelThreadQueue.mem_threads.mpr (.inl (first ▸ List.mem_cons_self ..))
  have other : front ≠ t := fun same => notQueued (same ▸ member)
  have kept : (state.put t again).remainTime front = state.remainTime front := by
    rw [SchedulerState.remainTime, threads_put_of_ne other]
    rfl
  change ∃ t' others, ((state.put t again).enqueue state.readyList t).l1 = t' :: others
    ∧ (state.put t again).remainTime t' ≤ state.remainTime front
  rw [SchedulerState.enqueue]
  cases (state.put t again).level t with
  | lv2 => exact ⟨front, rest, first, le_of_eq kept⟩
  | lv3 => exact ⟨front, rest, first, le_of_eq kept⟩
  | lv1 =>
      dsimp only
      rw [first, List.orderedInsert_cons]
      split
      · rename_i below
        refine ⟨t, _, rfl, ?_⟩
        rw [timeOrder, Thread.truncate_neg_iff, kept] at below
        linarith
      · exact ⟨front, _, rfl, le_of_eq kept⟩

/-- Insertions empty no list, by induction on what is inserted. -/
theorem foldl_insertByTime_ne_nil (state : SchedulerState) (entering : List ThreadId)
    {items : List ThreadId} (some : items ≠ [])
    : entering.foldl state.insertByTime items ≠ [] := by
  induction entering generalizing items with
  | nil => exact some
  | cons t rest ih => exact ih (List.ne_nil_of_mem (List.mem_orderedInsert _ |>.mpr (.inl rfl)))

/-- From L1 a thread is replaced by one that has less time left. -/
theorem preempts_lv1_iff (own : state.level current = .lv1)
    : state.preempts current = true
      ↔ ∃ front rest,
          state.readyList.l1 = front :: rest ∧ 0 < state.timeOrder current front := by
  rw [preempts, own]
  cases first : state.readyList.l1 <;> simp

/-- From L2 a thread is replaced by any in L1. -/
theorem preempts_lv2_iff (own : state.level current = .lv2)
    : state.preempts current = true ↔ ∃ front rest, state.readyList.l1 = front :: rest := by
  rw [preempts, own]
  cases first : state.readyList.l1 <;> simp

theorem preempts_lv3 (own : state.level current = .lv3) : state.preempts current = true := by
  rw [preempts, own]

/-- Aging does not empty L1. -/
theorem agedState_l1_ne_nil (some : state.readyList.l1 ≠ [])
    : state.agedState.readyList.l1 ≠ [] := by
  change state.agedQueue.l1 ≠ []
  rw [agedQueue_l1]
  exact foldl_insertByTime_ne_nil _ _ some

end SchedulerState

namespace Kernel

variable {kernel after : Kernel} {s : SemaphoreId}

-----------------------------------------------------------------------------------------
-- One tick
-----------------------------------------------------------------------------------------

/-- `OneTick` has advanced the clock and is about to call the first handler that is due. -/
structure Interrupted (kernel : Kernel) : Prop where
  ticking : kernel.Ticking
  unasked : kernel.interrupt.yieldOnReturn = false

/-- The handlers of devices, which signal the given semaphores one after the other. -/
def devices (signalled : List SemaphoreId) (kernel : Kernel) : Except Fault Kernel :=
  signalled.foldlM (fun kernel s => kernel.perform (.device s)) kernel

/-- Whether the timer's handler lets the current thread of a level be replaced, and by whom,
when it is called in `timer` and leaves `aged`, all handlers leave `handled`, and the
interrupted thread yields.
-/
structure Respects (timer aged handled after : Kernel) : Prop where
  same : handled.currentThread = timer.currentThread
  lv1 : handled.scheduler.level timer.currentThread = .lv1
    → after.currentThread ≠ timer.currentThread
    → after.currentThread ∈ handled.scheduler.readyList.l1
      ∧ ∃ order,
          handled.scheduler.compareTime timer.currentThread after.currentThread = .ok order
          ∧ order > 0
  lv2 : handled.scheduler.level timer.currentThread = .lv2
    → after.currentThread ≠ timer.currentThread
    → after.currentThread ∈ handled.scheduler.readyList.l1
  lv2_replaced : handled.scheduler.level timer.currentThread = .lv2
    → timer.scheduler.readyList.l1 ≠ [] ∨ aged.scheduler.readyList.l1 ≠ []
    → after.currentThread ≠ timer.currentThread
  lv3_replaced : handled.scheduler.level timer.currentThread = .lv3
    → ∀ t, handled.scheduler.readyList.front = some t
    → after.currentThread = t ∧ t ≠ timer.currentThread
  /-- In all other cases the current thread keeps the processor. -/
  kept
    : (handled.scheduler.level timer.currentThread = .lv1
        ∧ ∀ t ∈ handled.scheduler.readyList.l1, ∀ order,
          handled.scheduler.compareTime timer.currentThread t = .ok order → order ≤ 0)
      ∨ (handled.scheduler.level timer.currentThread = .lv2
        ∧ aged.scheduler.readyList.l1 = [])
      ∨ (handled.scheduler.level timer.currentThread = .lv3
        ∧ handled.scheduler.readyList.threads = [])
    → after.currentThread = timer.currentThread

-----------------------------------------------------------------------------------------
-- Handlers of devices
-----------------------------------------------------------------------------------------

/-- What handlers of devices leave alone. -/
structure Signalled (kernel after : Kernel) : Prop where
  currentThread : after.currentThread = kernel.currentThread
  yieldOnReturn : after.interrupt.yieldOnReturn = kernel.interrupt.yieldOnReturn
  status : after.interrupt.status = kernel.interrupt.status
  exist : ∀ s, (kernel.semaphores s).isSome → (after.semaphores s).isSome
  grown : SchedulerState.Grown kernel.currentThread kernel.scheduler after.scheduler
  calm : after.scheduler.Calm ↔ kernel.scheduler.Calm

theorem Signalled.refl (kernel : Kernel) : Signalled kernel kernel :=
  ⟨rfl, rfl, rfl, fun _ exist => exist, .refl _ _, .rfl⟩

/-- Two handlers that signal one after the other signal together. -/
theorem Signalled.trans {middle : Kernel} (first : Signalled kernel middle)
    (second : Signalled middle after)
    : Signalled kernel after :=
  ⟨second.currentThread.trans first.currentThread,
    second.yieldOnReturn.trans first.yieldOnReturn,
    second.status.trans first.status,
    fun s exist => second.exist s (first.exist s exist),
    first.grown.trans (first.currentThread ▸ second.grown),
    second.calm.trans first.calm⟩

/-- `V` in a handler, where interrupts are off. -/
theorem Ticking.signalled (ticking : kernel.Ticking) (returned : kernel.v s = .ok after)
    : Signalled kernel after := by
  have off := ticking.off
  have sound := ticking.active.sound
  have returned := of_setLevel_off returned
  obtain ⟨semaphore, found, returned⟩ := of_bind_ok returned
  have found := of_lookup found
  dsimp only at returned
  split at returned
  · rw [off, setLevel_off] at returned
    obtain rfl := Except.ok.inj returned
    exact ⟨rfl, rfl, rfl, fun other exist => isSome_store exist, .refl _ _, .rfl⟩
  · rename_i t rest queue
    obtain ⟨middle, readied, returned⟩ := of_bind_ok returned
    obtain ⟨scheduler, ready, rfl⟩ := of_readyToRun readied
    rw [off, setLevel_off] at returned
    obtain rfl := Except.ok.inj returned
    refine ⟨rfl, rfl, rfl, fun other exist => isSome_store (isSome_store exist), ?_,
      sound.accurate.queued.calm_of_readyToRun ready⟩
    refine sound.accurate.queued.grown ?_ ready
    rintro rfl
    have waits := sound.waiting.waiting s semaphore kernel.currentThread found
      (queue ▸ List.mem_cons_self ..)
    rw [(ticking.active.running _).mpr rfl] at waits
    exact nomatch waits

/-- The handler of a device keeps the tick going. -/
theorem Ticking.device (ticking : kernel.Ticking) (exist : (kernel.semaphores s).isSome)
    : ∃ after,
        kernel.perform (.device s) = .ok after ∧ after.Ticking ∧ Signalled kernel after := by
  obtain ⟨after, done, still⟩ := ticking.v exist
  have entered : kernel.inHandler.Ticking :=
    ⟨ticking.active.congr ⟨rfl, rfl, rfl, rfl, rfl, rfl, rfl⟩, ticking.control, ticking.off,
      ticking.inner⟩
  have signalled := entered.signalled done
  exact ⟨after, done, still, ⟨signalled.currentThread, signalled.yieldOnReturn,
    signalled.status, signalled.exist, signalled.grown, signalled.calm⟩⟩

/-- So do the handlers of any devices, by induction on them. -/
theorem Ticking.devices {signals : List SemaphoreId} (ticking : kernel.Ticking)
    (exist : ∀ s ∈ signals, (kernel.semaphores s).isSome)
    : ∃ after, kernel.devices signals = .ok after ∧ after.Ticking ∧ Signalled kernel after := by
  induction signals generalizing kernel with
  | nil => exact ⟨kernel, rfl, ticking, .refl kernel⟩
  | cons s rest ih =>
      obtain ⟨middle, done, still, first⟩ := ticking.device (exist s (List.mem_cons_self ..))
      obtain ⟨after, others, ends, second⟩ :=
        ih still (fun other member => first.exist other (exist other (List.mem_cons_of_mem _ member)))
      refine ⟨after, ?_, ends, first.trans second⟩
      rw [Kernel.devices, List.foldlM_cons]
      exact (bind_ok done _).trans others

-----------------------------------------------------------------------------------------
-- The decision and the choice
-----------------------------------------------------------------------------------------

/-- On a busy machine the timer ages, and then decides for the interrupted thread. -/
theorem Ticking.timer (ticking : kernel.Ticking) (busy : kernel.interrupt.status ≠ .idleMode)
    : ∃ after,
        kernel.perform .timer = .ok after
        ∧ after.Ticking
        ∧ after.currentThread = kernel.currentThread
        ∧ after.semaphores = kernel.semaphores
        ∧ after.scheduler = kernel.scheduler.agedState
        ∧ after.interrupt.yieldOnReturn
          = (kernel.scheduler.agedState.preempts kernel.currentThread
            || kernel.interrupt.yieldOnReturn) := by
  obtain ⟨after, done, still⟩ := ticking.callBack
  have decided := SchedulerState.callBack_busy ticking.active.sound.accurate.queued
    ((ticking.active.running _).mpr rfl)
  rw [← decide_eq_false busy] at decided
  obtain rfl := Except.ok.inj (done.symm.trans (callBack_inHandler decided))
  exact ⟨_, done, still, rfl, rfl, rfl, rfl⟩

/-- After the last handler the front of the ready lists replaces the interrupted thread, if
that was asked to yield.
-/
theorem currentThread_of_tickHandled (returned : kernel.tickHandled = .ok after)
    : after.currentThread
      = if kernel.interrupt.yieldOnReturn then
          kernel.scheduler.readyList.front.getD kernel.currentThread
        else kernel.currentThread := by
  unfold tickHandled at returned
  dsimp only at returned
  split at returned
  · rename_i asked
    rw [if_pos asked]
    rcases of_yield returned with ⟨empty, same, _⟩ | ⟨t, readyList, _, _, _, removed, rfl, _⟩
    · have front : kernel.scheduler.readyList.front = none :=
        MultilevelThreadQueue.front_of_empty empty
      rw [same.currentThread, front]
      rfl
    · have front : kernel.scheduler.readyList.front = some t :=
        MultilevelThreadQueue.front_of_removeFront removed
      rw [front]
      rfl
  · rename_i quiet
    rw [if_neg quiet, ← Except.ok.inj returned]

/-- A queued thread is not the one that is interrupted. -/
theorem Ticking.apart (ticking : kernel.Ticking) {t : ThreadId}
    (queued : t ∈ kernel.scheduler.readyList.threads)
    : t ≠ kernel.currentThread := by
  rintro rfl
  have ready := ticking.active.sound.accurate.queued.ready _ queued
  rw [(ticking.active.running _).mpr rfl] at ready
  exact nomatch ready

/-- The interrupted thread may be compared with a queued one. -/
theorem Ticking.compareTime (ticking : kernel.Ticking) {t : ThreadId}
    (queued : t ∈ kernel.scheduler.readyList.threads)
    : kernel.scheduler.compareTime kernel.currentThread t
      = .ok (kernel.scheduler.timeOrder kernel.currentThread t) := by
  obtain ⟨own, found, runs⟩ :=
    SchedulerState.exists_of_statusOf ((ticking.active.running kernel.currentThread).mpr rfl)
  obtain ⟨other, otherFound, ready⟩ :=
    SchedulerState.exists_of_statusOf (ticking.active.sound.accurate.queued.ready t queued)
  exact SchedulerState.compareTime_eq found otherFound (.inr (.inr ⟨runs, ready⟩))

/-- The choice respects the levels when the decision was made at the timer. -/
theorem Ticking.respects {timer aged : Kernel} (ticking : kernel.Ticking)
    (same : kernel.currentThread = timer.currentThread)
    (scheduler : aged.scheduler = timer.scheduler.agedState)
    (grown : SchedulerState.Grown timer.currentThread aged.scheduler kernel.scheduler)
    (chosen
      : after.currentThread
        = if aged.scheduler.preempts timer.currentThread then
            kernel.scheduler.readyList.front.getD timer.currentThread
          else timer.currentThread)
    : Respects timer aged kernel after := by
  have level := grown.level
  have preempted (replaced : after.currentThread ≠ timer.currentThread)
      : aged.scheduler.preempts timer.currentThread = true := by
    by_contra stays
    exact replaced (chosen.trans (if_neg stays))
  have becomes {t : ThreadId}
      (asked : aged.scheduler.preempts timer.currentThread = true)
      (front : kernel.scheduler.readyList.front = some t)
      : after.currentThread = t ∧ t ≠ timer.currentThread := by
    refine ⟨?_, same ▸ ticking.apart (MultilevelThreadQueue.mem_of_front front)⟩
    rw [chosen, if_pos asked, front, Option.getD_some]
  -- A front of L1 at the decision leaves one at the choice, and no later one at that.
  have leads {front : ThreadId} {rest : List ThreadId}
      (asked : aged.scheduler.preempts timer.currentThread = true)
      (first : aged.scheduler.readyList.l1 = front :: rest)
      : after.currentThread ∈ kernel.scheduler.readyList.l1
        ∧ after.currentThread ≠ timer.currentThread
        ∧ kernel.scheduler.remainTime after.currentThread
          ≤ aged.scheduler.remainTime front := by
    obtain ⟨t, others, now, less⟩ := grown.front front rest first
    obtain ⟨rfl, apart⟩ := becomes asked (MultilevelThreadQueue.front_of_l1 now)
    exact ⟨now ▸ List.mem_cons_self .., apart, less⟩
  have overtaken (own : kernel.scheduler.level timer.currentThread = .lv1)
      (replaced : after.currentThread ≠ timer.currentThread)
      : after.currentThread ∈ kernel.scheduler.readyList.l1
        ∧ ∃ order,
            kernel.scheduler.compareTime timer.currentThread after.currentThread = .ok order
            ∧ order > 0 := by
    have asked := preempted replaced
    obtain ⟨front, rest, first, ahead⟩ :=
      (SchedulerState.preempts_lv1_iff (level.symm.trans own)).mp asked
    obtain ⟨member, _, less⟩ := leads asked first
    have compared := ticking.compareTime (MultilevelThreadQueue.mem_threads.mpr (.inl member))
    rw [same] at compared
    refine ⟨member, _, compared, ?_⟩
    rw [SchedulerState.timeOrder, Thread.truncate_pos_iff] at ahead
    rw [gt_iff_lt, SchedulerState.timeOrder, Thread.truncate_pos_iff, grown.remainTime]
    linarith
  have passed (own : kernel.scheduler.level timer.currentThread = .lv2)
      (replaced : after.currentThread ≠ timer.currentThread)
      : ∃ front rest, aged.scheduler.readyList.l1 = front :: rest :=
    (SchedulerState.preempts_lv2_iff (level.symm.trans own)).mp (preempted replaced)
  refine ⟨same, overtaken, ?_, ?_, ?_, ?_⟩
  · intro own replaced
    obtain ⟨front, rest, first⟩ := passed own replaced
    exact (leads (preempted replaced) first).1
  · intro own some
    have aged : ∃ front rest, aged.scheduler.readyList.l1 = front :: rest := by
      refine List.exists_cons_of_ne_nil (some.elim (fun before => ?_) id)
      rw [scheduler]
      exact SchedulerState.agedState_l1_ne_nil before
    have asked := (SchedulerState.preempts_lv2_iff (level.symm.trans own)).mpr aged
    obtain ⟨front, rest, first⟩ := aged
    exact (leads asked first).2.1
  · intro own t front
    exact becomes (SchedulerState.preempts_lv3 (level.symm.trans own)) front
  · rintro (⟨own, behind⟩ | ⟨own, empty⟩ | ⟨_, empty⟩)
    · by_contra replaced
      obtain ⟨member, order, compared, ahead⟩ := overtaken own replaced
      exact not_lt.mpr (behind _ member order compared) ahead
    · by_contra replaced
      obtain ⟨front, rest, first⟩ := passed own replaced
      exact List.cons_ne_nil front rest (first.symm.trans empty)
    · rw [chosen, MultilevelThreadQueue.front_of_empty empty, Option.getD_none, ite_self]

/-- Where one tick with a timer interrupt leads. -/
theorem Interrupted.exists_respects (interrupted : kernel.Interrupted)
    (busy : kernel.interrupt.status ≠ .idleMode) {before later : List SemaphoreId}
    (exist : ∀ s ∈ before ++ later, (kernel.semaphores s).isSome)
    : ∃ timer aged handled after,
        kernel.devices before = .ok timer
        ∧ timer.perform .timer = .ok aged
        ∧ aged.devices later = .ok handled
        ∧ handled.perform .handled = .ok after
        ∧ timer.currentThread = kernel.currentThread
        ∧ Respects timer aged handled after := by
  obtain ⟨ticking, unasked⟩ := interrupted
  obtain ⟨timer, first, ticks, signalled⟩ :=
    ticking.devices (fun s member => exist s (List.mem_append_left _ member))
  obtain ⟨aged, called, still, same, semaphores, scheduler, asked⟩ :=
    ticks.timer (signalled.status ▸ busy)
  obtain ⟨handled, second, ends, others⟩ := still.devices (fun s member => by
    rw [semaphores]
    exact signalled.exist s (exist s (List.mem_append_right before member)))
  obtain ⟨after, returned, _⟩ := ends.tickHandled
  have decided
      : handled.interrupt.yieldOnReturn = aged.scheduler.preempts timer.currentThread := by
    rw [others.yieldOnReturn, asked, signalled.yieldOnReturn, unasked, Bool.or_false, scheduler]
  have grown := others.grown
  have chosen := currentThread_of_tickHandled returned
  rw [same] at grown
  rw [decided, others.currentThread, same] at chosen
  refine ⟨timer, aged, handled, after, first, called, second, ?_, signalled.currentThread,
    ends.respects (others.currentThread.trans same) scheduler grown chosen⟩
  rw [perform, ends.control]
  exact returned

-----------------------------------------------------------------------------------------
-- Ticks of a run
-----------------------------------------------------------------------------------------

/-- A yield is asked for only between the timer's handler and the end of the tick. -/
def Quiet (kernel : Kernel) : Prop :=
  kernel.interrupt.yieldOnReturn = true
  → kernel.control = .tick ∧ kernel.interrupt.inHandler = true

theorem Quiet.unasked (quiet : kernel.Quiet) (control : kernel.control ≠ .tick)
    : kernel.interrupt.yieldOnReturn = false := by
  by_contra asked
  exact control (quiet ((Bool.not_eq_false _).mp asked)).1

theorem Quiet.of_unasked (unasked : kernel.interrupt.yieldOnReturn = false) : kernel.Quiet :=
  fun asked => absurd (unasked.symm.trans asked) Bool.false_ne_true

/-- `Yield` asks for nothing. -/
theorem yieldOnReturn_of_yield (returned : kernel.yield = .ok after)
    : after.interrupt.yieldOnReturn = kernel.interrupt.yieldOnReturn := by
  rcases of_yield returned with ⟨_, _, unasked⟩ | ⟨_, _, _, _, _, _, rfl, _⟩
  · exact unasked.yieldOnReturn
  · rfl

theorem yieldOnReturn_of_wait {oldLevel : IntStatus}
    (returned : kernel.wait s oldLevel = .ok after)
    : after.interrupt.yieldOnReturn = kernel.interrupt.yieldOnReturn := by
  obtain ⟨_, _, ⟨_, _, _, _, rfl, _⟩ | ⟨_, _, unasked⟩⟩ := of_wait returned
  · rfl
  · exact unasked.yieldOnReturn

theorem yieldOnReturn_of_v (returned : kernel.v s = .ok after)
    : after.interrupt.yieldOnReturn = kernel.interrupt.yieldOnReturn := by
  obtain ⟨_, _, unasked, _⟩ := of_v returned
  exact unasked.yieldOnReturn

theorem yieldOnReturn_of_checkToBeDestroyed (returned : kernel.checkToBeDestroyed = .ok after)
    : after.interrupt.yieldOnReturn = kernel.interrupt.yieldOnReturn := by
  rcases of_checkToBeDestroyed returned with rfl | ⟨_, _, _, _, rfl⟩ <;> rfl

/-- A call of a thread's own code asks for nothing. -/
theorem yieldOnReturn_of_call {call : Call} (returned : kernel.perform (.call call) = .ok after)
    : after.interrupt.yieldOnReturn = kernel.interrupt.yieldOnReturn := by
  cases call with
  | fork t =>
      obtain ⟨_, _, _, unasked, _⟩ := of_fork returned
      exact unasked.yieldOnReturn
  | yield => exact yieldOnReturn_of_yield returned
  | finish =>
      obtain ⟨_, _, _, _, rfl, _⟩ := of_finish returned
      rfl
  | p s =>
      have waited := of_p returned
      exact @yieldOnReturn_of_wait { kernel with interrupt.level := .intOff } _ _ _ waited
  | v s => exact yieldOnReturn_of_v returned
  | setLevel now => exact (of_setLevel returned).2.yieldOnReturn
  | construct | setIsExec | semaphore | setStatus | oneTick | halt =>
      exact Except.ok.inj returned ▸ rfl

/-- Going on in a call asks for nothing. -/
theorem yieldOnReturn_of_resume (returned : kernel.resume = .ok after)
    : after.interrupt.yieldOnReturn = kernel.interrupt.yieldOnReturn := by
  unfold resume at returned
  split at returned
  · exact Except.ok.inj returned ▸ rfl
  · obtain ⟨checked, deleted, rest⟩ := of_bind_ok returned
    have settled := of_setLevel rest
    exact settled.2.yieldOnReturn.trans
      (@yieldOnReturn_of_checkToBeDestroyed kernel.pop checked deleted)
  · dsimp only at returned
    split at returned <;> exact Except.ok.inj returned ▸ rfl
  · obtain ⟨_, _, rest⟩ := of_bind_ok returned
    exact @yieldOnReturn_of_checkToBeDestroyed kernel.pop after rest
  · have settled := of_setLevel returned
    exact settled.2.yieldOnReturn
  · exact @yieldOnReturn_of_wait kernel.pop after _ _ returned
  · exact Except.ok.inj returned ▸ rfl

/-- After the last handler nothing is asked any more. -/
theorem yieldOnReturn_of_tickHandled (returned : kernel.tickHandled = .ok after)
    : after.interrupt.yieldOnReturn = false := by
  unfold tickHandled at returned
  dsimp only at returned
  split at returned
  · exact yieldOnReturn_of_yield returned
  · rename_i quiet
    exact Except.ok.inj returned ▸ (Bool.not_eq_true _).mp quiet

/-- Every action keeps requests to yield inside the tick of the timer. -/
theorem Invariant.quiet (invariant : kernel.Invariant) (quiet : kernel.Quiet) {action : Action}
    (legal : kernel.Legal action) (returned : kernel.perform action = .ok after)
    : after.Quiet := by
  have steady (control : kernel.control ≠ .tick)
      (same : after.interrupt.yieldOnReturn = kernel.interrupt.yieldOnReturn)
      : after.Quiet :=
    .of_unasked (same.trans (quiet.unasked control))
  cases action with
  | call call => exact steady (by simp [legal.1]) (yieldOnReturn_of_call returned)
  | resume => exact steady (by simp [legal.1]) (yieldOnReturn_of_resume returned)
  | findNext =>
      refine steady (by rcases legal with control | control <;> simp [control]) ?_
      rcases of_findNext returned with rfl | ⟨t, readyList, ran⟩
      · rfl
      · obtain ⟨_, _, rfl, _⟩ := of_run ran
        rfl
  | advance ticks =>
      refine steady (by rcases legal with control | control <;> simp [control]) ?_
      exact Except.ok.inj returned ▸ rfl
  | noInterrupts =>
      refine steady (by rcases legal with control | control <;> simp [control]) ?_
      exact Except.ok.inj returned ▸ rfl
  | timer =>
      rcases invariant.interrupted legal with ticking | ⟨finishing, control, sleeping⟩
      · obtain ⟨other, done, still⟩ := ticking.callBack
        obtain rfl := Except.ok.inj (returned.symm.trans done)
        obtain ⟨preempt, scheduler, decided, _⟩ :=
          ticking.active.sound.accurate.callBack (kernel.interrupt.status = .idleMode)
            (fun _ => (ticking.active.running kernel.currentThread).mpr rfl)
        obtain rfl := Except.ok.inj (done.symm.trans (callBack_inHandler decided))
        exact fun _ => ⟨still.control, rfl⟩
      · have status := sleeping.status control
        have decided := SchedulerState.callBack_idle sleeping.sound.accurate.queued
          kernel.currentThread
        rw [← decide_eq_true status] at decided
        obtain rfl := Except.ok.inj (returned.symm.trans (callBack_inHandler decided))
        exact .of_unasked (quiet.unasked (by simp [control]))
  | device s =>
      have same := yieldOnReturn_of_v returned
      rcases invariant.interrupted legal.1 with ticking | ⟨finishing, control, _⟩
      · obtain ⟨other, done, still⟩ := ticking.v legal.2
        obtain rfl := Except.ok.inj (returned.symm.trans done)
        obtain ⟨_, _, unasked, _⟩ := of_v returned
        exact fun _ => ⟨still.control, unasked.inHandler⟩
      · exact steady (by simp [control]) same
  | handled =>
      rcases invariant.interrupted legal with ticking | ⟨finishing, control, _⟩
      · rw [Kernel.perform, ticking.control] at returned
        exact .of_unasked (yieldOnReturn_of_tickHandled returned)
      · rw [Kernel.perform, control] at returned
        refine steady (by simp [control]) ?_
        exact Except.ok.inj returned ▸ rfl

/-- Every tick of every run starts with an interrupted thread that is not asked to yield yet, since
every action keeps the requests to yield inside a tick.
-/
theorem interrupted_of_reachable {main : ThreadId} {initPriority : Int} {execExit : Bool}
    {first : Kernel} (started : initial main initPriority execExit = .ok first)
    (working : first.Working) (reachable : Runs.Reachable Step first kernel)
    (control : kernel.control = .tick) (outside : kernel.interrupt.inHandler = false)
    : kernel.Interrupted := by
  have invariant : kernel.Invariant ∧ kernel.Quiet := by
    refine @Runs.Reachable.invariant _ _ _ _ _ (fun kernel => kernel.Invariant ∧ kernel.Quiet)
      reachable ⟨.working working, ?_⟩ ?_
    · obtain ⟨_, _, started⟩ := of_bind_ok started
      obtain ⟨_, _, started⟩ := of_bind_ok started
      exact .of_unasked (Except.ok.inj started ▸ rfl)
    · rintro state action after ⟨invariant, quiet⟩ ⟨legal, performed⟩
      obtain ⟨other, done, rest⟩ := invariant.perform legal
      obtain rfl := Except.ok.inj (performed.symm.trans done)
      exact ⟨rest, invariant.quiet quiet legal performed⟩
  refine ⟨invariant.1.of_tick control, ?_⟩
  by_contra asked
  have inside := (invariant.2 ((Bool.not_eq_false _).mp asked)).2
  exact absurd (outside.symm.trans inside) Bool.false_ne_true

end Kernel

end Nachos.Threads
