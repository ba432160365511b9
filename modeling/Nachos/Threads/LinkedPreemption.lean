import Nachos.Threads.BrokenPromotion
import Nachos.Threads.LinkedKernel
import Nachos.Threads.Preemption

/-! Preemption in one tick of the kernel over linked lists: it respects the levels exactly when the
aging of that tick takes no queued thread above the level of its list.
-/

namespace Nachos.Threads
open Routines Routine LinkedList Outcome

namespace LinkedKernel

-----------------------------------------------------------------------------------------
-- One tick over linked lists
-----------------------------------------------------------------------------------------

/-- The threads that the ready lists count. -/
def numQueued (linked : LinkedKernel) : Int :=
  (linked.lists .lv1).numInList + (linked.lists .lv2).numInList + (linked.lists .lv3).numInList

/-- The action returns, with fuel for all queued threads at least. -/
def Performs (allocator : Allocator ThreadId) (linked : LinkedKernel) (action : Kernel.Action)
    (next : LinkedKernel)
    : Prop :=
  ∃ fuel : Nat,
    linked.numQueued + 1 < fuel ∧ (perform allocator fuel action).run linked = (.ok (), next)

/-- The handlers of devices return, which signal the given semaphores one after the other. -/
def Handles (allocator : Allocator ThreadId) (signalled : List SemaphoreId)
    (linked after : LinkedKernel)
    : Prop :=
  Runs.Run (Performs allocator) linked (signalled.map .device) after

/-- In one tick devices are handled, then the timer, then other devices; all returns, and to whom
the interrupted thread yields respects the levels.
-/
def TickRespects (allocator : Allocator ThreadId) (linked : LinkedKernel)
    (before later : List SemaphoreId)
    : Prop :=
  ∃ timer aged handled after timer' aged' handled' after',
    Handles allocator before linked timer
    ∧ timer.Performs allocator .timer aged
    ∧ Handles allocator later aged handled
    ∧ handled.Performs allocator .handled after
    ∧ timer.Represents timer'
    ∧ aged.Represents aged'
    ∧ handled.Represents handled'
    ∧ after.Represents after'
    ∧ timer'.currentThread = linked.kernel.currentThread
    ∧ Kernel.Respects timer' aged' handled' after'

variable {allocator : Allocator ThreadId} {linked next : LinkedKernel} {kernel after : Kernel}
  {signals before later : List SemaphoreId} {action : Kernel.Action} {s : SemaphoreId}

/-- The headers count the threads that are queued, level by level. -/
theorem Represents.numQueued (represents : linked.Represents kernel)
    : linked.numQueued = kernel.scheduler.readyList.threads.length := by
  obtain ⟨cells, strung⟩ := represents.ready.strung
  have counted (level : Level)
      : (linked.lists level).numInList = (kernel.scheduler.readyList.list level).length := by
    rw [← strung.items, List.length_map]
    exact (strung.owns level).counted
  rw [LinkedKernel.numQueued, counted, counted, counted, MultilevelThreadQueue.threads,
    List.length_append, List.length_append]
  rfl

/-- What returns on sequences of threads returns on lists that hold them. -/
theorem Represents.performs (represents : linked.Represents kernel)
    (queued : kernel.scheduler.Queued) (calm : kernel.Calm action)
    (performed : kernel.perform action = .ok after)
    : ∃ next, linked.Performs allocator action next ∧ next.Represents after := by
  have enough : kernel.scheduler.readyList.threads.length + 1
      < kernel.scheduler.readyList.threads.length + 2 :=
    Nat.lt_succ_self _
  obtain ⟨next, ran, still⟩ :=
    @Represents.perform allocator _ _ _ _ represents queued action calm performed enough
  refine ⟨next, ⟨_, ?_, ran⟩, still⟩
  rw [represents.numQueued]
  exact_mod_cast enough

/-- What returned on the lists is what returns on the sequences that they hold. -/
theorem Represents.of_performs (represents : linked.Represents kernel)
    (queued : kernel.scheduler.Queued) (calm : kernel.Calm action)
    (performed : kernel.perform action = .ok after) (done : linked.Performs allocator action next)
    : next.Represents after := by
  obtain ⟨fuel, enough, ran⟩ := done
  rw [represents.numQueued] at enough
  obtain ⟨other, again, still⟩ :=
    @Represents.perform allocator fuel _ _ _ represents queued action calm performed
      (by exact_mod_cast enough)
  obtain rfl := (Prod.mk.inj (again.symm.trans ran)).2
  exact still

-----------------------------------------------------------------------------------------
-- Handlers of devices
-----------------------------------------------------------------------------------------

/-- Handlers of devices return on the lists, by induction on them. -/
theorem Represents.handles (represents : linked.Represents kernel) (ticking : kernel.Ticking)
    (exist : ∀ s ∈ signals, (kernel.semaphores s).isSome)
    : ∃ next after,
        linked.Handles allocator signals next
        ∧ kernel.devices signals = .ok after
        ∧ next.Represents after := by
  induction signals generalizing linked kernel with
  | nil => exact ⟨linked, kernel, .nil linked, rfl, represents⟩
  | cons s rest ih =>
      obtain ⟨middle, performed, still, signalled⟩ := ticking.device (exist s (List.mem_cons_self ..))
      obtain ⟨first, done, between⟩ := @Represents.performs allocator _ _ _ (.device s) represents
        ticking.active.sound.accurate.queued trivial performed
      obtain ⟨next, after, handles, others, ends⟩ := ih between still
        (fun other member => signalled.exist other (exist other (List.mem_cons_of_mem _ member)))
      refine ⟨next, after, Runs.Run.cons done handles, ?_, ends⟩
      rw [Kernel.devices, List.foldlM_cons]
      exact (bind_ok performed _).trans others

/-- Handlers of devices that returned leave an interrupted thread with the same threads to age, by
induction on the run of the handlers.
-/
theorem Represents.of_handles (represents : linked.Represents kernel) (ticking : kernel.Ticking)
    (exist : ∀ s ∈ signals, (kernel.semaphores s).isSome)
    (handles : linked.Handles allocator signals next)
    : ∃ after, next.Represents after ∧ after.Ticking ∧ kernel.Signalled after := by
  have devices : ∀ action ∈ signals.map Kernel.Action.device,
      ∃ s, action = .device s ∧ (kernel.semaphores s).isSome := by
    intro action member
    obtain ⟨s, inside, rfl⟩ := List.mem_map.mp member
    exact ⟨s, rfl, exist s inside⟩
  unfold Handles at handles
  generalize signals.map Kernel.Action.device = actions at handles devices
  induction handles with
  | nil => exact ⟨kernel, represents, ticking, .refl kernel⟩
  | snoc _ last ih =>
      obtain ⟨middle, between, still, signalled⟩ :=
        ih (fun action member => devices action (List.mem_append_left _ member))
      obtain ⟨s, rfl, there⟩ := devices _ (List.mem_append_right _ (List.mem_singleton_self _))
      obtain ⟨after, performed, ends, signals⟩ := still.device (signalled.exist s there)
      have returned := @Represents.of_performs allocator _ _ _ _ (.device s) between
        still.active.sound.accurate.queued trivial performed last
      exact ⟨after, returned, ends, signalled.trans signals⟩

-----------------------------------------------------------------------------------------
-- When a tick respects the levels
-----------------------------------------------------------------------------------------

/-- A handler of the timer that returned has aged the queued threads. -/
theorem Represents.aging_of_timer (represents : linked.Represents kernel)
    (done : linked.Performs allocator .timer next)
    : ∃ fuel aged,
        kernel.scheduler.readyList.threads.length + 1 < fuel
        ∧ (LinkedQueue.aging allocator fuel).run linked.ready = (.ok (), aged) := by
  obtain ⟨fuel, enough, ran⟩ := done
  rw [represents.numQueued] at enough
  obtain ⟨_, entered, handler, called⟩ := of_run_bind_ok ran
  obtain rfl := (Prod.mk.inj handler).2
  rw [LinkedKernel.callBack, run_bind_ok (run_get _)] at called
  obtain ⟨preempt, decided, called, _⟩ := of_run_bind_ok called
  rw [LinkedKernel.onScheduler, run_onPart] at called
  obtain ⟨_, aged, ages, _⟩ := of_run_bind_ok (Prod.ext (Prod.mk.inj called).1 rfl)
  exact ⟨fuel, aged, by exact_mod_cast enough, ages⟩

/-- A calm tick does on the lists what it does on sequences of threads. -/
theorem Represents.tickRespects (represents : linked.Represents kernel)
    (interrupted : kernel.Interrupted) (busy : kernel.interrupt.status ≠ .idleMode)
    (exist : ∀ s ∈ before ++ later, (kernel.semaphores s).isSome)
    (calm : kernel.scheduler.Calm)
    : linked.TickRespects allocator before later := by
  have first (s : SemaphoreId) (member : s ∈ before) : (kernel.semaphores s).isSome :=
    exist s (List.mem_append_left _ member)
  obtain ⟨timer', aged', handled', after', devices, called, others, ends, same, respects⟩ :=
    interrupted.exists_respects busy exist
  obtain ⟨timer, _, handles, done, onTimer⟩ :=
    @Represents.handles allocator _ _ _ represents interrupted.ticking first
  obtain rfl := Except.ok.inj (devices.symm.trans done)
  obtain ⟨_, done, ticks, signalled⟩ := interrupted.ticking.devices first
  obtain rfl := Except.ok.inj (devices.symm.trans done)
  obtain ⟨aged, ages, onAged⟩ := @Represents.performs allocator _ _ _ .timer onTimer
    ticks.active.sound.accurate.queued (signalled.calm.mpr calm) called
  obtain ⟨_, done, still, _, semaphores, _⟩ := ticks.timer (signalled.status ▸ busy)
  obtain rfl := Except.ok.inj (called.symm.trans done)
  have second (s : SemaphoreId) (member : s ∈ later) : (aged'.semaphores s).isSome := by
    rw [semaphores]
    exact signalled.exist s (exist s (List.mem_append_right before member))
  obtain ⟨handled, _, handlesLater, done, onHandled⟩ :=
    @Represents.handles allocator _ _ _ onAged still second
  obtain rfl := Except.ok.inj (others.symm.trans done)
  obtain ⟨_, done, final, _⟩ := still.devices second
  obtain rfl := Except.ok.inj (others.symm.trans done)
  obtain ⟨after, returns, onAfter⟩ := @Represents.performs allocator _ _ _ .handled onHandled
    final.active.sound.accurate.queued trivial ends
  exact ⟨timer, aged, handled, after, timer', aged', handled', after', handles, ages, handlesLater,
    returns, onTimer, onAged, onHandled, onAfter, same.trans represents.currentThread.symm, respects⟩

/-- Where the address of a deleted element is not used again, only a calm tick returns. -/
theorem Represents.calm_of_tickRespects (represents : linked.Represents kernel)
    (interrupted : kernel.Interrupted)
    (exist : ∀ s ∈ before ++ later, (kernel.semaphores s).isSome)
    (respects : linked.TickRespects .fresh before later)
    : kernel.scheduler.Calm := by
  obtain ⟨timer, aged, _, _, _, _, _, _, handles, ages, _⟩ := respects
  obtain ⟨timer', onTimer, ticks, signalled⟩ := represents.of_handles interrupted.ticking
    (fun s member => exist s (List.mem_append_left _ member)) handles
  obtain ⟨fuel, after, _, ran⟩ := onTimer.aging_of_timer ages
  have queued := ticks.active.sound.accurate.queued
  exact signalled.calm.mp (onTimer.ready.calm_of_aging queued ran)

/-- Whatever is queued when the clock ticks on a busy machine, and whatever threads other handlers
make ready before and after the timer's: the tick returns and respects the levels, wherever `new`
makes elements, exactly when aging would take no thread that is queued above the level of its list.
Every tick of every run from boot in which agings were calm so far starts in such a state. A calm
tick does what it does on sequences of threads, and one that returns without using the address of a
deleted element again was calm.
-/
theorem tick_respects_iff_calm {main : ThreadId} {initPriority : Int} {execExit : Bool}
    {first : Kernel} (started : Kernel.initial main initPriority execExit = .ok first)
    : (∀ (linked : LinkedKernel) (kernel : Kernel) (before later : List SemaphoreId),
        linked.Represents kernel
        → kernel.Interrupted
        → kernel.interrupt.status ≠ .idleMode
        → (∀ s ∈ before ++ later, (kernel.semaphores s).isSome)
        → ((∀ allocator, linked.TickRespects allocator before later) ↔ kernel.scheduler.Calm))
      ∧ ∀ linked, Runs.Reachable Step (boot first) linked
        → linked.kernel.control = .tick
        → linked.kernel.interrupt.inHandler = false
        → ∃ kernel, linked.Represents kernel ∧ kernel.Interrupted := by
  constructor
  · intro linked kernel before later represents interrupted busy exist
    constructor
    · intro respects
      exact represents.calm_of_tickRespects interrupted exist (respects .fresh)
    · intro calm allocator
      exact represents.tickRespects interrupted busy exist calm
  · intro linked reachable control outside
    obtain ⟨_, again, working⟩ := Kernel.exists_initial main initPriority execExit
    obtain rfl := Except.ok.inj (started.symm.trans again)
    obtain ⟨kernel, represents, reached⟩ :=
      represents_of_reachable working (readyList_of_initial started) reachable
    refine ⟨kernel, represents, Kernel.interrupted_of_reachable started working reached ?_ ?_⟩
    · rw [← represents.control]
      exact control
    · rw [← represents.interrupt]
      exact outside

-----------------------------------------------------------------------------------------
-- Two ticks
-----------------------------------------------------------------------------------------

/-- Ticks of the clock, and time slices of ten of them, each with the timer's interrupt at the end. -/
def clock (ticks : Nat) : List Kernel.Action :=
  (List.replicate ticks [.call .oneTick, .handled]).flatten

def slices (count : Nat) : List Kernel.Action :=
  (List.replicate count (clock 9 ++ [.call .oneTick, .timer, .handled])).flatten

/-- The main thread 5 forks thread 3, which runs and waits for a semaphore, and then thread 4. It
runs through time slices, signals the semaphore and is interrupted once more.
-/
def wakesAfter (count : Nat) : List Kernel.Action :=
  [
    .call (.construct 3 120), .call (.fork 3), .call (.semaphore 0 0), .call .yield, .resume,
    .handled, .resume
  ]
  ++ clock 2
  ++ [
    .call (.p 0), .findNext, .resume, .resume, .call (.setLevel .intOn), .handled,
    .call (.construct 4 95), .call (.fork 4), .handled
  ]
  ++ slices count ++ clock 8
  ++ [.call (.v 0), .handled, .call .oneTick]

/-- What is computed on sequences of threads is reached on lists. -/
theorem exists_interrupted (actions : List Kernel.Action) (property : Kernel → Prop)
    [DecidablePred property]
    (tested
      : ((Kernel.initial 5 60 false).toOption.bind
          (Runs.follow Kernel.calmNext actions)).any
          (fun kernel =>
            decide
              (kernel.control = .tick ∧ kernel.interrupt.inHandler = false ∧ property kernel)))
    : ∃ first linked kernel,
        Kernel.initial 5 60 false = .ok first
        ∧ Runs.Reachable Step (boot first) linked
        ∧ linked.Represents kernel
        ∧ kernel.Interrupted
        ∧ property kernel := by
  obtain ⟨first, started, working⟩ := Kernel.exists_initial 5 60 false
  obtain ⟨kernel, followed, found⟩ := (Option.any_eq_true _ _).mp tested
  rw [started] at followed
  obtain ⟨control, outside, holds⟩ := of_decide_eq_true found
  have reached : Runs.Reachable Kernel.CalmStep first kernel :=
    .of_follow (fun _ _ _ => Kernel.calmStep_of_next) (.refl first) followed
  obtain ⟨linked, reachable, represents⟩ :=
    exists_represents working (readyList_of_initial started) reached
  obtain ⟨trace, run⟩ := reached
  have steps : Runs.Reachable Kernel.Step first kernel :=
    ⟨trace, run.mono (fun _ _ _ step => step.2)⟩
  exact ⟨first, linked, kernel, started, reachable, represents,
    Kernel.interrupted_of_reachable started working steps control outside, holds⟩

/-- Before thread 4 has waited for an aging period, the main thread in L2 is replaced by the thread
that is ready in L1.
-/
theorem tick_respects_first_slice
    : ∃ first linked kernel,
        Kernel.initial 5 60 false = .ok first
        ∧ Runs.Reachable Step (boot first) linked
        ∧ linked.Represents kernel
        ∧ kernel.scheduler.readyList = { l1 := [3], l2 := [4], l3 := [] }
        ∧ ∀ allocator, linked.TickRespects allocator [] [0] := by
  obtain ⟨first, linked, kernel, started, reachable, represents, interrupted, queue, busy, exist,
      calm⟩ :=
    exists_interrupted (wakesAfter 0)
      (fun kernel =>
        kernel.scheduler.readyList = { l1 := [3], l2 := [4], l3 := [] }
        ∧ kernel.interrupt.status ≠ .idleMode
        ∧ (kernel.semaphores 0).isSome
        ∧ kernel.scheduler.Calm)
      (by decide +kernel)
  refine ⟨first, linked, kernel, started, reachable, represents, queue, ?_⟩
  refine ((tick_respects_iff_calm started).1 linked kernel [] [0] represents interrupted busy ?_).mpr
    calm
  intro s member
  obtain rfl := List.mem_singleton.mp member
  exact exist

/-- A handler without operations changes nothing. -/
theorem eq_of_handles_nil (handles : linked.Handles allocator [] next) : next = linked := by
  unfold Handles at handles
  generalize trace : [].map Kernel.Action.device = actions at handles
  cases handles with
  | nil => rfl
  | snoc => simp at trace

/-- When thread 4 has waited in L2 for an aging period it rises before the front of L1, and the tick
does not return: `PromoteThreads` reads an element that is deleted, or `Remove` fails its assertion.
-/
theorem tick_breaks_at_promotion
    : ∃ first linked kernel,
        Kernel.initial 5 60 false = .ok first
        ∧ Runs.Reachable Step (boot first) linked
        ∧ linked.Represents kernel
        ∧ kernel.Interrupted
        ∧ kernel.interrupt.status ≠ .idleMode
        ∧ kernel.currentThread = 5
        ∧ kernel.scheduler.readyList = { l1 := [3], l2 := [4], l3 := [] }
        ∧ ∀ allocator, ¬linked.TickRespects allocator [] [] := by
  obtain ⟨first, linked, kernel, started, reachable, represents, interrupted, queue, busy, current,
      rises, stays, ahead⟩ :=
    exists_interrupted (wakesAfter 14)
      (fun kernel =>
        kernel.scheduler.readyList = { l1 := [3], l2 := [4], l3 := [] }
        ∧ kernel.interrupt.status ≠ .idleMode
        ∧ kernel.currentThread = 5
        ∧ getQueueLevel (kernel.scheduler.agedPriority 4) = .lv1
        ∧ getQueueLevel (kernel.scheduler.agedPriority 3) = .lv1
        ∧ (kernel.scheduler.agedOn kernel.scheduler.readyList.threads).timeOrder 4 3 < 0)
      (by decide +kernel)
  refine ⟨first, linked, kernel, started, reachable, represents, interrupted, busy, current, queue,
    ?_⟩
  intro allocator respects
  obtain ⟨timer, aged, _, _, _, _, _, _, handles, ages, _⟩ := respects
  obtain rfl := eq_of_handles_nil handles
  obtain ⟨fuel, after, enough, ran⟩ := represents.aging_of_timer ages
  have queued := interrupted.ticking.active.sound.accurate.queued
  exact represents.ready.not_aging queued (congrArg MultilevelThreadQueue.l1 queue)
    (congrArg MultilevelThreadQueue.l2 queue) (by rw [queue]; exact List.forall_mem_nil _) rises
    stays ahead enough ran

end LinkedKernel

end Nachos.Threads
