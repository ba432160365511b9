import Nachos.Lib.Outcome
import Nachos.Threads.Thread

/-! Aging over any schedule of its calls. The tick cache keeps what is left of a period, so
the calls on a ready thread add up to one call at the last of their ticks.
-/

namespace Nachos.Threads

/-- What the kernel does to a thread's controller. -/
inductive ControllerCall where
  | setStatus (st : ThreadStatus)
  | aging

namespace Thread

def handle (thread : Thread) (totalTicks : Int) : ControllerCall → Except Fault Thread
  | .setStatus st => thread.setStatus totalTicks st
  | .aging => thread.aging totalTicks

/-- Calls one after the other, each at its tick. -/
def handleAll : List (Int × ControllerCall) → Thread → Except Fault Thread
  | [], thread => .ok thread
  | (totalTicks, call) :: rest, thread => thread.handle totalTicks call >>= handleAll rest

/-- Calls of `aging` at the given ticks. -/
def ageAt (ticks : List Int) (thread : Thread) : Except Fault Thread :=
  thread.handleAll (ticks.map (fun totalTicks => (totalTicks, .aging)))

/-- The thread is ready since a tick, and the aging of a later tick was done. -/
structure AgedSince (p0 t0 totalTicks : Int) (thread : Thread) : Prop where
  isReady : thread.status = .ready
  cached
    : thread.orderManager.tickCache
      = t0 + (totalTicks - t0) / ThreadStateController.agingTick
          * ThreadStateController.agingTick
  raised
    : thread.getPriority
      = min (p0 + 10 * ((totalTicks - t0) / ThreadStateController.agingTick)) 149

-----------------------------------------------------------------------------------------
-- The initial priority
-----------------------------------------------------------------------------------------

/-- No call changes the initial priority, by cases on the call and the status. -/
theorem initPriority_handle {thread after : Thread} {totalTicks : Int} {call : ControllerCall}
    (handled : thread.handle totalTicks call = .ok after)
    : after.orderManager.initPriority = thread.orderManager.initPriority := by
  cases call with
  | setStatus st =>
      unfold handle setStatus at handled
      cases st with
      | ready | running | waiting | terminated =>
          simp only at handled
          split at handled <;> cases handled <;> rfl
      | new | zombie =>
          cases handled
          rfl
  | aging =>
      simp only [handle, aging] at handled
      split at handled
      · injection handled with same
        subst same
        simp only [ThreadStateController.aged]
        split <;> rfl
      · exact nomatch handled

/-- By induction on the calls. -/
theorem initPriority_handleAll {calls : List (Int × ControllerCall)} {thread after : Thread}
    (handled : thread.handleAll calls = .ok after)
    : after.orderManager.initPriority = thread.orderManager.initPriority := by
  induction calls generalizing thread with
  | nil =>
      injection handled with same
      rw [same]
  | cons first rest ih =>
      obtain ⟨next, one, others⟩ := Outcome.of_bind_ok handled
      exact (ih others).trans (initPriority_handle one)

-----------------------------------------------------------------------------------------
-- Ready periods
-----------------------------------------------------------------------------------------

/-- Becoming ready starts the period from the initial priority. -/
theorem AgedSince.of_setStatus {thread ready : Thread} {t0 : Int}
    (bounded : thread.orderManager.initPriority ≤ 149)
    (becomes : thread.setStatus t0 .ready = .ok ready)
    : ready.AgedSince thread.orderManager.initPriority t0 t0 := by
  have reset
      : ready.status = .ready
        ∧ ready.orderManager.tickCache = t0
        ∧ ready.getPriority = thread.orderManager.initPriority := by
    simp only [setStatus] at becomes
    split at becomes <;> cases becomes <;> exact ⟨rfl, rfl, rfl⟩
  obtain ⟨isReady, cached, priority⟩ := reset
  refine ⟨isReady, ?_, ?_⟩
  · rw [cached, Int.sub_self, Int.zero_ediv, Int.zero_mul, Int.add_zero]
  · rw [priority, Int.sub_self, Int.zero_ediv, Int.mul_zero, Int.add_zero, min_eq_left bounded]

/-- The whole periods up to a tick are those done before and those that `aging` finds. -/
theorem age_of_cached {controller : ThreadStateController} {t0 before totalTicks : Int}
    (later : before ≤ totalTicks)
    (cached
      : controller.tickCache
        = t0 + (before - t0) / ThreadStateController.agingTick
            * ThreadStateController.agingTick)
    : controller.age totalTicks
      = (totalTicks - t0) / ThreadStateController.agingTick
          - (before - t0) / ThreadStateController.agingTick := by
  unfold ThreadStateController.agingTick at cached
  unfold ThreadStateController.age ThreadStateController.agingTick
  have left : 0 ≤ totalTicks - controller.tickCache := by omega
  rw [Int.tdiv_eq_ediv_of_nonneg left]
  omega

/-- One call of `aging`: neither the remainder nor the bound loses a period. -/
theorem AgedSince.aging {thread : Thread} {p0 t0 before totalTicks : Int}
    (aged : thread.AgedSince p0 t0 before) (later : before ≤ totalTicks)
    : ∃ after, thread.aging totalTicks = .ok after ∧ after.AgedSince p0 t0 totalTicks := by
  have periods := age_of_cached later aged.cached
  have raised := aged.raised
  refine ⟨_, if_pos aged.isReady, aged.isReady, ?_, ?_⟩
  · have cached := aged.cached
    simp only [ThreadStateController.aged, periods]
    split
    · simp only [cached, ThreadStateController.agingTick]
      omega
    · simp only [ThreadStateController.agingTick] at *
      omega
  · have more
        : (before - t0) / ThreadStateController.agingTick
          ≤ (totalTicks - t0) / ThreadStateController.agingTick := by
      unfold ThreadStateController.agingTick
      omega
    simp only [getPriority] at raised
    simp only [getPriority, ThreadStateController.priority_aged,
      ThreadStateController.agedPriority, periods, raised]
    split <;> omega

/-- All calls, by induction on their ticks. -/
theorem AgedSince.ageAt {ticks : List Int} {thread : Thread} {p0 t0 before : Int}
    (aged : thread.AgedSince p0 t0 before) (ordered : (before :: ticks).Pairwise (· ≤ ·))
    : ∃ after,
        thread.ageAt ticks = .ok after ∧ after.AgedSince p0 t0 (ticks.getLastD before) := by
  induction ticks generalizing thread before with
  | nil => exact ⟨thread, rfl, aged⟩
  | cons tick rest ih =>
      obtain ⟨first, others⟩ := List.pairwise_cons.mp ordered
      obtain ⟨next, called, ready⟩ := aged.aging (first tick List.mem_cons_self)
      obtain ⟨after, rest, done⟩ := ih ready others
      refine ⟨after, ?_, ?_⟩
      · exact (Outcome.bind_ok called _).trans rest
      · rwa [List.getLastD_cons]

/-- However often and whenever a ready thread ages, its priority is its initial one and ten
for each whole period since it became ready, up to the bound; what came before does not
count.
-/
theorem priority_ageAt {p0 created t0 : Int} {history : List (Int × ControllerCall)}
    {thread ready : Thread} {ticks : List Int} (bounded : p0 ≤ 149)
    (before : (Thread.new p0 created).handleAll history = .ok thread)
    (becomes : thread.setStatus t0 .ready = .ok ready)
    (ordered : (t0 :: ticks).Pairwise (· ≤ ·))
    : ∃ after,
        ready.ageAt ticks = .ok after
        ∧ after.status = .ready
        ∧ after.getPriority = min (p0 + 10 * ((ticks.getLastD t0 - t0) / 1500)) 149 := by
  have initial : thread.orderManager.initPriority = p0 := initPriority_handleAll before
  have start := AgedSince.of_setStatus (initial.trans_le bounded) becomes
  rw [initial] at start
  obtain ⟨after, called, aged⟩ := start.ageAt ordered
  exact ⟨after, called, aged.isReady, aged.raised⟩

/-- A thread of priority 40 that ran, became ready again at tick 700 and aged at irregular
ticks.
-/
theorem priority_ageAt_irregular
    : ∃ thread ready after,
        (Thread.new 40 0).handleAll
            [(0, .setStatus .ready), (1600, .aging), (2000, .setStatus .running)]
          = .ok thread
        ∧ thread.setStatus 2700 .ready = .ok ready
        ∧ ready.ageAt [2700, 4199, 4200, 7100] = .ok after
        ∧ after.status = .ready
        ∧ after.getPriority = min (40 + 10 * ((7100 - 2700) / 1500)) 149 := by
  obtain ⟨after, aged, isReady, priority⟩ :=
    @priority_ageAt 40 0 2700
      [(0, .setStatus .ready), (1600, .aging), (2000, .setStatus .running)]
      _ _ [2700, 4199, 4200, 7100] (by decide) rfl rfl (by decide)
  exact ⟨_, _, after, rfl, rfl, aged, isReady, priority⟩

end Thread

end Nachos.Threads
