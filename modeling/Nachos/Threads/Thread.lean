import Mathlib.Algebra.Order.Floor.Ring
import Mathlib.Data.Rat.Floor
import Mathlib.Tactic.Linarith
import Nachos.Fault

/-! Thread status, and the priority and burst times that order the ready queue. Times in
ticks are integers, and the `double` burst times are exact rationals.
-/

namespace Nachos.Threads

inductive ThreadStatus where
  | new
  | ready
  | running
  | waiting
  | terminated
  | zombie
  deriving DecidableEq

/-- The conversion of a `double` to an `int`: rounding toward zero. -/
def truncate (value : ℚ) : Int := if 0 ≤ value then ⌊value⌋ else ⌈value⌉

structure ThreadStateController where
  remainBurstTime : ℚ
  currentBurstTime : ℚ
  lastBurstTime : ℚ
  priority : Int
  initPriority : Int
  tickCache : Int
  deriving DecidableEq

namespace ThreadStateController

def agingTick : Int := 1500

/-- The constructor. -/
def new (initPriority totalTicks : Int) : ThreadStateController :=
  {
    remainBurstTime := 0
    currentBurstTime := 0
    lastBurstTime := 0
    priority := initPriority
    initPriority
    tickCache := totalTicks
  }

variable (totalTicks : Int) (controller : ThreadStateController)

def leaveRun : ThreadStateController :=
  let currentBurstTime :=
    controller.currentBurstTime + (totalTicks - controller.tickCache : Int)
  {
    controller with
    currentBurstTime
    tickCache := totalTicks
    lastBurstTime := currentBurstTime
  }

def toReady : ThreadStateController :=
  { controller with tickCache := totalTicks, priority := controller.initPriority }

def newToReady : ThreadStateController := controller.toReady totalTicks

def waitToReady : ThreadStateController := controller.toReady totalTicks

def runToReady : ThreadStateController := (controller.leaveRun totalTicks).toReady totalTicks

def readyToRun : ThreadStateController := { controller with tickCache := totalTicks }

def runToWait : ThreadStateController :=
  let left := controller.leaveRun totalTicks
  {
    left with
    remainBurstTime := 1 / 2 * left.currentBurstTime + 1 / 2 * left.remainBurstTime
    currentBurstTime := 0
  }

def runToTerminated : ThreadStateController := controller.leaveRun totalTicks

/-- Whole aging periods since the tick cache. -/
def age : Int := (totalTicks - controller.tickCache).tdiv agingTick

/-- The priority that aging gives. -/
def agedPriority : Int :=
  if controller.age totalTicks ≠ 0 then
    min (controller.priority + 10 * controller.age totalTicks) 149
  else controller.priority

/-- `aging` without its assertion. -/
def aged : ThreadStateController :=
  if controller.age totalTicks ≠ 0 then
    {
      controller with
      tickCache := controller.tickCache + controller.age totalTicks * agingTick
      priority := min (controller.priority + 10 * controller.age totalTicks) 149
    }
  else controller

theorem priority_aged
    : (controller.aged totalTicks).priority = controller.agedPriority totalTicks := by
  unfold aged agedPriority
  split <;> rfl

end ThreadStateController

structure Thread where
  status : ThreadStatus
  orderManager : ThreadStateController
  deriving DecidableEq

namespace Thread

/-- The constructor. -/
def new (initPriority totalTicks : Int) : Thread :=
  { status := .new, orderManager := .new initPriority totalTicks }

def getPriority (thread : Thread) : Int := thread.orderManager.priority

def getRemainTime (totalTicks : Int) (thread : Thread) : ℚ :=
  if thread.status = .running then
    thread.orderManager.remainBurstTime
      - (thread.orderManager.currentBurstTime + totalTicks - thread.orderManager.tickCache)
  else thread.orderManager.remainBurstTime - thread.orderManager.currentBurstTime

/-- Change the status; every change to `status` goes through here. -/
def setStatus (totalTicks : Int) (st : ThreadStatus) (thread : Thread) : Except Fault Thread :=
  match st with
  | .ready =>
      match thread.status with
      | .new =>
          .ok { status := st, orderManager := thread.orderManager.newToReady totalTicks }
      | .running =>
          .ok { status := st, orderManager := thread.orderManager.runToReady totalTicks }
      | .waiting =>
          .ok { status := st, orderManager := thread.orderManager.waitToReady totalTicks }
      | _ => .error .assertion
  | .running =>
      if thread.status = .ready then
        .ok { status := st, orderManager := thread.orderManager.readyToRun totalTicks }
      else .error .assertion
  | .waiting =>
      if thread.status = .running then
        .ok { status := st, orderManager := thread.orderManager.runToWait totalTicks }
      else .error .assertion
  | .terminated =>
      if thread.status = .running then
        .ok { status := st, orderManager := thread.orderManager.runToTerminated totalTicks }
      else .error .assertion
  | _ => .ok { thread with status := st }

/-- What the comparisons assert: both threads are ready, or one is and the other runs. -/
def Comparable (t1 t2 : Thread) : Prop :=
  (t1.status = .ready ∧ t2.status = .ready)
  ∨ (t1.status = .ready ∧ t2.status = .running)
  ∨ (t1.status = .running ∧ t2.status = .ready)

instance (t1 t2 : Thread) : Decidable (Comparable t1 t2) :=
  inferInstanceAs (Decidable (_ ∨ _ ∨ _))

def compareTime (totalTicks : Int) (t1 t2 : Thread) : Except Fault Int :=
  if Comparable t1 t2 then
    .ok (truncate (t1.getRemainTime totalTicks - t2.getRemainTime totalTicks))
  else .error .assertion

def comparePriority (t1 t2 : Thread) : Except Fault Int :=
  if Comparable t1 t2 then .ok (t2.getPriority - t1.getPriority) else .error .assertion

def aging (totalTicks : Int) (thread : Thread) : Except Fault Thread :=
  if thread.status = .ready then
    .ok { thread with orderManager := thread.orderManager.aged totalTicks }
  else .error .assertion

-----------------------------------------------------------------------------------------
-- Comparisons
-----------------------------------------------------------------------------------------

/-- A difference counts as negative only from minus one on. -/
theorem truncate_neg_iff (value : ℚ) : truncate value < 0 ↔ value ≤ -1 := by
  unfold truncate
  split
  · have floor : 0 ≤ ⌊value⌋ := Int.floor_nonneg.mpr ‹_›
    constructor
    · intro negative
      omega
    · intro low
      linarith
  · have whole := @Int.ceil_le _ _ _ _ (-1) value
    push_cast at whole
    rw [← whole]
    omega

/-- A difference counts as positive only from one on. -/
theorem truncate_pos_iff (value : ℚ) : 0 < truncate value ↔ 1 ≤ value := by
  unfold truncate
  split
  · exact Int.floor_pos
  · have ceil : ⌈value⌉ ≤ 0 := Int.ceil_nonpos.mpr (le_of_lt (not_le.mp ‹_›))
    constructor
    · intro positive
      omega
    · intro high
      linarith

end Thread

end Nachos.Threads
