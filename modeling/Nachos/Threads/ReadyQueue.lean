import Nachos.Lib.Insertion
import Nachos.Threads.Thread

/-! The multilevel ready queue and the scheduler over it, with the linked lists taken as
lists of threads.
-/

namespace Nachos.Threads

/-- The address of a thread control block. -/
abbrev ThreadId := Nat

inductive Level where
  | lv1
  | lv2
  | lv3
  deriving DecidableEq

/-- The number of an enumerator. -/
def Level.toNat : Level → Nat
  | .lv1 => 0
  | .lv2 => 1
  | .lv3 => 2

def getQueueLevel (priority : Int) : Level :=
  if priority ≥ 100 then .lv1 else if priority ≥ 50 then .lv2 else .lv3

structure MultilevelThreadQueue where
  l1 : List ThreadId
  l2 : List ThreadId
  l3 : List ThreadId
  deriving DecidableEq

namespace MultilevelThreadQueue

/-- All queued threads, in the order in which `Apply` visits them. -/
def threads (queue : MultilevelThreadQueue) : List ThreadId := queue.l1 ++ queue.l2 ++ queue.l3

def isEmpty (queue : MultilevelThreadQueue) : Bool :=
  queue.l1.isEmpty && queue.l2.isEmpty && queue.l3.isEmpty

/-- The list of one level. -/
def list (queue : MultilevelThreadQueue) : Level → List ThreadId
  | .lv1 => queue.l1
  | .lv2 => queue.l2
  | .lv3 => queue.l3

def setList (queue : MultilevelThreadQueue) (level : Level) (items : List ThreadId)
    : MultilevelThreadQueue :=
  match level with
  | .lv1 => { queue with l1 := items }
  | .lv2 => { queue with l2 := items }
  | .lv3 => { queue with l3 := items }

def removeFront (queue : MultilevelThreadQueue)
    : Except Fault (ThreadId × MultilevelThreadQueue) :=
  match queue.l1, queue.l2, queue.l3 with
  | t :: rest, _, _ => .ok (t, { queue with l1 := rest })
  | [], t :: rest, _ => .ok (t, { queue with l2 := rest })
  | [], [], t :: rest => .ok (t, { queue with l3 := rest })
  | [], [], [] => .error .assertion

end MultilevelThreadQueue

/-- What the scheduler works on. -/
structure SchedulerState where
  threads : ThreadId → Option Thread
  readyList : MultilevelThreadQueue
  totalTicks : Int

namespace SchedulerState

/-- Dereference a thread pointer. -/
def lookup (state : SchedulerState) (t : ThreadId) : Except Fault Thread :=
  match state.threads t with
  | some thread => .ok thread
  | none => .error .danglingPointer

def put (state : SchedulerState) (t : ThreadId) (thread : Thread) : SchedulerState :=
  { state with threads := Function.update state.threads t (some thread) }

def setStatus (t : ThreadId) (st : ThreadStatus) (state : SchedulerState)
    : Except Fault SchedulerState := do
  let thread ← state.lookup t
  let changed ← thread.setStatus state.totalTicks st
  return state.put t changed

def compareTime (state : SchedulerState) (t1 t2 : ThreadId) : Except Fault Int := do
  let left ← state.lookup t1
  let right ← state.lookup t2
  Thread.compareTime state.totalTicks left right

def comparePriority (state : SchedulerState) (t1 t2 : ThreadId) : Except Fault Int := do
  let left ← state.lookup t1
  let right ← state.lookup t2
  Thread.comparePriority left right

/-- Insert into a sorted list, which must not contain the item. -/
def insert (compare : ThreadId → ThreadId → Except Fault Int) (t : ThreadId)
    (items : List ThreadId)
    : Except Fault (List ThreadId) :=
  if t ∈ items then .error .assertion else Insertion.insertBy compare t items

/-- `MultilevelThreadQueue::Append`. -/
def append (t : ThreadId) (state : SchedulerState) : Except Fault SchedulerState := do
  let thread ← state.lookup t
  match getQueueLevel thread.getPriority with
  | .lv1 =>
      let l1 ← insert state.compareTime t state.readyList.l1
      return { state with readyList := { state.readyList with l1 } }
  | .lv2 =>
      let l2 ← insert state.comparePriority t state.readyList.l2
      return { state with readyList := { state.readyList with l2 } }
  | .lv3 =>
      if t ∈ state.readyList.l3 then throw .assertion
      return { state with readyList := { state.readyList with l3 := state.readyList.l3 ++ [t] } }

def readyToRun (t : ThreadId) (state : SchedulerState) : Except Fault SchedulerState := do
  let ready ← state.setStatus t .ready
  ready.append t

/-- The next thread, which leaves the queue, if there is one. -/
def findNextToRun (state : SchedulerState)
    : Except Fault (Option ThreadId × SchedulerState) :=
  if state.readyList.isEmpty then .ok (none, state)
  else do
    let (t, readyList) ← state.readyList.removeFront
    return (some t, { state with readyList })

/-- `Thread::Aging` on one thread. -/
def ageThread (state : SchedulerState) (t : ThreadId) : Except Fault SchedulerState := do
  let thread ← state.lookup t
  let aged ← thread.aging state.totalTicks
  return state.put t aged

/-- One turn of the loop of `PromoteThreads` over the list of `level`. -/
def promoteThread (level : Level) (state : SchedulerState) (t : ThreadId)
    : Except Fault SchedulerState := do
  let thread ← state.lookup t
  if (getQueueLevel thread.getPriority).toNat < level.toNat then
    let without := (state.readyList.list level).erase t
    append t { state with readyList := state.readyList.setList level without }
  else return state

/-- What `PromoteThreads` is for: every thread that is in the list at the call is visited once, in
order. The loop of the source over the cells of the list is `LinkedQueue.promoteThreads`. It reads
the next pointer of a cell that it has deleted, and does this when no thread changes its list.
-/
def promoteThreads (level : Level) (state : SchedulerState) : Except Fault SchedulerState :=
  (state.readyList.list level).foldlM (promoteThread level) state

/-- `MultilevelThreadQueue::Aging`. -/
def aging (state : SchedulerState) : Except Fault SchedulerState := do
  let aged ← state.readyList.threads.foldlM ageThread state
  let promoted ← aged.promoteThreads .lv3
  promoted.promoteThreads .lv2

def shouldPreempt (currentThread : ThreadId) (state : SchedulerState) : Except Fault Bool := do
  let thread ← state.lookup currentThread
  let currentLevel := getQueueLevel thread.getPriority
  if currentLevel = .lv3 then return true
  match state.readyList.l1 with
  | [] => return false
  | front :: _ =>
      if currentLevel = .lv2 then return true
      let order ← state.compareTime currentThread front
      return decide (order > 0)

/-- `Alarm::CallBack`: whether the interrupted thread yields when the handler returns. -/
def callBack (idle : Bool) (currentThread : ThreadId) (state : SchedulerState)
    : Except Fault (Bool × SchedulerState) := do
  let aged ← state.aging
  if idle then return (false, aged)
  else
    let preempt ← aged.shouldPreempt currentThread
    return (preempt, aged)

-----------------------------------------------------------------------------------------
-- Attributes of threads
-----------------------------------------------------------------------------------------

/-- The status of a thread that exists. -/
def statusOf (state : SchedulerState) (t : ThreadId) : Option ThreadStatus :=
  (state.threads t).map Thread.status

def priority (state : SchedulerState) (t : ThreadId) : Int :=
  (state.threads t).elim 0 Thread.getPriority

def level (state : SchedulerState) (t : ThreadId) : Level := getQueueLevel (state.priority t)

def remainTime (state : SchedulerState) (t : ThreadId) : ℚ :=
  (state.threads t).elim 0 (Thread.getRemainTime state.totalTicks)

/-- What `compareTime` returns for threads that may be compared. -/
def timeOrder (state : SchedulerState) (t1 t2 : ThreadId) : Int :=
  truncate (state.remainTime t1 - state.remainTime t2)

/-- What `comparePriority` returns for threads that may be compared. -/
def priorityOrder (state : SchedulerState) (t1 t2 : ThreadId) : Int :=
  state.priority t2 - state.priority t1

/-- The queue with one more thread. -/
def enqueue (state : SchedulerState) (queue : MultilevelThreadQueue) (t : ThreadId)
    : MultilevelThreadQueue :=
  match state.level t with
  | .lv1 => { queue with l1 := queue.l1.orderedInsert (state.timeOrder · · < 0) t }
  | .lv2 => { queue with l2 := queue.l2.orderedInsert (state.priorityOrder · · < 0) t }
  | .lv3 => { queue with l3 := queue.l3 ++ [t] }

/-- Every queued thread is ready and queued once. -/
structure Queued (state : SchedulerState) : Prop where
  ready : ∀ t ∈ state.readyList.threads, state.statusOf t = some .ready
  distinct : state.readyList.threads.Nodup

end SchedulerState

end Nachos.Threads
