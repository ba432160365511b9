import Nachos.KernelLib.ListPaths
import Nachos.Threads.QueueSteps

/-! The multilevel ready queue over linked lists in the heap, and the scheduler over it, as the
code walks and changes them.
-/

namespace Nachos.Threads
open Routines Routine LinkedList

/-- The threads and the lists that queue them. -/
structure LinkedQueue where
  threads : ThreadId → Option Thread
  totalTicks : Int
  store : Store ThreadId
  lists : Level → Header

namespace LinkedQueue

/-- What the scheduler works on when the lists hold these threads. -/
def holding (state : LinkedQueue) (queue : MultilevelThreadQueue) : SchedulerState :=
  { threads := state.threads, readyList := queue, totalTicks := state.totalTicks }

/-- What the scheduler works on when only the threads matter. -/
def scheduler (state : LinkedQueue) : SchedulerState :=
  state.holding { l1 := [], l2 := [], l3 := [] }

/-- A routine of the lists. -/
def onStore {α : Type} (routine : Routine Fault (Store ThreadId) α)
    : Routine Fault LinkedQueue α :=
  onPart store (fun state store => { state with store }) routine

def setList (level : Level) (list : Header) : Routine Fault LinkedQueue Unit := do
  let state ← get
  set { state with lists := Function.update state.lists level list }

variable (allocator : Allocator ThreadId) (fuel : Nat)

/-- `MultilevelThreadQueue::Append`. -/
def append (t : ThreadId) : Routine Fault LinkedQueue Unit := do
  let state ← get
  let thread ← lift (state.scheduler.lookup t)
  let level := getQueueLevel thread.getPriority
  let list := state.lists level
  let longer ← onStore (
    match level with
    | .lv1 => LinkedList.insert allocator fuel t state.scheduler.compareTime list
    | .lv2 => LinkedList.insert allocator fuel t state.scheduler.comparePriority list
    | .lv3 => LinkedList.append allocator fuel t list)
  setList level longer

/-- `Thread::Aging`. -/
def ageThread (t : ThreadId) : Routine Fault LinkedQueue Unit := do
  let state ← get
  let aged ← lift (state.scheduler.ageThread t)
  set { state with threads := aged.threads }

/-- `MultilevelThreadQueue::Apply` on the list of one level. -/
def applyTo (callback : ThreadId → Routine Fault LinkedQueue Unit) (level : Level)
    : Routine Fault LinkedQueue Unit := do
  let state ← get
  applyFrom store callback fuel (state.lists level).first

/-- `MultilevelThreadQueue::Apply`. -/
def apply (callback : ThreadId → Routine Fault LinkedQueue Unit)
    : Routine Fault LinkedQueue Unit := do
  applyTo fuel callback .lv1
  applyTo fuel callback .lv2
  applyTo fuel callback .lv3

/-- What the loop of `PromoteThreads` does with one thread. -/
def promoteThread (level : Level) (t : ThreadId) : Routine Fault LinkedQueue Unit := do
  let state ← get
  let thread ← lift (state.scheduler.lookup t)
  if (getQueueLevel thread.getPriority).toNat < level.toNat then
    let shorter ← onStore (LinkedList.remove fuel t (state.lists level))
    setList level shorter
    append allocator fuel t
  else return ()

/-- The loop of `PromoteThreads` from an iterator. -/
def promoteFrom (level : Level) : Nat → ListIterator → Routine Fault LinkedQueue Unit
  | 0, _ => throw .endless
  | turns + 1, it => do
      if it.isDone then return ()
      else
        let t ← onStore it.item
        promoteThread allocator fuel level t
        let moved ← onStore it.next
        promoteFrom level turns moved

def promoteThreads (level : Level) : Routine Fault LinkedQueue Unit := do
  let state ← get
  promoteFrom allocator fuel level fuel (state.store.iterator (state.lists level).first)

/-- `MultilevelThreadQueue::Aging`. -/
def aging : Routine Fault LinkedQueue Unit := do
  apply fuel ageThread
  promoteThreads allocator fuel .lv3
  promoteThreads allocator fuel .lv2

-----------------------------------------------------------------------------------------
-- The scheduler
-----------------------------------------------------------------------------------------

/-- `Thread::setStatus`. -/
def setStatus (t : ThreadId) (st : ThreadStatus) : Routine Fault LinkedQueue Unit := do
  let state ← get
  let changed ← lift (state.scheduler.setStatus t st)
  set { state with threads := changed.threads }

/-- `MultilevelThreadQueue::IsEmpty`. -/
def isEmpty (state : LinkedQueue) : Bool :=
  (state.lists .lv1).isEmpty && (state.lists .lv2).isEmpty && (state.lists .lv3).isEmpty

/-- `RemoveFront` on the list of one level. -/
def removeFrontOf (level : Level) : Routine Fault LinkedQueue ThreadId := do
  let state ← get
  let (t, shorter) ← onStore (LinkedList.removeFront (state.lists level))
  setList level shorter
  return t

/-- `MultilevelThreadQueue::RemoveFront`. -/
def removeFront : Routine Fault LinkedQueue ThreadId := do
  let state ← get
  if (state.lists .lv1).isEmpty = false then removeFrontOf .lv1
  else if (state.lists .lv2).isEmpty = false then removeFrontOf .lv2
  else removeFrontOf .lv3

/-- `MultilevelThreadQueue::ShouldPreempt`. -/
def shouldPreempt (currentThread : ThreadId) : Routine Fault LinkedQueue Bool := do
  let state ← get
  let thread ← lift (state.scheduler.lookup currentThread)
  let currentLevel := getQueueLevel thread.getPriority
  if currentLevel = .lv3 then return true
  else if (state.lists .lv1).isEmpty then return false
  else if currentLevel = .lv2 then return true
  else
    let front ← onStore (LinkedList.read (state.lists .lv1).first)
    let order ← lift (state.scheduler.compareTime currentThread front.item)
    return decide (order > 0)

/-- `Scheduler::ReadyToRun`. -/
def readyToRun (t : ThreadId) : Routine Fault LinkedQueue Unit := do
  setStatus t .ready
  append allocator fuel t

/-- `Scheduler::FindNextToRun`. -/
def findNextToRun : Routine Fault LinkedQueue (Option ThreadId) := do
  let state ← get
  if state.isEmpty then return none
  else
    let t ← removeFront
    return some t

/-- `Alarm::CallBack`: whether the interrupted thread yields when the handler returns. -/
def callBack (idle : Bool) (currentThread : ThreadId) : Routine Fault LinkedQueue Bool := do
  aging allocator fuel
  if idle then return false else shouldPreempt currentThread

-----------------------------------------------------------------------------------------
-- Placement
-----------------------------------------------------------------------------------------

/-- The lists hold the threads of a queue, all of them ready. -/
structure Listed (state : LinkedQueue) (queue : MultilevelThreadQueue) : Prop where
  held : ∀ level, (state.lists level).Holds state.store (queue.list level)
  queued : (state.holding queue).Queued

/-- The lists hold the threads of a queue, every thread in the list of its level. -/
structure Placed (state : LinkedQueue) (queue : MultilevelThreadQueue) : Prop where
  held : ∀ level, (state.lists level).Holds state.store (queue.list level)
  queued : (state.holding queue).Queued
  leveled : ∀ level, ∀ t ∈ queue.list level, (state.holding queue).level t = level

/-- One call of `Aging` returns without following the link of an element that was deleted, and
afterwards the same threads are each in the list of their new level; those that stay in the
third list are there in the order in which they were.
-/
def Restores (allocator : Allocator ThreadId) (state : LinkedQueue)
    (queue : MultilevelThreadQueue)
    : Prop :=
  ∃ fuel after aged,
    (aging allocator fuel).run state = (.ok (), after)
    ∧ after.store.stale = false
    ∧ after.Placed aged
    ∧ aged.threads.Perm queue.threads
    ∧ queue.l3.filter (· ∈ aged.l3) = aged.l3.filter (· ∈ queue.l3)

/-- Ten for every whole aging period that a thread has waited do not take its priority over a
bound between two levels.
-/
def StaysInLevel (state : LinkedQueue) (t : ThreadId) : Prop :=
  ∀ thread,
    state.threads t = some thread
    → getQueueLevel
        (thread.getPriority
          + 10 * (state.totalTicks - thread.orderManager.tickCache).tdiv
              ThreadStateController.agingTick)
      = getQueueLevel thread.getPriority

end LinkedQueue

end Nachos.Threads
