import Nachos.Lib.Runs
import Nachos.Threads.QueueSteps

/-! Runs of the scheduler: threads are made, become ready, are picked, run and sleep, and the
timer ages those that wait, all at any times.
-/

namespace Nachos.Threads

/-- What the kernel asks for. Forking, yielding and waking up all make a thread ready. -/
inductive Command where
  | construct (t : ThreadId) (initPriority : Int)
  | readyToRun (t : ThreadId)
  | findNextToRun
  | run (t : ThreadId)
  | sleep (t : ThreadId) (finishing : Bool)
  | aging
  | advance (ticks : Nat)

namespace SchedulerState

/-- The state before any thread is made. -/
def initial : SchedulerState :=
  { threads := fun _ => none, readyList := { l1 := [], l2 := [], l3 := [] }, totalTicks := 0 }

def perform (command : Command) (state : SchedulerState) : Except Fault SchedulerState :=
  match command with
  | .construct t initPriority => .ok (state.put t (.new initPriority state.totalTicks))
  | .readyToRun t => state.readyToRun t
  | .findNextToRun => do
      let (_, after) ← state.findNextToRun
      return after
  | .run t => state.setStatus t .running
  | .sleep t finishing => state.setStatus t (if finishing then .terminated else .waiting)
  | .aging => state.aging
  | .advance ticks => .ok { state with totalTicks := state.totalTicks + ticks }

/-- A new thread is a new object, and only a thread that left the queue runs. -/
def Legal (state : SchedulerState) : Command → Prop
  | .construct t _ => state.threads t = none
  | .run t => t ∉ state.readyList.threads
  | _ => True

/-- A step by a command that meets the condition and returns. -/
def Step (condition : SchedulerState → Command → Prop) (state : SchedulerState)
    (command : Command) (after : SchedulerState)
    : Prop :=
  state.Legal command ∧ condition state command ∧ state.perform command = .ok after

variable {state after : SchedulerState} {t : ThreadId} {command : Command}

-----------------------------------------------------------------------------------------
-- What a command does to the queue
-----------------------------------------------------------------------------------------

/-- The ways in which a command affects the queue and the threads in it. -/
inductive Effect (state : SchedulerState) : Command → SchedulerState → Prop where
  | aside {command : Command} {after : SchedulerState}
      (same : after.readyList = state.readyList)
      (kept : ∀ t ∈ state.readyList.threads, after.threads t = state.threads t)
      : Effect state command after
  | enter {t : ThreadId} {thread changed : Thread} (found : state.threads t = some thread)
      (set : thread.setStatus state.totalTicks .ready = .ok changed)
      (isReady : changed.status = .ready) (notQueued : t ∉ state.readyList.threads)
      : Effect state (.readyToRun t)
          {
            state.put t changed with
            readyList := (state.put t changed).enqueue state.readyList t
          }
  | leave {t : ThreadId} {readyList : MultilevelThreadQueue}
      (removed : state.readyList.removeFront = .ok (t, readyList))
      : Effect state .findNextToRun { state with readyList }
  | age : Effect state .aging state.agedState

/-- A status that is set belongs to a thread that is there, by cases on the lookup and on the
change.
-/
theorem setStatus_eq_ok {st : ThreadStatus} (set : state.setStatus t st = .ok after)
    : ∃ thread changed,
        state.threads t = some thread
        ∧ thread.setStatus state.totalTicks st = .ok changed
        ∧ after = state.put t changed := by
  cases found : state.threads t with
  | none => simp [setStatus, lookup, found, bind, Except.bind] at set
  | some thread =>
      cases changes : thread.setStatus state.totalTicks st with
      | error fault =>
          simp [setStatus, lookup, found, changes, bind, Except.bind] at set
      | ok changed =>
          refine ⟨thread, changed, rfl, changes, ?_⟩
          simp only [setStatus, lookup, found, changes, bind, Except.bind, pure, Except.pure,
            Except.ok.injEq] at set
          exact set.symm

/-- Only threads that are new, running or waiting become ready. -/
theorem status_of_setStatus_ready {totalTicks : Int} {thread changed : Thread}
    (set : thread.setStatus totalTicks .ready = .ok changed)
    : thread.status = .new ∨ thread.status = .running ∨ thread.status = .waiting := by
  cases status : thread.status <;> simp [Thread.setStatus, status] at set ⊢

/-- Only a running thread goes to sleep. -/
theorem status_of_setStatus_sleep {totalTicks : Int} {thread changed : Thread}
    {finishing : Bool}
    (set
      : thread.setStatus totalTicks (if finishing then .terminated else .waiting)
          = .ok changed)
    : thread.status = .running := by
  by_contra other
  cases finishing <;> simp [Thread.setStatus, other] at set

/-- A change to a thread that is not queued leaves the queue alone. -/
theorem Effect.put (notQueued : t ∉ state.readyList.threads) (thread : Thread)
    : Effect state command (state.put t thread) := by
  refine .aside rfl (fun other member => Function.update_of_ne ?_ _ _)
  rintro rfl
  exact notQueued member

/-- Every legal command that returns has one of the effects. -/
theorem Queued.effect (queued : state.Queued) (legal : state.Legal command)
    (performed : state.perform command = .ok after)
    : Effect state command after := by
  have unqueued {t : ThreadId} {thread : Thread} (found : state.threads t = some thread)
      (busy : thread.status ≠ .ready)
      : t ∉ state.readyList.threads := by
    intro member
    obtain ⟨own, ownFound, ownReady⟩ := exists_of_statusOf (queued.ready t member)
    obtain rfl := Option.some.inj (found.symm.trans ownFound)
    exact busy ownReady
  cases command with
  | construct t initPriority =>
      obtain rfl := Except.ok.inj performed
      refine .put (fun member => ?_) _
      obtain ⟨thread, found, _⟩ := exists_of_statusOf (queued.ready t member)
      exact absurd (found.symm.trans legal) (Option.some_ne_none thread)
  | readyToRun t =>
      cases set : state.setStatus t .ready with
      | error fault => simp [perform, readyToRun, set, bind, Except.bind] at performed
      | ok middle =>
          obtain ⟨thread, changed, found, changes, rfl⟩ := setStatus_eq_ok set
          obtain ⟨again, setAgain, isReady, notQueued, done⟩ :=
            readyToRun_eq queued found (status_of_setStatus_ready changes)
          obtain rfl := Except.ok.inj (performed.symm.trans done)
          exact .enter found setAgain isReady notQueued
  | findNextToRun =>
      rcases findNextToRun_eq state with ⟨_, found⟩ | ⟨t, readyList, removed, _, found⟩
      · simp only [perform, found, bind, Except.bind, pure, Except.pure, Except.ok.injEq]
          at performed
        exact .aside (performed ▸ rfl) (fun _ _ => performed ▸ rfl)
      · simp only [perform, found, bind, Except.bind, pure, Except.pure, Except.ok.injEq]
          at performed
        exact performed ▸ .leave removed
  | run t =>
      obtain ⟨thread, changed, found, changes, rfl⟩ := setStatus_eq_ok performed
      exact .put legal changed
  | sleep t finishing =>
      obtain ⟨thread, changed, found, changes, rfl⟩ := setStatus_eq_ok performed
      refine .put (unqueued found ?_) changed
      rw [status_of_setStatus_sleep changes]
      decide
  | aging =>
      rw [perform, aging_eq queued] at performed
      exact Except.ok.inj performed ▸ .age
  | advance ticks =>
      obtain rfl := Except.ok.inj performed
      exact .aside rfl (fun _ _ => rfl)

/-- Each effect keeps the queue in order. -/
theorem Effect.queued (effect : Effect state command after) (queued : state.Queued)
    : after.Queued := by
  cases effect with
  | aside same kept =>
      refine ⟨fun t member => ?_, same ▸ queued.distinct⟩
      rw [same] at member
      rw [statusOf, kept t member]
      exact queued.ready t member
  | enter found set isReady notQueued => exact queued.enqueue notQueued isReady
  | @leave t readyList removed =>
      have parts := MultilevelThreadQueue.removeFront_eq_ok removed
      refine ⟨fun other member => queued.ready other ?_, ?_⟩
      · rw [parts]
        exact List.mem_cons_of_mem _ member
      · exact (List.nodup_cons.mp (parts ▸ queued.distinct)).2
  | age => exact queued.aging

theorem initial_queued : initial.Queued :=
  ⟨fun _ member => absurd member List.not_mem_nil, List.nodup_nil⟩

/-- What every effect keeps holds of every reachable state of an ordered queue. -/
theorem invariant_of_reachable {condition : SchedulerState → Command → Prop}
    {invariant : SchedulerState → Prop}
    (reachable : Runs.Reachable (Step condition) initial state) (start : invariant initial)
    (kept
      : ∀ state command after,
          state.Queued → invariant state → condition state command
          → Effect state command after → invariant after)
    : state.Queued ∧ invariant state := by
  refine @Runs.Reachable.invariant _ _ _ _ _ (fun state => state.Queued ∧ invariant state)
    reachable ⟨initial_queued, start⟩ ?_
  rintro before command after ⟨queued, holds⟩ ⟨legal, allowed, performed⟩
  have effect := queued.effect legal performed
  exact ⟨effect.queued queued, kept _ _ _ queued holds allowed effect⟩

-----------------------------------------------------------------------------------------
-- Execution
-----------------------------------------------------------------------------------------

instance (state : SchedulerState) (command : Command) : Decidable (state.Legal command) :=
  match command with
  | .construct t _ => inferInstanceAs (Decidable (state.threads t = none))
  | .run t => inferInstanceAs (Decidable (t ∉ state.readyList.threads))
  | .readyToRun _ | .findNextToRun | .sleep _ _ | .aging | .advance _ => .isTrue trivial

/-- The state after commands that are all legal, meet the condition and return. -/
def execute (condition : SchedulerState → Command → Prop)
    [∀ state command, Decidable (condition state command)]
    : List Command → SchedulerState → Option SchedulerState
  | [], state => some state
  | command :: rest, state =>
      if state.Legal command ∧ condition state command then
        match state.perform command with
        | .ok after => execute condition rest after
        | .error _ => none
      else none

/-- What an execution ends in is reachable, by induction on the commands. -/
theorem reachable_of_execute {condition : SchedulerState → Command → Prop}
    [∀ state command, Decidable (condition state command)] {commands : List Command}
    {start middle : SchedulerState}
    (before : Runs.Reachable (Step condition) start middle)
    (executed : execute condition commands middle = some state)
    : Runs.Reachable (Step condition) start state := by
  induction commands generalizing middle with
  | nil => exact Option.some.inj executed ▸ before
  | cons command rest ih =>
      rw [execute] at executed
      split at executed
      · rename_i allowed
        cases performed : middle.perform command with
        | error fault => simp [performed] at executed
        | ok after =>
            rw [performed] at executed
            exact ih (before.snoc ⟨allowed.1, allowed.2, performed⟩) executed
      · cases executed

/-- A property that a test finds at the end of an execution holds of a reachable state. -/
theorem exists_reachable_of_execute {condition : SchedulerState → Command → Prop}
    [∀ state command, Decidable (condition state command)] {commands : List Command}
    {property : SchedulerState → Prop} [DecidablePred property]
    (tested : (execute condition commands initial).any (fun state => decide (property state)))
    : ∃ state, Runs.Reachable (Step condition) initial state ∧ property state := by
  obtain ⟨state, executed, holds⟩ := (Option.any_eq_true _ _).mp tested
  exact ⟨state, reachable_of_execute (.refl initial) executed, of_decide_eq_true holds⟩

end SchedulerState

end Nachos.Threads
