import Nachos.Threads.KernelOutcomes
import Nachos.Threads.LifeCycle

/-! What each action does to semaphores and to the threads inside `P`: one case for every way in
which the loop of `P` and the body of `V` can go, and one for all that touches no semaphore.
-/

namespace Nachos.Threads
open Outcome

/-- The semaphore whose `P` a call is inside. -/
def Frame.semaphore? : Frame → Option SemaphoreId
  | .p s _ => some s
  | .begin | .begun | .run | .yield _ | .oneTick _ => none

/-- The semaphores whose `P` some calls are inside. -/
def semaphoresOf (calls : List Frame) : List SemaphoreId := calls.filterMap Frame.semaphore?

/-- The semaphores of a thread's calls are those of its P. -/
theorem mem_semaphoresOf {calls : List Frame} {s : SemaphoreId}
    : s ∈ semaphoresOf calls ↔ ∃ oldLevel, .p s oldLevel ∈ calls := by
  rw [semaphoresOf, List.mem_filterMap]
  constructor
  · rintro ⟨frame, member, inside⟩
    cases frame <;> first | (cases inside; exact ⟨_, member⟩) | exact nomatch inside
  · rintro ⟨oldLevel, member⟩
    exact ⟨_, member, rfl⟩

theorem semaphoresOf_inner {calls : List Frame} (inner : Inner calls)
    : semaphoresOf calls = [] := by
  refine List.filterMap_eq_nil_iff.mpr (fun frame member => ?_)
  have own := inner frame member
  cases frame <;> first | rfl | exact absurd own id

namespace Kernel

variable {kernel after : Kernel} {action : Action} {s : SemaphoreId} {t : ThreadId}

-----------------------------------------------------------------------------------------
-- Threads inside P
-----------------------------------------------------------------------------------------

/-- A thread is in the queue of some semaphore. -/
def Waits (kernel : Kernel) (t : ThreadId) : Prop :=
  kernel.scheduler.statusOf t = some .waiting

/-- A thread runs, or will run when the scheduler picks it. -/
def Going (kernel : Kernel) (t : ThreadId) : Prop :=
  kernel.scheduler.statusOf t = some .ready ∨ kernel.scheduler.statusOf t = some .running

/-- A thread called `P` and did not get through it yet. -/
def InP (kernel : Kernel) (s : SemaphoreId) (t : ThreadId) : Prop :=
  (kernel.Waits t ∨ kernel.Going t) ∧ s ∈ semaphoresOf (kernel.calls t)

/-- The semaphore whose value an action tests in the loop of `P`. -/
def tests (kernel : Kernel) : Action → Option SemaphoreId
  | .call (.p s) => some s
  | .resume =>
      match kernel.calls kernel.currentThread with
      | .p s _ :: _ => some s
      | _ => none
  | _ => none

/-- The semaphore that an action signals by `V`. -/
def Action.signals : Action → Option SemaphoreId
  | .call (.v s) | .device s => some s
  | _ => none

/-- The threads inside `P`, and among them those that wait, are the same. -/
structure Settled (kernel after : Kernel) : Prop where
  inP : ∀ s t, after.InP s t ↔ kernel.InP s t
  waits : ∀ t, after.Waits t ↔ kernel.Waits t

/-- What an action does to semaphores. -/
inductive Effect (kernel : Kernel) (action : Action) (after : Kernel) : Prop where
  | beside (untested : kernel.tests action = none) (unsignalled : action.signals = none)
      (unmade : ∀ s initialValue, action ≠ .call (.semaphore s initialValue))
      (same : after.semaphores = kernel.semaphores) (settled : Settled kernel after)
  | made (s : SemaphoreId) (initialValue : Int)
      (making : action = .call (.semaphore s initialValue))
      (free : kernel.semaphores s = none)
      (stored
        : after.semaphores
          = Function.update kernel.semaphores s (some { value := initialValue, queue := [] }))
      (settled : Settled kernel after)
  /-- `P` takes one unit and returns. -/
  | passed (s : SemaphoreId) (semaphore : Semaphore) (tested : kernel.tests action = some s)
      (unsignalled : action.signals = none) (found : kernel.semaphores s = some semaphore)
      (some : semaphore.value ≠ 0)
      (stored
        : after.semaphores
          = Function.update kernel.semaphores s
              (Option.some { semaphore with value := semaphore.value - 1 }))
      (left : s ∉ semaphoresOf (after.calls kernel.currentThread))
      (inP
        : ∀ s' t, after.InP s' t
          ↔ kernel.InP s' t ∧ ¬(s' = s ∧ t = kernel.currentThread))
      (waits : ∀ t, after.Waits t ↔ kernel.Waits t)
  /-- `P` finds no unit, and the thread goes to sleep in the queue. -/
  | slept (s : SemaphoreId) (semaphore : Semaphore) (tested : kernel.tests action = some s)
      (unsignalled : action.signals = none) (found : kernel.semaphores s = some semaphore)
      (taken : semaphore.value = 0)
      (stored
        : after.semaphores
          = Function.update kernel.semaphores s
              (some
                { semaphore with queue := semaphore.queue ++ [kernel.currentThread] }))
      (stays : s ∈ semaphoresOf (after.calls kernel.currentThread))
      (inP
        : ∀ s' t, after.InP s' t
          ↔ kernel.InP s' t ∨ (s' = s ∧ t = kernel.currentThread))
      (waits : ∀ t, after.Waits t ↔ kernel.Waits t ∨ t = kernel.currentThread)
  /-- `V` finds no thread in the queue. -/
  | signalled (s : SemaphoreId) (semaphore : Semaphore) (untested : kernel.tests action = none)
      (signals : action.signals = some s) (found : kernel.semaphores s = some semaphore)
      (empty : semaphore.queue = [])
      (stored
        : after.semaphores
          = Function.update kernel.semaphores s
              (some { semaphore with value := semaphore.value + 1 }))
      (settled : Settled kernel after)
  /-- `V` makes the first thread in the queue ready. -/
  | woke (s : SemaphoreId) (semaphore : Semaphore) (t : ThreadId) (rest : List ThreadId)
      (untested : kernel.tests action = none) (signals : action.signals = some s)
      (found : kernel.semaphores s = some semaphore) (queue : semaphore.queue = t :: rest)
      (stored
        : after.semaphores
          = Function.update kernel.semaphores s
              (some { value := semaphore.value + 1, queue := rest }))
      (inP : ∀ s t, after.InP s t ↔ kernel.InP s t)
      (waits : ∀ u, after.Waits u ↔ kernel.Waits u ∧ u ≠ t)

-----------------------------------------------------------------------------------------
-- Changes beside semaphores
-----------------------------------------------------------------------------------------

/-- One thread is where it was, or only went on between being ready and running. -/
structure Steady (kernel after : Kernel) (t : ThreadId) : Prop where
  status : after.scheduler.statusOf t = kernel.scheduler.statusOf t
    ∨ (kernel.Going t ∧ after.Going t)
  calls : semaphoresOf (after.calls t) = semaphoresOf (kernel.calls t)

/-- One thread is neither inside `P` nor waits. -/
def Outside (kernel : Kernel) (t : ThreadId) : Prop :=
  ¬kernel.Waits t ∧ (kernel.Going t → semaphoresOf (kernel.calls t) = [])

theorem Going.not_waits (going : kernel.Going t) : ¬kernel.Waits t := by
  intro waits
  rcases going with ready | running
  · exact nomatch ready.symm.trans waits
  · exact nomatch running.symm.trans waits

theorem Outside.not_inP (outside : kernel.Outside t) : ¬kernel.InP s t := by
  rintro ⟨waits | going, member⟩
  · exact outside.1 waits
  · rw [outside.2 going] at member
    exact List.not_mem_nil member

theorem Steady.refl (kernel : Kernel) (t : ThreadId) : Steady kernel kernel t := ⟨.inl rfl, rfl⟩

theorem Steady.waits_iff (steady : Steady kernel after t) : after.Waits t ↔ kernel.Waits t := by
  rcases steady.status with same | ⟨before, now⟩
  · rw [Waits, same, Waits]
  · exact iff_of_false now.not_waits before.not_waits

/-- A steady thread is in P after as before, by cases on its status. -/
theorem Steady.inP_iff (steady : Steady kernel after t) : after.InP s t ↔ kernel.InP s t := by
  have going : after.Waits t ∨ after.Going t ↔ kernel.Waits t ∨ kernel.Going t := by
    rcases steady.status with same | ⟨before, now⟩
    · rw [Waits, Going, same, Waits, Going]
    · exact iff_of_true (.inr now) (.inr before)
  rw [InP, going, steady.calls, InP]

/-- Threads inside `P` are the same when each is steady, or outside before and after. -/
theorem Settled.of (each : ∀ t, Steady kernel after t ∨ (kernel.Outside t ∧ after.Outside t))
    : Settled kernel after where
  inP s t := by
    rcases each t with steady | ⟨before, now⟩
    · exact steady.inP_iff
    · exact iff_of_false now.not_inP before.not_inP
  waits t := by
    rcases each t with steady | ⟨before, now⟩
    · exact steady.waits_iff
    · exact iff_of_false now.1 before.1

theorem Settled.of_same (same : Same kernel after) : Settled kernel after :=
  .of (fun t => .inl ⟨.inl (by rw [same.statusOf]), by rw [same.calls]⟩)

theorem Settled.trans {middle : Kernel} (first : Settled kernel middle)
    (second : Settled middle after)
    : Settled kernel after :=
  ⟨fun s t => (second.inP s t).trans (first.inP s t),
    fun t => (second.waits t).trans (first.waits t)⟩

/-- A running thread that leaves the processor to a ready one. -/
theorem steady_of_moved {current next : ThreadId}
    (own : kernel.scheduler.statusOf current = some .running)
    (ready : next ≠ current → kernel.scheduler.statusOf next = some .ready)
    (changes
      : after.scheduler.statusOf
        = Function.update
            (Function.update kernel.scheduler.statusOf current (some .ready)) next
            (some .running))
    (calls : ∀ t, semaphoresOf (after.calls t) = semaphoresOf (kernel.calls t))
    (t : ThreadId)
    : Steady kernel after t := by
  refine ⟨?_, calls t⟩
  rw [Going, Going, changes]
  by_cases onto : t = next
  · subst onto
    by_cases same : t = current
    · exact .inl (by rw [Function.update_self, same, own])
    · exact .inr ⟨.inl (ready same), .inr (Function.update_self ..)⟩
  · rw [Function.update_of_ne onto]
    by_cases leaving : t = current
    · exact .inr ⟨.inr (leaving ▸ own), .inl (leaving ▸ Function.update_self ..)⟩
    · exact .inl (Function.update_of_ne leaving ..)

/-- Calls other than `P` come and go. -/
theorem semaphoresOf_update {calls : ThreadId → List Frame} {current : ThreadId}
    {frames : List Frame} (same : semaphoresOf frames = semaphoresOf (calls current))
    (t : ThreadId)
    : semaphoresOf (Function.update calls current frames t) = semaphoresOf (calls t) := by
  by_cases own : t = current
  · rw [own, Function.update_self, same]
  · rw [Function.update_of_ne own]

/-- Yield leaves every thread steady, by cases on whether another one is ready. -/
theorem settled_of_yield (running : kernel.scheduler.statusOf kernel.currentThread = some .running)
    (returned : kernel.yield = .ok after)
    : after.semaphores = kernel.semaphores ∧ Settled kernel after := by
  rcases of_yield returned with ⟨_, same, _⟩ | ⟨next, _, _, _, _, _, rfl, changes, ready⟩
  · exact ⟨same.semaphores, .of_same same⟩
  · refine ⟨rfl, .of (fun t => .inl (steady_of_moved running ?_ changes ?_ t))⟩
    · intro apart
      rwa [Function.update_of_ne apart] at ready
    · exact semaphoresOf_update rfl

/-- `Run` switches from a thread that went to sleep. -/
theorem settled_of_run {next : ThreadId} {finishing : Bool}
    (returned : kernel.run next finishing = .ok after)
    : after.semaphores = kernel.semaphores ∧ Settled kernel after := by
  obtain ⟨scheduler, _, rfl, ready, changes⟩ := of_run returned
  refine ⟨rfl, .of (fun t => .inl ⟨?_, ?_⟩)⟩
  case refine_2 =>
    exact @semaphoresOf_update kernel.calls kernel.currentThread
      (.run :: kernel.calls kernel.currentThread) rfl t
  rw [Going, Going]
  change scheduler.statusOf t = _ ∨ _
  by_cases onto : t = next
  · subst onto
    exact .inr ⟨.inl ready, .inr ((congrFun changes t).trans (Function.update_self ..))⟩
  · exact .inl ((congrFun changes t).trans (Function.update_of_ne onto ..))

/-- A thread that has no life in the scheduler is outside. -/
theorem outside_of_status {st : Option ThreadStatus}
    (status : kernel.scheduler.statusOf t = st)
    (away : st ≠ some .waiting ∧ st ≠ some .ready ∧ st ≠ some .running)
    : kernel.Outside t := by
  rw [Outside, Going, Waits, status]
  exact ⟨away.1, fun going => absurd going (not_or.mpr away.2)⟩

/-- Only a thread that ended is deleted. -/
theorem settled_of_checkToBeDestroyed
    (ended
      : ∀ t, kernel.toBeDestroyed = some t
        → kernel.scheduler.statusOf t = some .terminated)
    (returned : kernel.checkToBeDestroyed = .ok after)
    : after.semaphores = kernel.semaphores ∧ Settled kernel after := by
  rcases of_checkToBeDestroyed returned with rfl | ⟨gone, history, marked, _, rfl⟩
  · exact ⟨rfl, .of (fun t => .inl (.refl _ t))⟩
  · refine ⟨rfl, .of (fun t => ?_)⟩
    by_cases same : t = gone
    · subst same
      refine .inr ⟨outside_of_status (ended t marked) (by decide), ?_⟩
      refine @outside_of_status _ _ none ?_ (by decide)
      simp [SchedulerState.statusOf]
    · refine .inl ⟨.inl ?_, congrArg semaphoresOf (Function.update_of_ne same ..)⟩
      simp [SchedulerState.statusOf, same]

/-- A thread that is about to start is outside. -/
theorem settled_of_fork (isNew : kernel.scheduler.statusOf t = some .new)
    (returned : kernel.fork t = .ok after)
    : after.semaphores = kernel.semaphores ∧ Settled kernel after := by
  obtain ⟨scheduler, history, same, _, changes⟩ := of_fork returned
  refine ⟨same.semaphores, .of (fun other => ?_)⟩
  have status := congrFun (same.statusOf.trans changes) other
  have calls := congrFun same.calls other
  by_cases own : other = t
  · subst own
    rw [Function.update_self] at status
    have started : after.calls other = [.begin] := calls.trans (Function.update_self ..)
    refine .inr ⟨outside_of_status isNew (by decide), ?_⟩
    rw [Outside, Waits, status, started]
    exact ⟨nofun, fun _ => rfl⟩
  · rw [Function.update_of_ne own] at status
    refine .inl ⟨.inl status, ?_⟩
    rw [calls]
    exact congrArg semaphoresOf (Function.update_of_ne own ..)

/-- A new thread leaves the others steady, by cases on the thread asked about. -/
theorem settled_of_construct (free : kernel.scheduler.threads t = none) (initPriority : Int)
    : Settled kernel (kernel.construct t initPriority) := by
  refine .of (fun other => ?_)
  have status : (kernel.construct t initPriority).scheduler.statusOf other
      = Function.update kernel.scheduler.statusOf t (some .new) other :=
    congrFun (SchedulerState.statusOf_put ..) other
  by_cases own : other = t
  · subst own
    rw [Function.update_self] at status
    have absent : kernel.scheduler.statusOf other = none := by
      rw [SchedulerState.statusOf, free, Option.map_none]
    exact .inr ⟨outside_of_status absent (by decide), outside_of_status status (by decide)⟩
  · rw [Function.update_of_ne own] at status
    exact .inl ⟨.inl status, congrArg semaphoresOf (Function.update_of_ne own ..)⟩

/-- A thread finishes only outside all calls. -/
theorem settled_of_finish (running : kernel.scheduler.statusOf kernel.currentThread = some .running)
    (own : kernel.calls kernel.currentThread = []) (returned : kernel.finish = .ok after)
    : after.semaphores = kernel.semaphores ∧ Settled kernel after := by
  obtain ⟨scheduler, _, _, _, rfl, changes⟩ := of_finish returned
  refine ⟨rfl, .of (fun t => ?_)⟩
  rcases changes with rfl | changes
  · exact .inl ⟨.inl rfl, rfl⟩
  · have status := congrFun changes t
    by_cases leaving : t = kernel.currentThread
    · subst leaving
      rw [Function.update_self] at status
      refine .inr ⟨?_, outside_of_status status (by decide)⟩
      rw [Outside, Waits, running, own]
      exact ⟨nofun, fun _ => rfl⟩
    · rw [Function.update_of_ne leaving] at status
      exact .inl ⟨.inl status, rfl⟩

-----------------------------------------------------------------------------------------
-- P and V
-----------------------------------------------------------------------------------------

section Wait

variable {semaphore : Semaphore}

/-- `P` found a unit and left the loop: the current thread was in no other `P` before, and is in
none now.
-/
theorem effect_of_taken (tested : kernel.tests action = some s)
    (unsignalled : action.signals = none) (found : kernel.semaphores s = some semaphore)
    (some : semaphore.value ≠ 0)
    (stored
      : after.semaphores
        = Function.update kernel.semaphores s
            (Option.some { semaphore with value := semaphore.value - 1 }))
    (status : after.scheduler.statusOf = kernel.scheduler.statusOf)
    (others : ∀ t, t ≠ kernel.currentThread → after.calls t = kernel.calls t)
    (before : ∀ s' ∈ semaphoresOf (kernel.calls kernel.currentThread), s' = s)
    (own : semaphoresOf (after.calls kernel.currentThread) = [])
    : Effect kernel action after := by
  refine .passed s semaphore tested unsignalled found some stored ?_ (fun s' t => ?_)
    (fun t => ?_)
  · rw [own]
    exact List.not_mem_nil
  · by_cases leaves : t = kernel.currentThread
    · subst leaves
      refine iff_of_false ?_ (fun inside => inside.2 ⟨before s' inside.1.2, rfl⟩)
      rw [InP, own]
      exact fun inside => List.not_mem_nil inside.2
    · have steady : Steady kernel after t :=
        ⟨.inl (congrFun status t), by rw [others t leaves]⟩
      rw [steady.inP_iff]
      simp [leaves]
  · rw [Waits, status, Waits]

/-- `P` found no unit: the current thread sleeps in the loop of this `P`. -/
theorem effect_of_slept (tested : kernel.tests action = some s)
    (unsignalled : action.signals = none) (found : kernel.semaphores s = some semaphore)
    (taken : semaphore.value = 0)
    (stored
      : after.semaphores
        = Function.update kernel.semaphores s
            (some { semaphore with queue := semaphore.queue ++ [kernel.currentThread] }))
    (status
      : after.scheduler.statusOf
        = Function.update kernel.scheduler.statusOf kernel.currentThread (some .waiting))
    (others : ∀ t, t ≠ kernel.currentThread → after.calls t = kernel.calls t)
    (before : ∀ s' ∈ semaphoresOf (kernel.calls kernel.currentThread), s' = s)
    (own : semaphoresOf (after.calls kernel.currentThread) = [s])
    : Effect kernel action after := by
  have waiting : after.Waits kernel.currentThread := by
    rw [Waits, status, Function.update_self]
  have steady {t : ThreadId} (apart : t ≠ kernel.currentThread) : Steady kernel after t :=
    ⟨.inl (by rw [status, Function.update_of_ne apart]), by rw [others t apart]⟩
  refine .slept s semaphore tested unsignalled found taken stored ?_ (fun s' t => ?_)
    (fun t => ?_)
  · rw [own]
    exact List.mem_singleton_self s
  · by_cases same : t = kernel.currentThread
    · subst same
      rw [InP, own, List.mem_singleton]
      exact ⟨fun inside => .inr ⟨inside.2, rfl⟩,
        fun inside => ⟨.inl waiting, inside.elim (fun old => before s' old.2) And.left⟩⟩
    · rw [(steady same).inP_iff]
      simp [same]
  · by_cases same : t = kernel.currentThread
    · subst same
      exact iff_of_true waiting (.inr rfl)
    · rw [(steady same).waits_iff]
      simp [same]

/-- One turn of the loop of `P`, where the current thread was in no other `P` before, and left
this one.
-/
theorem effect_of_wait {entered : Kernel} {oldLevel : IntStatus}
    (tested : kernel.tests action = some s) (unsignalled : action.signals = none)
    (scheduler : entered.scheduler = kernel.scheduler)
    (semaphores : entered.semaphores = kernel.semaphores)
    (current : entered.currentThread = kernel.currentThread)
    (others : ∀ t, t ≠ kernel.currentThread → entered.calls t = kernel.calls t)
    (before : ∀ s' ∈ semaphoresOf (kernel.calls kernel.currentThread), s' = s)
    (own : semaphoresOf (entered.calls kernel.currentThread) = [])
    (returned : entered.wait s oldLevel = .ok after)
    : Effect kernel action after := by
  obtain ⟨semaphore, found, ⟨taken, _, slept, history, rfl, changes⟩ | ⟨some, same, _⟩⟩ :=
    of_wait returned
  · rw [scheduler, current] at changes
    rw [semaphores] at found
    refine effect_of_slept tested unsignalled found taken ?_ changes (fun t apart => ?_) before ?_
    · change Function.update entered.semaphores s _ = _
      rw [semaphores, current]
    · change Function.update entered.calls entered.currentThread _ t = _
      rw [current, Function.update_of_ne apart, others t apart]
    · change semaphoresOf (Function.update entered.calls entered.currentThread
        (.p s oldLevel :: entered.calls entered.currentThread) kernel.currentThread) = _
      rw [current, Function.update_self]
      exact congrArg (s :: ·) own
  · have calls : after.calls = entered.calls := same.calls
    have status := same.statusOf
    change after.scheduler.statusOf = entered.scheduler.statusOf at status
    rw [scheduler] at status
    rw [semaphores] at found
    refine effect_of_taken tested unsignalled found some ?_ status ?_ before ?_
    · rw [same.semaphores]
      change Function.update entered.semaphores s _ = _
      rw [semaphores]
    · rw [calls]
      exact others
    · rw [calls, own]

end Wait

/-- `V`, in a thread or in a handler. -/
theorem effect_of_v {entered : Kernel} (untested : kernel.tests action = none)
    (signals : action.signals = some s)
    (waiting : Waiting kernel.semaphores kernel.scheduler.statusOf) (same : Same kernel entered)
    (returned : entered.v s = .ok after)
    : Effect kernel action after := by
  obtain ⟨semaphore, found, _, ⟨empty, stored⟩ | ⟨first, rest, scheduler, history, queue, ready,
    stored⟩⟩ := of_v returned
  · rw [same.semaphores] at found
    have status : after.scheduler.statusOf = kernel.scheduler.statusOf :=
      stored.statusOf.trans same.statusOf
    have calls : after.calls = kernel.calls := stored.calls.trans same.calls
    refine .signalled s semaphore untested signals found empty ?_
      (.of (fun t => .inl ⟨.inl (congrFun status t), by rw [calls]⟩))
    rw [stored.semaphores, ← same.semaphores]
    rfl
  · rw [same.semaphores] at found
    have status : after.scheduler.statusOf
        = Function.update kernel.scheduler.statusOf first (some .ready) := by
      rw [← same.statusOf, ← SchedulerState.of_readyToRun ready]
      exact stored.statusOf
    have calls : after.calls = kernel.calls := stored.calls.trans same.calls
    have waited : kernel.Waits first :=
      waiting.waiting s semaphore first found (queue ▸ List.mem_cons_self ..)
    have now : after.Going first := .inl ((congrFun status first).trans (Function.update_self ..))
    have steady (t : ThreadId) (apart : t ≠ first) : Steady kernel after t :=
      ⟨.inl ((congrFun status t).trans (Function.update_of_ne apart ..)), by rw [calls]⟩
    refine .woke s semaphore first rest untested signals found queue ?_ ?_ ?_
    · rw [stored.semaphores, ← same.semaphores]
      rfl
    · intro s' t
      by_cases own : t = first
      · subst own
        rw [InP, InP, calls]
        exact and_congr_left' (iff_of_true (.inr now) (.inl waited))
      · exact (steady t own).inP_iff
    · intro t
      by_cases own : t = first
      · subst own
        simp [now.not_waits]
      · simp [(steady t own).waits_iff, own]

-----------------------------------------------------------------------------------------
-- Every action
-----------------------------------------------------------------------------------------

/-- Books that are the same but for the interrupt hardware. -/
theorem effect_of_settled (untested : kernel.tests action = none)
    (unsignalled : action.signals = none)
    (unmade : ∀ s initialValue, action ≠ .call (.semaphore s initialValue))
    (settled : after.semaphores = kernel.semaphores ∧ Settled kernel after)
    : Effect kernel action after :=
  .beside untested unsignalled unmade settled.1 settled.2

theorem effect_of_same (untested : kernel.tests action = none)
    (unsignalled : action.signals = none)
    (unmade : ∀ s initialValue, action ≠ .call (.semaphore s initialValue))
    (same : Same kernel after)
    : Effect kernel action after :=
  effect_of_settled untested unsignalled unmade ⟨same.semaphores, .of_same same⟩

/-- A call of a thread's own code. -/
theorem Working.effect {call : Call} (working : kernel.Working)
    (own : kernel.calls kernel.currentThread = []) (admissible : kernel.Admissible call)
    (returned : kernel.perform (.call call) = .ok after)
    : Effect kernel (.call call) after := by
  have active := working.active
  have running := (active.running kernel.currentThread).mpr rfl
  cases call with
  | construct t initPriority =>
      obtain rfl := Except.ok.inj returned
      exact .beside rfl rfl nofun rfl (settled_of_construct admissible initPriority)
  | fork t => exact effect_of_settled rfl rfl nofun (settled_of_fork admissible returned)
  | yield => exact effect_of_settled rfl rfl nofun (settled_of_yield running returned)
  | finish => exact effect_of_settled rfl rfl nofun (settled_of_finish running own returned)
  | semaphore s initialValue =>
      obtain rfl := Except.ok.inj returned
      exact .made s initialValue rfl admissible rfl (.of (fun t => .inl ⟨.inl rfl, rfl⟩))
  | p s =>
      have waited := of_p returned
      exact @effect_of_wait kernel after _ s { kernel with interrupt.level := .intOff } _ rfl rfl
        rfl rfl rfl (fun _ _ => rfl) (fun s' inside => by rw [own] at inside; cases inside)
        (congrArg semaphoresOf own) waited
  | v s =>
      exact effect_of_v rfl rfl active.sound.waiting ⟨rfl, rfl, rfl, rfl, rfl, rfl, rfl⟩ returned
  | setLevel now => exact effect_of_same rfl rfl nofun (of_setLevel returned).1
  | setIsExec t =>
      obtain rfl := Except.ok.inj returned
      exact effect_of_same rfl rfl nofun ⟨rfl, rfl, rfl, rfl, rfl, rfl, rfl⟩
  | setStatus status =>
      obtain rfl := Except.ok.inj returned
      exact effect_of_same rfl rfl nofun ⟨rfl, rfl, rfl, rfl, rfl, rfl, rfl⟩
  | oneTick =>
      obtain rfl := Except.ok.inj returned
      exact effect_of_same rfl rfl nofun ⟨rfl, rfl, rfl, rfl, rfl, rfl, rfl⟩
  | halt =>
      obtain rfl := Except.ok.inj returned
      exact effect_of_same rfl rfl nofun ⟨rfl, rfl, rfl, rfl, rfl, rfl, rfl⟩

/-- A call other than `P` returns. -/
theorem settled_of_pop {frame : Frame} {rest : List Frame}
    (calls : kernel.calls kernel.currentThread = frame :: rest) (other : frame.semaphore? = none)
    : Settled kernel kernel.pop := by
  refine .of (fun t => .inl ⟨.inl rfl, semaphoresOf_update ?_ t⟩)
  rw [calls, List.tail_cons, semaphoresOf, semaphoresOf, List.filterMap_cons, other]

theorem settled_of_push {frame : Frame} (other : frame.semaphore? = none)
    : Settled kernel (kernel.push kernel.currentThread frame) := by
  refine .of (fun t => .inl ⟨.inl rfl, semaphoresOf_update ?_ t⟩)
  rw [semaphoresOf, semaphoresOf, List.filterMap_cons, other]

/-- SWITCH leads to a thread that deletes the one that ended. -/
theorem Switched.settled {checked : Kernel} (switched : kernel.Switched) {frame : Frame}
    {rest : List Frame} (calls : kernel.calls kernel.currentThread = frame :: rest)
    (other : frame.semaphore? = none) (returned : kernel.pop.checkToBeDestroyed = .ok checked)
    : checked.semaphores = kernel.semaphores ∧ Settled kernel checked := by
  obtain ⟨same, settled⟩ := @settled_of_checkToBeDestroyed kernel.pop checked
    (fun t marked => (switched.sound.terminated t).mpr marked) returned
  exact ⟨same, (settled_of_pop calls other).trans settled⟩

/-- Only right after a switch is the current thread in one of these calls. -/
theorem switched_of_frames {frame : Frame} {rest : List Frame}
    (place : kernel.Working ∨ kernel.Returning ∨ kernel.Switched)
    (frames : kernel.calls kernel.currentThread = frame :: rest)
    (switches : frame = .begin ∨ frame = .run)
    : kernel.Switched := by
  rcases place with working | returning | switched
  · have inner := working.inner _ (frames ▸ List.mem_cons_self ..)
    rcases switches with rfl | rfl <;> exact absurd inner id
  · have blocked := returning.blocked
    rw [frames] at blocked
    rcases switches with rfl | rfl <;> cases blocked
  · exact switched

/-- The current thread goes on in a call. -/
theorem Invariant.effect_of_resume (invariant : kernel.Invariant)
    (legal : kernel.Legal .resume) (returned : kernel.perform .resume = .ok after)
    : Effect kernel .resume after := by
  have place := invariant.of_thread legal.1
  have unmade (s : SemaphoreId) (initialValue : Int)
      : Action.resume ≠ .call (.semaphore s initialValue) := by
    rintro ⟨⟩
  cases frames : kernel.calls kernel.currentThread with
  | nil => exact absurd frames legal.2
  | cons frame rest =>
      simp only [Kernel.perform, Kernel.resume, frames] at returned
      cases frame with
      | p s oldLevel =>
          have inner : Inner rest := by
            rcases place with working | returning | switched
            · exact absurd (working.inner _ (frames ▸ List.mem_cons_self ..)) id
            · have blocked := returning.blocked
              rw [frames] at blocked
              cases blocked with
              | p _ _ inner => exact inner
            · have suspended := switched.suspended
              rw [frames] at suspended
              cases suspended
          refine @effect_of_wait kernel after .resume s kernel.pop oldLevel
            (by simp [tests, frames]) rfl rfl rfl rfl
            (fun t apart => Function.update_of_ne apart ..) (fun s' inside => ?_) ?_ returned
          · rw [frames] at inside
            rcases List.mem_cons.mp inside with same | deeper
            · exact same
            · change s' ∈ semaphoresOf rest at deeper
              rw [semaphoresOf_inner inner] at deeper
              cases deeper
          · rw [calls_pop, frames]
            exact semaphoresOf_inner inner
      | begin =>
          have switched := switched_of_frames place frames (.inl rfl)
          obtain ⟨checked, deleted, others⟩ := of_bind_ok returned
          obtain ⟨same, settled⟩ := switched.settled frames rfl deleted
          have levelled := (of_setLevel others).1
          exact .beside (by simp [tests, frames]) rfl unmade (levelled.semaphores.trans same)
            ((settled.trans (settled_of_push rfl)).trans (.of_same levelled))
      | run =>
          have switched := switched_of_frames place frames (.inr rfl)
          obtain ⟨_, _, deleted⟩ := of_bind_ok returned
          exact effect_of_settled (by simp [tests, frames]) rfl unmade
            (switched.settled frames rfl deleted)
      | begun =>
          refine effect_of_settled (by simp [tests, frames]) rfl unmade ?_
          have popped := settled_of_pop frames rfl
          dsimp only at returned
          split at returned <;> obtain rfl := Except.ok.inj returned
          · exact ⟨rfl, popped.trans (.of_same ⟨rfl, rfl, rfl, rfl, rfl, rfl, rfl⟩)⟩
          · exact ⟨rfl, popped⟩
      | yield oldLevel =>
          have levelled := (of_setLevel returned).1
          exact effect_of_settled (by simp [tests, frames]) rfl unmade
            ⟨levelled.semaphores, (settled_of_pop frames rfl).trans (.of_same levelled)⟩
      | oneTick oldStatus =>
          obtain rfl := Except.ok.inj returned
          exact effect_of_settled (by simp [tests, frames]) rfl unmade
            ⟨rfl, (settled_of_pop frames rfl).trans
              (.of_same ⟨rfl, rfl, rfl, rfl, rfl, rfl, rfl⟩)⟩

/-- The end of a tick. -/
theorem settled_of_tickHandled
    (running : kernel.scheduler.statusOf kernel.currentThread = some .running)
    (returned : kernel.tickHandled = .ok after)
    : after.semaphores = kernel.semaphores ∧ Settled kernel after := by
  unfold tickHandled at returned
  dsimp only at returned
  split at returned
  · obtain ⟨same, settled⟩ := settled_of_yield (by exact running) returned
    refine ⟨same, Settled.trans ?_ settled⟩
    exact .of (fun t => .inl ⟨.inl rfl, @semaphoresOf_update kernel.calls kernel.currentThread
      (.oneTick kernel.interrupt.status :: kernel.calls kernel.currentThread) rfl t⟩)
  · obtain rfl := Except.ok.inj returned
    exact ⟨rfl, .of_same ⟨rfl, rfl, rfl, rfl, rfl, rfl, rfl⟩⟩

/-- The timer ages threads and moves them between lists. -/
theorem settled_of_timer {t : ThreadId} (accurate : kernel.scheduler.Accurate none)
    (running
      : decide (kernel.interrupt.status = .idleMode) = false
        → kernel.scheduler.statusOf t = some .running)
    (same : t = kernel.currentThread) (returned : kernel.inHandler.callBack = .ok after)
    : after.semaphores = kernel.semaphores ∧ Settled kernel after := by
  subst same
  obtain ⟨preempt, scheduler, decided, _, status, _⟩ := accurate.callBack _ running
  obtain rfl := Except.ok.inj (returned.symm.trans (callBack_inHandler decided))
  exact ⟨rfl, .of (fun t => .inl ⟨.inl (congrFun status t), rfl⟩)⟩

/-- Every action that returns has one of the effects. -/
theorem Invariant.effect (invariant : kernel.Invariant) (legal : kernel.Legal action)
    (returned : kernel.perform action = .ok after)
    : Effect kernel action after := by
  cases action with
  | call call => exact (invariant.own legal.1 legal.2.1).effect legal.2.1 legal.2.2 returned
  | resume => exact invariant.effect_of_resume legal returned
  | timer =>
      refine effect_of_settled rfl rfl (by rintro _ _ ⟨⟩) ?_
      rcases invariant.interrupted legal with ticking | ⟨finishing, control, sleeping⟩
      · exact settled_of_timer ticking.active.sound.accurate
          (fun _ => (ticking.active.running kernel.currentThread).mpr rfl) rfl returned
      · refine settled_of_timer sleeping.sound.accurate (fun busy => ?_) rfl returned
        exact absurd (sleeping.status control) (of_decide_eq_false busy)
  | device s =>
      have waiting : Waiting kernel.semaphores kernel.scheduler.statusOf := by
        rcases invariant.interrupted legal.1 with ticking | ⟨_, _, sleeping⟩
        · exact ticking.active.sound.waiting
        · exact sleeping.sound.waiting
      exact @effect_of_v kernel after (.device s) s kernel.inHandler rfl rfl waiting
        ⟨rfl, rfl, rfl, rfl, rfl, rfl, rfl⟩ returned
  | handled =>
      rcases invariant.interrupted legal with ticking | ⟨finishing, control, _⟩
      · rw [Kernel.perform, ticking.control] at returned
        exact effect_of_settled rfl rfl (by rintro _ _ ⟨⟩) (settled_of_tickHandled
          ((ticking.active.running kernel.currentThread).mpr rfl) returned)
      · rw [Kernel.perform, control] at returned
        obtain rfl := Except.ok.inj returned
        exact effect_of_same rfl rfl (by rintro _ _ ⟨⟩) ⟨rfl, rfl, rfl, rfl, rfl, rfl, rfl⟩
  | findNext =>
      refine effect_of_settled rfl rfl (by rintro _ _ ⟨⟩) ?_
      rcases of_findNext returned with rfl | ⟨t, readyList, ran⟩
      · exact ⟨rfl, .of_same ⟨rfl, rfl, rfl, rfl, rfl, rfl, rfl⟩⟩
      · obtain ⟨same, settled⟩ := settled_of_run ran
        refine ⟨same, Settled.trans ?_ settled⟩
        exact .of (fun t => .inl ⟨.inl rfl, rfl⟩)
  | advance ticks =>
      obtain rfl := Except.ok.inj returned
      exact .beside rfl rfl (by rintro _ _ ⟨⟩) rfl (.of (fun t => .inl ⟨.inl rfl, rfl⟩))
  | noInterrupts =>
      obtain rfl := Except.ok.inj returned
      exact effect_of_same rfl rfl (by rintro _ _ ⟨⟩) ⟨rfl, rfl, rfl, rfl, rfl, rfl, rfl⟩

-----------------------------------------------------------------------------------------
-- One P at a time
-----------------------------------------------------------------------------------------

/-- A thread that is blocked is in at most one P, by cases on its calls. -/
theorem semaphoresOf_blocked {calls : List Frame} (blocked : Blocked calls)
    : (semaphoresOf calls).length ≤ 1 := by
  cases blocked with
  | @yield oldLevel rest inner =>
      change (semaphoresOf rest).length ≤ 1
      rw [semaphoresOf_inner inner]
      exact Nat.zero_le 1
  | @p s oldLevel rest inner =>
      change (semaphoresOf rest).length + 1 ≤ 1
      rw [semaphoresOf_inner inner]
      exact le_refl 1

/-- A thread that was switched away from is in at most one P, by cases on its calls. -/
theorem semaphoresOf_suspended {calls : List Frame} (suspended : Suspended calls)
    : (semaphoresOf calls).length ≤ 1 := by
  cases suspended with
  | begin => exact Nat.zero_le 1
  | @run rest blocked =>
      change (semaphoresOf rest).length ≤ 1
      exact semaphoresOf_blocked blocked

/-- Threads are inside `P` of semaphores that exist. -/
theorem Invariant.exists_of_inP (invariant : kernel.Invariant) (inside : kernel.InP s t)
    : (kernel.semaphores s).isSome := by
  obtain ⟨leaving, sound⟩ := invariant.exists_sound
  obtain ⟨oldLevel, member⟩ := mem_semaphoresOf.mp inside.2
  exact sound.opened t s oldLevel member

/-- A thread that did not end is inside `P` at most once. -/
theorem Invariant.semaphoresOf_length (invariant : kernel.Invariant)
    (awake : kernel.control ≠ .halted) (alive : kernel.Waits t ∨ kernel.Going t)
    : (semaphoresOf (kernel.calls t)).length ≤ 1 := by
  have inner {calls : List Frame} (inner : Inner calls)
      : (semaphoresOf calls).length ≤ 1 := by
    rw [semaphoresOf_inner inner]
    exact Nat.zero_le 1
  by_cases own : t = kernel.currentThread
  · subst own
    cases invariant with
    | working working => exact inner working.inner
    | returning returning => exact semaphoresOf_blocked returning.blocked
    | ticking ticking => exact inner ticking.inner
    | switched switched => exact semaphoresOf_suspended switched.suspended
    | halted control => exact absurd control awake
    | @sleeping finishing sleeping =>
        cases finishing with
        | false => exact semaphoresOf_blocked (sleeping.blocked rfl)
        | true =>
            have ended := (sleeping.sound.terminated kernel.currentThread).mpr rfl
            rw [Waits, Going, ended] at alive
            simp at alive
  · obtain ⟨leaving, sound⟩ := invariant.exists_sound
    rcases alive with waits | ready | running
    · exact semaphoresOf_suspended (sound.suspended t own (.inr waits))
    · exact semaphoresOf_suspended (sound.suspended t own (.inl ready))
    · cases invariant with
      | working working => exact absurd ((working.active.running t).mp running) own
      | returning returning => exact absurd ((returning.active.running t).mp running) own
      | ticking ticking => exact absurd ((ticking.active.running t).mp running) own
      | switched switched => exact absurd ((switched.running t).mp running) own
      | halted control => exact absurd control awake
      | sleeping sleeping => exact absurd running (sleeping.idle t)

/-- A thread waits in one P at a time, since it is in at most one. -/
theorem Invariant.inP_unique {s1 s2 : SemaphoreId} (invariant : kernel.Invariant)
    (awake : kernel.control ≠ .halted) (first : kernel.InP s1 t) (second : kernel.InP s2 t)
    : s1 = s2 := by
  have short := invariant.semaphoresOf_length awake first.1
  have member1 := first.2
  have member2 := second.2
  cases calls : semaphoresOf (kernel.calls t) with
  | nil =>
      rw [calls] at member1
      cases member1
  | cons head rest =>
      rw [calls] at short member1 member2
      obtain rfl : rest = [] := List.eq_nil_of_length_eq_zero (Nat.le_zero.mp (by simpa using short))
      rw [List.mem_singleton.mp member1, List.mem_singleton.mp member2]

/-- Nothing is legal on a machine that halted. -/
theorem Legal.awake (legal : kernel.Legal action) : kernel.control ≠ .halted := by
  intro halted
  cases action <;> simp [Legal, halted] at legal

/-- The thread that tests a semaphore runs. -/
theorem Invariant.running_of_tests (invariant : kernel.Invariant) (legal : kernel.Legal action)
    (tested : kernel.tests action = some s)
    : kernel.scheduler.statusOf kernel.currentThread = some .running := by
  have control : kernel.control = .thread := by
    cases action with
    | call | resume => exact legal.1
    | _ => exact nomatch tested
  rcases invariant.of_thread control with working | returning | switched
  · exact (working.active.running _).mpr rfl
  · exact (returning.active.running _).mpr rfl
  · exact (switched.running _).mpr rfl

end Kernel

end Nachos.Threads
