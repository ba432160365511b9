import Nachos.Threads.Scheduling

/-! The ready lists against the status of every thread: they hold the threads that are ready,
each once, except for one that was taken out to run next. Each operation is described by the
one status that it changes.
-/

namespace Nachos.Threads

namespace SchedulerState

/-- The lists hold the ready threads, each once, but not the one that is about to run. -/
structure Accurate (state : SchedulerState) (next : Option ThreadId) : Prop where
  mem_iff : ∀ t, t ∈ state.readyList.threads ↔ state.statusOf t = some .ready ∧ next ≠ some t
  distinct : state.readyList.threads.Nodup
  ready : ∀ t, next = some t → state.statusOf t = some .ready

variable {state : SchedulerState} {next : Option ThreadId} {t : ThreadId} {st : ThreadStatus}

theorem Accurate.queued (accurate : state.Accurate next) : state.Queued :=
  ⟨fun t member => ((accurate.mem_iff t).mp member).1, accurate.distinct⟩

/-- Threads that do not become or cease to be ready do not matter. -/
theorem Accurate.congr {after : SchedulerState} (accurate : state.Accurate next)
    (same : after.readyList = state.readyList)
    (kept : ∀ t, after.statusOf t = some .ready ↔ state.statusOf t = some .ready)
    : after.Accurate next where
  mem_iff t := by rw [same, kept, accurate.mem_iff]
  distinct := same ▸ accurate.distinct
  ready t held := (kept t).mpr (accurate.ready t held)

theorem statusOf_put (state : SchedulerState) (t : ThreadId) (thread : Thread)
    : (state.put t thread).statusOf = Function.update state.statusOf t (some thread.status) := by
  funext other
  by_cases same : other = t
  · rw [same, statusOf_put_self, Function.update_self]
  · rw [statusOf_put_of_ne same, Function.update_of_ne same]

/-- A change between two statuses other than ready leaves the lists accurate. -/
theorem Accurate.put {thread : Thread} (accurate : state.Accurate next)
    (before : state.statusOf t ≠ some .ready) (after : thread.status ≠ .ready)
    : (state.put t thread).Accurate next := by
  refine accurate.congr rfl (fun other => ?_)
  rw [statusOf_put]
  by_cases same : other = t
  · rw [same, Function.update_self]
    exact ⟨fun ready => absurd (Option.some.inj ready) after, fun ready => absurd ready before⟩
  · rw [Function.update_of_ne same]

/-- Threads that are new, running or waiting can become ready. -/
theorem Accurate.readyToRun (accurate : state.Accurate next) (status : state.statusOf t = some st)
    (idle : st = .new ∨ st = .running ∨ st = .waiting)
    : ∃ after,
        state.readyToRun t = .ok after
        ∧ after.Accurate next
        ∧ after.statusOf = Function.update state.statusOf t (some .ready) := by
  obtain ⟨thread, found, rfl⟩ := exists_of_statusOf status
  obtain ⟨changed, _, isReady, notQueued, done⟩ := readyToRun_eq accurate.queued found idle
  have entered := (state.put t changed).enqueue_threads_perm state.readyList t
  have changes := statusOf_put state t changed
  have apart : next ≠ some t := by
    intro held
    have wrong := Option.some.inj (status.symm.trans (accurate.ready t held))
    rw [wrong] at idle
    simp at idle
  rw [isReady] at changes
  refine ⟨_, done, ?_, changes⟩
  constructor
  · intro other
    change other ∈ ((state.put t changed).enqueue state.readyList t).threads
      ↔ (state.put t changed).statusOf other = some .ready ∧ next ≠ some other
    rw [entered.mem_iff, List.mem_cons, changes]
    by_cases same : other = t
    · subst same
      simp [apart]
    · rw [Function.update_of_ne same, accurate.mem_iff]
      simp [same]
  · exact entered.nodup_iff.mpr (List.nodup_cons.mpr ⟨notQueued, accurate.distinct⟩)
  · intro other held
    change (state.put t changed).statusOf other = some .ready
    rw [changes, Function.update_of_ne]
    · exact accurate.ready other held
    · rintro rfl
      exact apart held

/-- The thread that leaves the lists is held. -/
theorem Accurate.findNextToRun (accurate : state.Accurate none)
    : state.findNextToRun = .ok (none, state)
      ∨ ∃ t after,
          state.findNextToRun = .ok (some t, after)
          ∧ after.Accurate (some t)
          ∧ after.statusOf = state.statusOf := by
  rcases findNextToRun_eq state with ⟨_, found⟩ | ⟨t, readyList, _, parts, found⟩
  · exact .inl found
  have distinct := parts ▸ accurate.distinct
  refine .inr ⟨t, _, found, ?_, rfl⟩
  constructor
  · intro other
    have members := accurate.mem_iff other
    rw [parts, List.mem_cons] at members
    change other ∈ readyList.threads ↔ state.statusOf other = some .ready ∧ some t ≠ some other
    constructor
    · intro member
      refine ⟨(members.mp (.inr member)).1, ?_⟩
      rintro ⟨⟩
      exact (List.nodup_cons.mp distinct).1 member
    · rintro ⟨isReady, apart⟩
      rcases members.mpr ⟨isReady, nofun⟩ with rfl | member
      · exact absurd rfl apart
      · exact member
  · exact (List.nodup_cons.mp distinct).2
  · rintro other ⟨⟩
    exact ((accurate.mem_iff t).mp (parts ▸ List.mem_cons_self ..)).1

/-- The thread that is held can run. -/
theorem Accurate.dispatch (accurate : state.Accurate (some t))
    : ∃ after,
        state.setStatus t .running = .ok after
        ∧ after.Accurate none
        ∧ after.statusOf = Function.update state.statusOf t (some .running) := by
  obtain ⟨thread, found, isReady⟩ := exists_of_statusOf (accurate.ready t rfl)
  obtain ⟨changed, set, running⟩ : ∃ changed,
      thread.setStatus state.totalTicks .running = .ok changed ∧ changed.status = .running :=
    ⟨_, if_pos isReady, rfl⟩
  have changes := statusOf_put state t changed
  rw [running] at changes
  refine ⟨_, setStatus_of found set, ?_, changes⟩
  constructor
  · intro other
    rw [changes]
    by_cases same : other = t
    · subst same
      rw [Function.update_self]
      change other ∈ state.readyList.threads ↔ _
      simp [accurate.mem_iff]
    · rw [Function.update_of_ne same]
      change other ∈ state.readyList.threads ↔ _
      simp [accurate.mem_iff, Ne.symm same]
  · exact accurate.distinct
  · exact nofun

/-- A running thread can go to sleep, for a while or for good. -/
theorem Accurate.leave (accurate : state.Accurate next)
    (running : state.statusOf t = some .running) (finishing : Bool)
    : ∃ after,
        state.setStatus t (if finishing then .terminated else .waiting) = .ok after
        ∧ after.Accurate next
        ∧ after.statusOf
          = Function.update state.statusOf t
              (some (if finishing then .terminated else .waiting)) := by
  obtain ⟨thread, found, isRunning⟩ := exists_of_statusOf running
  have busy : state.statusOf t ≠ some .ready := by simp [running]
  cases finishing with
  | false =>
      refine ⟨_, setStatus_of found (if_pos isRunning), accurate.put busy nofun, ?_⟩
      exact statusOf_put ..
  | true =>
      refine ⟨_, setStatus_of found (if_pos isRunning), accurate.put busy nofun, ?_⟩
      exact statusOf_put ..

theorem statusOf_agedState (state : SchedulerState)
    : state.agedState.statusOf = state.statusOf :=
  funext (statusOf_agedOn state _)

/-- Aging moves threads between lists. -/
theorem Accurate.aging (accurate : state.Accurate none) : state.agedState.Accurate none where
  mem_iff t := by
    rw [statusOf_agedState, ← accurate.mem_iff]
    exact state.agedQueue_threads_perm.mem_iff
  distinct := accurate.queued.aging.distinct
  ready := nofun

/-- The timer's handler changes no status, whether the machine is idle or a thread runs. -/
theorem Accurate.callBack (accurate : state.Accurate none) (idle : Bool)
    (running : idle = false → state.statusOf t = some .running)
    : ∃ preempt after,
        state.callBack idle t = .ok (preempt, after)
        ∧ after.Accurate none
        ∧ after.statusOf = state.statusOf
        ∧ (idle = true → preempt = false) := by
  have same := statusOf_agedState state
  cases idle with
  | true => exact ⟨false, _, callBack_idle accurate.queued t, accurate.aging, same, fun _ => rfl⟩
  | false =>
      exact ⟨_, _, callBack_busy accurate.queued (running rfl), accurate.aging, same, nofun⟩

end SchedulerState

end Nachos.Threads
