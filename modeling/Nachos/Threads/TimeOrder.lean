import Nachos.Threads.LinkedScheduler

/-! The order of L1. The comparison of remaining times drops what is less than one tick, so
threads whose times differ by less than that keep the order in which they came.
-/

namespace Nachos.Threads

namespace SchedulerState

variable {state after : SchedulerState} {t : ThreadId} {command : Command}

def initPriority (state : SchedulerState) (t : ThreadId) : Int :=
  (state.threads t).elim 0 (fun thread => thread.orderManager.initPriority)

/-- The first thread has more time left than the second, but by less than one tick. -/
def SubTick (state : SchedulerState) (t1 t2 : ThreadId) : Prop :=
  state.remainTime t2 < state.remainTime t1 ∧ state.remainTime t1 < state.remainTime t2 + 1

instance (t1 t2 : ThreadId) : Decidable (state.SubTick t1 t2) :=
  inferInstanceAs (Decidable (_ ∧ _))

/-- Every aging is calm, and no thread of L1 has more time left than one that enters it, but by
less than one tick.
-/
def Spaced (state : SchedulerState) : Command → Prop
  | .readyToRun t =>
      getQueueLevel (state.initPriority t) = .lv1
      → ∀ other ∈ state.readyList.l1, ¬state.SubTick other t
  | .aging => state.Calm
  | _ => True

instance (state : SchedulerState) (command : Command) : Decidable (state.Spaced command) :=
  match command with
  | .readyToRun _ => inferInstanceAs (Decidable (_ → ∀ other ∈ state.readyList.l1, _))
  | .aging => inferInstanceAs (Decidable state.Calm)
  | .construct _ _ | .findNextToRun | .run _ | .sleep _ _ | .advance _ => .isTrue trivial

/-- No thread stands before one with less time left. -/
def ByTime (state : SchedulerState) (items : List ThreadId) : Prop :=
  items.Pairwise (fun front behind => state.remainTime front ≤ state.remainTime behind)

-----------------------------------------------------------------------------------------
-- Insertions
-----------------------------------------------------------------------------------------

theorem ByTime.congr {items : List ThreadId} (sorted : state.ByTime items)
    (same : ∀ t ∈ items, after.remainTime t = state.remainTime t)
    : after.ByTime items := by
  refine List.Pairwise.imp_of_mem (fun first second before => ?_) sorted
  rw [same _ first, same _ second]
  exact before

theorem timeOrder_neg_iff {t1 t2 : ThreadId}
    : state.timeOrder t1 t2 < 0 ↔ state.remainTime t1 + 1 ≤ state.remainTime t2 := by
  rw [timeOrder, Thread.truncate_neg_iff]
  constructor <;> intro gap <;> linarith

theorem timeOrder_pos_iff {t1 t2 : ThreadId}
    : 0 < state.timeOrder t1 t2 ↔ state.remainTime t2 + 1 ≤ state.remainTime t1 := by
  rw [timeOrder, Thread.truncate_pos_iff]
  constructor <;> intro gap <;> linarith

/-- A thread enters before those that have at least one more tick left. -/
theorem ByTime.insert {items : List ThreadId} (sorted : state.ByTime items)
    (whole : ∀ other ∈ items, ¬state.SubTick other t)
    : state.ByTime (state.insertByTime items t) := by
  refine Insertion.pairwise_orderedInsert sorted (fun other _ below => ?_)
    (fun other member notBelow => ?_)
  · have gap := timeOrder_neg_iff.mp below
    linarith
  · by_contra more
    have less : ¬state.remainTime t + 1 ≤ state.remainTime other :=
      fun gap => notBelow (timeOrder_neg_iff.mpr gap)
    exact whole other member ⟨not_le.mp more, not_le.mp less⟩

-----------------------------------------------------------------------------------------
-- Remaining times
-----------------------------------------------------------------------------------------

/-- Becoming ready resets the priority and keeps the remaining time. -/
theorem setStatus_ready_attributes {totalTicks : Int} {thread changed : Thread}
    (set : thread.setStatus totalTicks .ready = .ok changed)
    : changed.getPriority = thread.orderManager.initPriority
      ∧ changed.getRemainTime totalTicks = thread.getRemainTime totalTicks := by
  rcases status_of_setStatus_ready set with status | status | status <;>
    simp only [Thread.setStatus, status, Except.ok.injEq] at set <;>
    subst set <;>
    refine ⟨rfl, ?_⟩ <;>
    simp only [Thread.getRemainTime, status, reduceCtorEq, if_true, if_false] <;>
    simp only [ThreadStateController.newToReady, ThreadStateController.waitToReady,
      ThreadStateController.runToReady, ThreadStateController.toReady,
      ThreadStateController.leaveRun]
  push_cast
  ring

/-- Aging keeps the remaining time of every thread but a running one. -/
theorem remainTime_agedOn {items : List ThreadId}
    (resting : t ∈ items → state.statusOf t = some .ready)
    : (state.agedOn items).remainTime t = state.remainTime t := by
  by_cases member : t ∈ items
  · obtain ⟨thread, found, isReady⟩ := exists_of_statusOf (resting member)
    simp only [remainTime, agedOn, member, if_true, found, Option.map_some, Option.elim_some,
      Thread.getRemainTime, agedThread, isReady, reduceCtorEq, if_false]
    simp only [ThreadStateController.aged]
    split <;> rfl
  · simp only [remainTime, agedOn, member, if_false]

theorem SubTick.congr {t1 t2 : ThreadId} (first : after.remainTime t1 = state.remainTime t1)
    (second : after.remainTime t2 = state.remainTime t2)
    : after.SubTick t1 t2 ↔ state.SubTick t1 t2 := by
  rw [SubTick, SubTick, first, second]

theorem remainTime_agedState (queued : state.Queued) (t : ThreadId)
    : state.agedState.remainTime t = state.remainTime t :=
  remainTime_agedOn (queued.ready t)

/-- A calm aging changes neither L1 nor the times of its threads. -/
theorem agedState_byTime (queued : state.Queued) (calm : state.Calm)
    (sorted : state.ByTime state.readyList.l1)
    : state.agedState.ByTime state.agedState.readyList.l1 := by
  have same : state.agedState.readyList.l1 = state.readyList.l1 := by
    rw [queued.agedState_of_calm calm]
    rfl
  rw [same]
  exact sorted.congr (fun t _ => remainTime_agedState queued t)

/-- Every effect keeps L1 in the order of remaining times when the times of those that enter it
are spaced, by cases on the effect.
-/
theorem Effect.byTime (effect : Effect state command after) (queued : state.Queued)
    (spaced : state.Spaced command) (sorted : state.ByTime state.readyList.l1)
    : after.ByTime after.readyList.l1 := by
  have inQueue {t : ThreadId} (member : t ∈ state.readyList.l1) : t ∈ state.readyList.threads :=
    MultilevelThreadQueue.mem_threads.mpr (.inl member)
  cases effect with
  | aside same kept =>
      rw [same]
      refine sorted.congr (fun t member => ?_)
      obtain ⟨thread, found, isReady⟩ := exists_of_statusOf (queued.ready t (inQueue member))
      rw [remainTime, remainTime, kept t (inQueue member), found]
      simp [Thread.getRemainTime, isReady]
  | @enter t thread changed found set isReady notQueued =>
      obtain ⟨priority, time⟩ := setStatus_ready_attributes set
      have own : (state.put t changed).remainTime t = state.remainTime t := by
        rw [remainTime, remainTime, threads_put_self, found]
        exact time
      have others (other : ThreadId) (member : other ∈ state.readyList.l1)
          : (state.put t changed).remainTime other = state.remainTime other := by
        have apart : other ≠ t := fun same => notQueued (same ▸ inQueue member)
        rw [remainTime, remainTime, threads_put_of_ne apart]
        rfl
      have before : (state.put t changed).ByTime state.readyList.l1 := sorted.congr others
      have level : (state.put t changed).level t = getQueueLevel (state.initPriority t) := by
        rw [SchedulerState.level, SchedulerState.priority, threads_put_self, initPriority, found]
        exact congrArg getQueueLevel priority
      change (state.put t changed).ByTime
        ((state.put t changed).enqueue state.readyList t).l1
      rw [enqueue]
      cases entered : (state.put t changed).level t with
      | lv1 =>
          refine before.insert (fun other member gap => ?_)
          exact spaced (level.symm.trans entered) other member
            ((SubTick.congr (others other member) own).mp gap)
      | lv2 => exact before
      | lv3 => exact before
  | leave removed =>
      exact sorted.sublist (MultilevelThreadQueue.list_sublist_of_removeFront removed .lv1)
  | age => exact agedState_byTime queued spaced sorted

-----------------------------------------------------------------------------------------
-- Runs
-----------------------------------------------------------------------------------------

/-- No thread of a list has less time left than its front. -/
theorem ByTime.front {front : ThreadId} {rest : List ThreadId}
    (sorted : state.ByTime (front :: rest))
    : ∀ other ∈ front :: rest, state.remainTime front ≤ state.remainTime other := by
  intro other member
  rcases List.mem_cons.mp member with rfl | later
  · exact le_rfl
  · exact (List.pairwise_cons.mp sorted).1 other later

/-- A running thread of the first level yields whenever one of L1 has less time left, exactly
when it has no less than a tick more than the shortest of them, or no more.
-/
theorem preempts_iff (sorted : state.ByTime state.readyList.l1) (first : state.level t = .lv1)
    : ((∃ other ∈ state.readyList.l1, state.remainTime other < state.remainTime t)
          → state.preempts t = true)
      ↔ ∀ other ∈ state.readyList.l1,
          (∀ another ∈ state.readyList.l1, state.remainTime other ≤ state.remainTime another)
          → ¬state.SubTick t other := by
  rw [preempts, first]
  cases queue : state.readyList.l1 with
  | nil => simp
  | cons front rest =>
      rw [queue] at sorted
      have least := sorted.front
      simp only [List.head?_cons, Option.any_some, decide_eq_true_iff, timeOrder_pos_iff]
      constructor
      · intro yields other member shortest gap
        have more := yields ⟨other, member, gap.1⟩
        have close := shortest front (List.mem_cons_self ..)
        linarith [gap.2]
      · rintro whole ⟨other, member, less⟩
        by_contra few
        refine whole front (List.mem_cons_self ..) least ⟨?_, not_le.mp few⟩
        exact (least other member).trans_lt less

/-- In every run in which the times of threads that enter L1 are spaced L1 is in order, since
every effect keeps it so.
-/
theorem byTime_of_reachable (reachable : Runs.Reachable (Step Spaced) initial state)
    : state.Queued ∧ state.ByTime state.readyList.l1 :=
  @invariant_of_reachable _ _ (fun state => state.ByTime state.readyList.l1) reachable
    List.Pairwise.nil
    (fun _ _ _ queued sorted spaced effect => effect.byTime queued spaced sorted)

/-- At a calm aging on a busy machine a running thread of the first level yields whenever one of
L1 has less time left, exactly when the shortest of them is not less than a tick shorter.
-/
theorem callBack_iff (queued : state.Queued) (sorted : state.ByTime state.readyList.l1)
    (calm : state.Calm) (running : state.statusOf t = some .running)
    (first : state.level t = .lv1)
    : ∃ preempt,
        state.callBack false t = .ok (preempt, state.agedState)
        ∧ (((∃ other ∈ state.agedState.readyList.l1,
                state.agedState.remainTime other < state.agedState.remainTime t)
              → preempt = true)
            ↔ ∀ other ∈ state.readyList.l1,
                (∀ another ∈ state.readyList.l1, state.remainTime other ≤ state.remainTime another)
                → ¬state.SubTick t other) := by
  refine ⟨_, callBack_busy queued running, ?_⟩
  have outside : t ∉ state.readyList.threads := by
    intro member
    exact absurd (running.symm.trans (queued.ready t member)) (by decide)
  have still : state.agedState.level t = .lv1 := by
    rw [← first]
    simp [SchedulerState.level, priority, agedState, agedOn, outside]
  have same : state.agedState.readyList.l1 = state.readyList.l1 := by
    rw [queued.agedState_of_calm calm]
    rfl
  rw [preempts_iff (agedState_byTime queued calm sorted) still]
  simp only [same, remainTime_agedState queued, SubTick]

end SchedulerState

namespace LinkedQueue

variable {linked : LinkedQueue}

/-- In every run over the linked lists in which no aging takes a thread above the level of its
list and threads enter L1 at whole ticks from those that they enter behind, the thread that leaves
L1 has the least time left in it. At a timer interrupt in such a run a running thread of the first
level is preempted for one with less time left exactly when the shortest of L1 is not less than a
tick shorter.
-/
theorem shortestTime_of_reachable
    (reachable : Runs.Reachable (Step SchedulerState.Spaced) initial linked)
    : ∃ state,
        linked.Represents state
        ∧ (state.readyList.l1 ≠ []
          → ∃ t next,
              removeFront.run linked = (.ok t, next)
              ∧ t ∈ state.readyList.l1
              ∧ ∀ other ∈ state.readyList.l1, state.remainTime t ≤ state.remainTime other)
        ∧ ∀ allocator fuel currentThread,
            state.Calm
            → state.statusOf currentThread = some .running
            → state.level currentThread = .lv1
            → state.readyList.threads.length < fuel
            → ∃ preempt next,
                (callBack allocator fuel false currentThread).run linked = (.ok preempt, next)
                ∧ next.Represents state.agedState
                ∧ (((∃ t ∈ state.agedState.readyList.l1,
                        state.agedState.remainTime t
                          < state.agedState.remainTime currentThread)
                      → preempt = true)
                    ↔ ∀ t ∈ state.readyList.l1,
                        (∀ other ∈ state.readyList.l1,
                          state.remainTime t ≤ state.remainTime other)
                        → ¬state.SubTick currentThread t) := by
  obtain ⟨state, represents, reached⟩ := represents_of_reachable (fun _ calm => calm) reachable
  obtain ⟨queued, sorted⟩ := SchedulerState.byTime_of_reachable reached
  refine ⟨state, represents, fun someFirst => ?_, fun allocator fuel t calm running first enough => ?_⟩
  · obtain ⟨t, rest, items⟩ := List.exists_cons_of_ne_nil someFirst
    have removed : state.readyList.removeFront = .ok (t, { state.readyList with l1 := rest }) := by
      rw [MultilevelThreadQueue.removeFront, items]
    obtain ⟨next, ran, _⟩ := represents.removeFront removed
    refine ⟨t, next, ran, items ▸ List.mem_cons_self .., ?_⟩
    rw [items] at sorted ⊢
    exact sorted.front
  · obtain ⟨preempt, called, decided⟩ :=
      SchedulerState.callBack_iff queued sorted calm running first
    obtain ⟨next, ran, represented⟩ :=
      @Represents.callBack allocator fuel _ _ _ _ represents queued calm _ _ called enough
    exact ⟨preempt, next, ran, represented, decided⟩

/-- A thread that has slept runs again while two new ones wait in L1: the timer preempts it for
one of them.
-/
theorem shortestTime_of_three
    : ∃ linked state t next again,
        linked.Represents state
        ∧ state.readyList = { l1 := [1, 2], l2 := [], l3 := [] }
        ∧ removeFront.run linked = (.ok t, next)
        ∧ t ∈ state.readyList.l1
        ∧ (∀ other ∈ state.readyList.l1, state.remainTime t ≤ state.remainTime other)
        ∧ (callBack .fresh 3 false 0).run linked = (.ok true, again) := by
  obtain ⟨state, reached, queue, calm, running, first, spaced, less⟩ :=
    @SchedulerState.exists_reachable_of_execute SchedulerState.Spaced _
      [.construct 0 120, .construct 1 130, .construct 2 100, .readyToRun 0, .findNextToRun,
        .run 0, .advance 4, .sleep 0 false, .readyToRun 0, .findNextToRun, .run 0,
        .readyToRun 1, .readyToRun 2]
      (fun state =>
        state.readyList = { l1 := [1, 2], l2 := [], l3 := [] }
        ∧ state.Calm
        ∧ state.statusOf 0 = some .running
        ∧ state.level 0 = .lv1
        ∧ (∀ t ∈ state.readyList.l1, ¬state.SubTick 0 t)
        ∧ ∃ t ∈ state.agedState.readyList.l1,
            state.agedState.remainTime t < state.agedState.remainTime 0)
      _ (by decide +kernel)
  obtain ⟨linked, reachable, represents⟩ := exists_represents (fun _ calm => calm) reached
  obtain ⟨other, same, leaves, calls⟩ := shortestTime_of_reachable reachable
  obtain rfl := represents.unique same
  obtain ⟨t, next, ran, member, least⟩ := leaves (by rw [queue]; decide)
  obtain ⟨preempt, again, called, _, decided⟩ :=
    calls .fresh 3 0 calm running first (by rw [queue]; decide)
  obtain rfl := decided.mpr (fun t member _ => spaced t member) less
  exact ⟨linked, state, t, next, again, represents, queue, ran, member, least, called⟩

/-- A thread that ran for one tick before it slept stays in front of a new one that entered L1
after it and has half a tick less left.
-/
theorem longer_keeps_front
    : ¬∀ linked,
        Runs.Reachable (Step (fun _ _ => True)) initial linked
        → ∃ state,
            linked.Represents state
            ∧ (state.readyList.l1 ≠ []
              → ∃ t next,
                  removeFront.run linked = (.ok t, next)
                  ∧ ∀ other ∈ state.readyList.l1,
                      state.remainTime t ≤ state.remainTime other) := by
  intro shortest
  obtain ⟨state, reached, queue, longer⟩ :=
    @SchedulerState.exists_reachable_of_execute SchedulerState.Settled _
      [.construct 0 120, .construct 1 120, .readyToRun 0, .findNextToRun, .run 0, .advance 1,
        .sleep 0 false, .readyToRun 0, .readyToRun 1]
      (fun state =>
        state.readyList = { l1 := [0, 1], l2 := [], l3 := [] }
        ∧ state.remainTime 1 < state.remainTime 0)
      _ (by decide +kernel)
  obtain ⟨linked, reachable, represents⟩ := exists_represents (fun _ settled => settled) reached
  obtain ⟨other, same, leaves⟩ :=
    shortest linked (reachable_mono reachable (fun _ _ _ => trivial))
  obtain rfl := represents.unique same
  obtain ⟨t, next, ran, least⟩ := leaves (by rw [queue]; decide)
  have front : state.readyList.removeFront = .ok (0, { l1 := [1], l2 := [], l3 := [] }) := by
    rw [queue]
    rfl
  obtain ⟨_, first, _⟩ := represents.removeFront front
  obtain rfl := Except.ok.inj (Prod.mk.inj (ran.symm.trans first)).1
  exact absurd longer (not_lt.mpr (least 1 (by rw [queue]; decide)))

end LinkedQueue

end Nachos.Threads
