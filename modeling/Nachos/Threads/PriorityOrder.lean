import Nachos.Threads.LinkedScheduler

/-! The order of L2. Threads enter it by priority, but aging changes priorities in place, and
each thread ages at its own times.
-/

namespace Nachos.Threads

namespace SchedulerState

variable {state after : SchedulerState} {t : ThreadId} {command : Command}

/-- Whole aging periods that a thread has waited. -/
def age (state : SchedulerState) (t : ThreadId) : Int :=
  (state.threads t).elim 0 (fun thread => thread.orderManager.age state.totalTicks)

/-- No thread stands before one of higher priority. -/
def ByPriority (state : SchedulerState) (items : List ThreadId) : Prop :=
  items.Pairwise (fun front behind => state.priority behind ≤ state.priority front)

/-- Of the threads that stay in L2, aging raises none above one in front of it: what it waited
longer does not outweigh its lower priority.
-/
def NoOvertaking (state : SchedulerState) : Command → Prop
  | .aging =>
      (state.readyList.l2.filter
          (fun t => decide (state.priority t + 10 * state.age t < 100))).Pairwise
        (fun front behind =>
          10 * (state.age behind - state.age front)
            ≤ state.priority front - state.priority behind)
  | _ => True

instance (state : SchedulerState) (command : Command)
    : Decidable (state.NoOvertaking command) :=
  match command with
  | .aging => inferInstanceAs (Decidable (List.Pairwise _ _))
  | .construct _ _ | .readyToRun _ | .findNextToRun | .run _ | .sleep _ _ | .advance _ =>
      .isTrue trivial

theorem ByPriority.congr {items : List ThreadId} (sorted : state.ByPriority items)
    (same : ∀ t ∈ items, after.priority t = state.priority t)
    : after.ByPriority items := by
  refine List.Pairwise.imp_of_mem (fun first second before => ?_) sorted
  rw [same _ first, same _ second]
  exact before

/-- A thread enters before those of lower priority. -/
theorem ByPriority.insert {items : List ThreadId} (sorted : state.ByPriority items)
    (t : ThreadId)
    : state.ByPriority (state.insertByPriority items t) := by
  refine Insertion.pairwise_orderedInsert sorted (fun other _ below => ?_)
    (fun other _ notBelow => ?_)
  · exact le_of_lt (Int.lt_of_sub_neg below)
  · exact le_of_not_gt (fun above => notBelow (Int.sub_neg_of_lt above))

theorem ByPriority.foldl_insert {entering items : List ThreadId}
    (sorted : state.ByPriority items)
    : state.ByPriority (entering.foldl state.insertByPriority items) := by
  induction entering generalizing items with
  | nil => exact sorted
  | cons t rest ih => exact ih (sorted.insert t)

/-- Threads of the first level do not stop those that enter L2, by induction on the latter. -/
theorem filter_foldl_insert {entering : List ThreadId}
    (second : ∀ t ∈ entering, state.level t = .lv2) (items : List ThreadId)
    : (entering.foldl state.insertByPriority items).filter
          (fun t => !decide (state.level t = .lv1))
      = entering.foldl state.insertByPriority
          (items.filter (fun t => !decide (state.level t = .lv1))) := by
  induction entering generalizing items with
  | nil => rfl
  | cons t rest ih =>
      have own := second t (List.mem_cons_self ..)
      refine (ih (fun other member => second other (List.mem_cons_of_mem _ member)) _).trans ?_
      refine congrArg (rest.foldl state.insertByPriority) ?_
      refine Insertion.filter_orderedInsert (by simp [own]) (fun other _ first below => ?_)
      have top : state.level other = .lv1 := by simpa using first
      have lower := Int.lt_of_sub_neg below
      simp only [level, getQueueLevel] at own top
      split at own
      · cases own
      · split at top
        · omega
        · split at top <;> cases top

theorem priority_agedOn {thread : Thread} (found : state.threads t = some thread)
    {items : List ThreadId} (member : t ∈ items)
    : (state.agedOn items).priority t
      = thread.orderManager.agedPriority state.totalTicks := by
  simp [priority, agedOn, member, found, agedThread, Thread.getPriority,
    ThreadStateController.priority_aged]

/-- Aging raises a priority by ten for each period, as long as it stays below the cap. -/
theorem priority_agedOn_of_level {items : List ThreadId} {thread : Thread}
    (found : state.threads t = some thread) (member : t ∈ items)
    (notFirst : (state.agedOn items).level t ≠ .lv1)
    : (state.agedOn items).priority t = state.priority t + 10 * state.age t
      ∧ state.priority t + 10 * state.age t < 100 := by
  have low : (state.agedOn items).priority t < 100 := by
    by_contra high
    exact notFirst (by simp [level, getQueueLevel, not_lt.mp high])
  have own : state.priority t = thread.orderManager.priority := by
    simp [priority, found, Thread.getPriority]
  have waited : state.age t = thread.orderManager.age state.totalTicks := by
    simp [age, found]
  rw [priority_agedOn found member, ThreadStateController.agedPriority] at low ⊢
  rw [own, waited]
  split at low <;> omega

/-- L2 after an aging in which no thread overtakes another. -/
theorem agedQueue_byPriority (queued : state.Queued) (calm : state.NoOvertaking .aging)
    : (state.agedOn state.readyList.threads).ByPriority state.agedQueue.l2 := by
  rw [agedQueue_l2, filter_foldl_insert (fun _ member => level_of_mem_atLevel member)]
  refine ByPriority.foldl_insert ?_
  have raised (t : ThreadId) (member : t ∈ state.readyList.l2)
      (notFirst : (state.agedOn state.readyList.threads).level t ≠ .lv1)
      : (state.agedOn state.readyList.threads).priority t = state.priority t + 10 * state.age t
        ∧ state.priority t + 10 * state.age t < 100 := by
    have here := MultilevelThreadQueue.mem_threads.mpr (.inr (.inl member))
    obtain ⟨thread, found, _⟩ := exists_of_statusOf (queued.ready t here)
    exact priority_agedOn_of_level found here notFirst
  have calmer := List.Pairwise.filter
    (fun t => !decide ((state.agedOn state.readyList.threads).level t = .lv1)) calm
  rw [List.filter_filter] at calmer
  have same : state.readyList.l2.filter
        (fun t => !decide ((state.agedOn state.readyList.threads).level t = .lv1)
          && decide (state.priority t + 10 * state.age t < 100))
      = state.readyList.l2.filter
          (fun t => !decide ((state.agedOn state.readyList.threads).level t = .lv1)) := by
    refine List.filter_congr (fun t member => ?_)
    by_cases first : (state.agedOn state.readyList.threads).level t = .lv1
    · simp [first]
    · simp [first, (raised t member first).2]
  rw [same] at calmer
  refine List.Pairwise.imp_of_mem (fun {front behind} first second step => ?_) calmer
  obtain ⟨firstMember, firstStays⟩ := List.mem_filter.mp first
  obtain ⟨secondMember, secondStays⟩ := List.mem_filter.mp second
  rw [(raised front firstMember (by simpa using firstStays)).1,
    (raised behind secondMember (by simpa using secondStays)).1]
  omega

/-- Every effect keeps L2 in the order of priorities, as long as no thread overtakes. -/
theorem Effect.byPriority (effect : Effect state command after) (queued : state.Queued)
    (calm : state.NoOvertaking command) (sorted : state.ByPriority state.readyList.l2)
    : after.ByPriority after.readyList.l2 := by
  have inQueue {t : ThreadId} (member : t ∈ state.readyList.l2) : t ∈ state.readyList.threads :=
    MultilevelThreadQueue.mem_threads.mpr (.inr (.inl member))
  cases effect with
  | aside same kept =>
      rw [same]
      refine sorted.congr (fun t member => ?_)
      rw [priority, priority, kept t (inQueue member)]
  | @enter t thread changed found set isReady notQueued =>
      have others : (state.put t changed).ByPriority state.readyList.l2 := by
        refine sorted.congr (fun other member => ?_)
        have apart : other ≠ t := fun same => notQueued (same ▸ inQueue member)
        rw [priority, priority, threads_put_of_ne apart]
      change (state.put t changed).ByPriority
        ((state.put t changed).enqueue state.readyList t).l2
      rw [enqueue]
      cases (state.put t changed).level t with
      | lv1 => exact others
      | lv2 => exact others.insert t
      | lv3 => exact others
  | leave removed =>
      exact sorted.sublist (MultilevelThreadQueue.list_sublist_of_removeFront removed .lv2)
  | age => exact agedQueue_byPriority queued calm

-----------------------------------------------------------------------------------------
-- Runs
-----------------------------------------------------------------------------------------

/-- Every aging is calm, and no thread of L2 overtakes another. -/
def Orderly (state : SchedulerState) (command : Command) : Prop :=
  state.Settled command ∧ state.NoOvertaking command

instance (state : SchedulerState) (command : Command) : Decidable (state.Orderly command) :=
  inferInstanceAs (Decidable (_ ∧ _))

/-- In every run in which no aging lets a thread overtake another L2 is in order, since every
effect keeps it so.
-/
theorem byPriority_of_reachable (reachable : Runs.Reachable (Step Orderly) initial state)
    : state.ByPriority state.readyList.l2 :=
  (@invariant_of_reachable _ _ (fun state => state.ByPriority state.readyList.l2) reachable
    List.Pairwise.nil
    (fun _ _ _ queued sorted orderly effect => effect.byPriority queued orderly.2 sorted)).2

/-- Initial priorities stand between 0 and 149. -/
def InitialInRange (_ : SchedulerState) : Command → Prop
  | .construct _ initPriority => 0 ≤ initPriority ∧ initPriority ≤ 149
  | _ => True

instance (state : SchedulerState) (command : Command)
    : Decidable (state.InitialInRange command) :=
  match command with
  | .construct _ _ => inferInstanceAs (Decidable (_ ∧ _))
  | .readyToRun _ | .findNextToRun | .run _ | .sleep _ _ | .aging | .advance _ =>
      .isTrue trivial

end SchedulerState

namespace LinkedQueue

variable {linked : LinkedQueue}

/-- In every run over the linked lists in which no aging takes a thread above the level of its
list or lets one of L2 overtake another, the thread that leaves L2 has the highest priority in it.
-/
theorem highestPriority_of_reachable
    (reachable : Runs.Reachable (Step SchedulerState.Orderly) initial linked)
    : ∃ state,
        linked.Represents state
        ∧ (state.readyList.l1 = []
          → state.readyList.l2 ≠ []
          → ∃ t next,
              removeFront.run linked = (.ok t, next)
              ∧ t ∈ state.readyList.l2
              ∧ ∀ other ∈ state.readyList.l2, state.priority other ≤ state.priority t) := by
  obtain ⟨state, represents, reached⟩ :=
    represents_of_reachable (fun _ orderly => orderly.1) reachable
  refine ⟨state, represents, fun noneFirst someSecond => ?_⟩
  obtain ⟨t, rest, second⟩ := List.exists_cons_of_ne_nil someSecond
  have removed : state.readyList.removeFront = .ok (t, { state.readyList with l2 := rest }) := by
    simp [MultilevelThreadQueue.removeFront, noneFirst, second]
  obtain ⟨next, ran, _⟩ := represents.removeFront removed
  have sorted := SchedulerState.byPriority_of_reachable reached
  refine ⟨t, next, ran, second ▸ List.mem_cons_self .., fun other member => ?_⟩
  rw [second] at sorted member
  rcases List.mem_cons.mp member with rfl | later
  · exact le_rfl
  · exact (List.pairwise_cons.mp sorted).1 other later

/-- Two threads wait in L2, and aging raises both alike. -/
theorem highestPriority_of_two
    : ∃ linked state t next,
        linked.Represents state
        ∧ state.readyList = { l1 := [], l2 := [1, 0], l3 := [] }
        ∧ removeFront.run linked = (.ok t, next)
        ∧ t ∈ state.readyList.l2
        ∧ ∀ other ∈ state.readyList.l2, state.priority other ≤ state.priority t := by
  obtain ⟨state, reached, queue⟩ :=
    @SchedulerState.exists_reachable_of_execute SchedulerState.Orderly _
      [.construct 0 60, .construct 1 70, .readyToRun 0, .readyToRun 1, .advance 1500, .aging]
      (fun state => state.readyList = { l1 := [], l2 := [1, 0], l3 := [] }) _ (by decide +kernel)
  obtain ⟨linked, reachable, represents⟩ :=
    exists_represents (fun _ orderly => orderly.1) reached
  obtain ⟨other, again, leaves⟩ := highestPriority_of_reachable reachable
  obtain rfl := represents.unique again
  obtain ⟨t, next, ran, highest⟩ := leaves (by rw [queue]) (by rw [queue]; decide)
  exact ⟨linked, state, t, next, represents, queue, ran, highest⟩

/-- A thread that waited in L2 for a whole aging period stays behind one that came later and
now has the lower priority, though both stay in their level.
-/
theorem overtaking_keeps_place
    : ¬∀ linked,
        Runs.Reachable (Step SchedulerState.InitialInRange) initial linked
        → ∃ state,
            linked.Represents state
            ∧ (state.readyList.l1 = []
              → state.readyList.l2 ≠ []
              → ∃ t next,
                  removeFront.run linked = (.ok t, next)
                  ∧ ∀ other ∈ state.readyList.l2, state.priority other ≤ state.priority t) := by
  intro highest
  obtain ⟨state, reached, queue, overtaken⟩ :=
    @SchedulerState.exists_reachable_of_execute
      (fun state command => state.Settled command ∧ state.InitialInRange command) _
      [.construct 0 65, .construct 1 69, .readyToRun 0, .advance 1400, .readyToRun 1,
        .advance 100, .aging]
      (fun state =>
        state.readyList = { l1 := [], l2 := [1, 0], l3 := [] }
        ∧ state.priority 1 < state.priority 0)
      _ (by decide +kernel)
  obtain ⟨linked, reachable, represents⟩ := exists_represents (fun _ settled => settled.1) reached
  obtain ⟨other, again, leaves⟩ :=
    highest linked (reachable_mono reachable (fun _ _ allowed => allowed.2))
  obtain rfl := represents.unique again
  obtain ⟨t, next, ran, highest⟩ := leaves (by rw [queue]) (by rw [queue]; decide)
  have front : state.readyList.removeFront = .ok (1, { l1 := [], l2 := [0], l3 := [] }) := by
    rw [queue]
    rfl
  obtain ⟨_, first, _⟩ := represents.removeFront front
  obtain rfl := Except.ok.inj (Prod.mk.inj (ran.symm.trans first)).1
  exact absurd overtaken (not_lt.mpr (highest 0 (by rw [queue]; decide)))

end LinkedQueue

end Nachos.Threads
