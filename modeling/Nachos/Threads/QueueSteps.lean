import Mathlib.Algebra.Order.Group.Multiset
import Mathlib.Tactic.Abel
import Nachos.Threads.ReadyQueue

/-! What the scheduler's operations do to the queue when every queued thread is ready and
queued once.
-/

namespace Nachos.Threads

namespace MultilevelThreadQueue

@[simp]
theorem list_setList_self (queue : MultilevelThreadQueue) (level : Level)
    (items : List ThreadId)
    : (queue.setList level items).list level = items := by
  cases level <;> rfl

@[simp]
theorem setList_setList (queue : MultilevelThreadQueue) (level : Level)
    (items others : List ThreadId)
    : (queue.setList level items).setList level others = queue.setList level others := by
  cases level <;> rfl

theorem setList_list (queue : MultilevelThreadQueue) (level : Level)
    : queue.setList level (queue.list level) = queue := by
  cases level <;> rfl

/-- Queues with the same lists are the same. -/
theorem eq_of_list {queue other : MultilevelThreadQueue}
    (same : ∀ level, queue.list level = other.list level)
    : queue = other := by
  obtain ⟨l1, l2, l3⟩ := queue
  obtain rfl : l1 = other.l1 := same .lv1
  obtain rfl : l2 = other.l2 := same .lv2
  obtain rfl : l3 = other.l3 := same .lv3
  rfl

theorem mem_threads {queue : MultilevelThreadQueue} {t : ThreadId}
    : t ∈ queue.threads ↔ t ∈ queue.l1 ∨ t ∈ queue.l2 ∨ t ∈ queue.l3 := by
  simp [threads]

/-- A thread in one of the lists is in the queue, by cases on the level. -/
theorem mem_threads_of_list {queue : MultilevelThreadQueue} {level : Level} {t : ThreadId}
    (member : t ∈ queue.list level)
    : t ∈ queue.threads := by
  rw [mem_threads]
  cases level with
  | lv1 => exact .inl member
  | lv2 => exact .inr (.inl member)
  | lv3 => exact .inr (.inr member)

theorem exists_list_of_mem {queue : MultilevelThreadQueue} {t : ThreadId}
    (member : t ∈ queue.threads)
    : ∃ level, t ∈ queue.list level := by
  rcases mem_threads.mp member with first | second | third
  · exact ⟨.lv1, first⟩
  · exact ⟨.lv2, second⟩
  · exact ⟨.lv3, third⟩

theorem length_list_le (queue : MultilevelThreadQueue) (level : Level)
    : (queue.list level).length ≤ queue.threads.length := by
  cases level <;> simp only [list, threads, List.length_append] <;> omega

/-- Taking threads out of one list takes them out of the queue. -/
theorem threads_perm_setList {queue : MultilevelThreadQueue} {level : Level}
    {taken items : List ThreadId} (split : (queue.list level).Perm (taken ++ items))
    : queue.threads.Perm (taken ++ (queue.setList level items).threads) := by
  rw [← Multiset.coe_eq_coe, ← Multiset.coe_add] at split ⊢
  cases level <;>
    simp only [list] at split <;>
    simp only [threads, setList, ← Multiset.coe_add, split] <;>
    abel

/-- The front thread is the first in the order of the levels. -/
theorem removeFront_eq_ok {queue after : MultilevelThreadQueue} {t : ThreadId}
    (removed : queue.removeFront = .ok (t, after))
    : queue.threads = t :: after.threads := by
  obtain ⟨l1, l2, l3⟩ := queue
  cases l1 with
  | cons head rest =>
      obtain ⟨rfl, rfl⟩ := Prod.mk.inj (Except.ok.inj removed)
      rfl
  | nil =>
      cases l2 with
      | cons head rest =>
          obtain ⟨rfl, rfl⟩ := Prod.mk.inj (Except.ok.inj removed)
          rfl
      | nil =>
          cases l3 with
          | cons head rest =>
              obtain ⟨rfl, rfl⟩ := Prod.mk.inj (Except.ok.inj removed)
              rfl
          | nil => cases removed

/-- No list gains a thread when one leaves the queue. -/
theorem list_sublist_of_removeFront {queue after : MultilevelThreadQueue} {t : ThreadId}
    (removed : queue.removeFront = .ok (t, after)) (level : Level)
    : (after.list level).Sublist (queue.list level) := by
  obtain ⟨l1, l2, l3⟩ := queue
  cases l1 <;> cases l2 <;> cases l3 <;>
    simp only [removeFront, Except.ok.injEq, Prod.mk.injEq, reduceCtorEq] at removed <;>
    obtain ⟨rfl, rfl⟩ := removed <;>
    cases level <;>
    simp [list]

/-- A queue that is not empty has a front thread. -/
theorem exists_removeFront {queue : MultilevelThreadQueue} (some : queue.isEmpty = false)
    : ∃ t after, queue.removeFront = .ok (t, after) := by
  obtain ⟨l1, l2, l3⟩ := queue
  cases l1 with
  | cons head rest => exact ⟨head, _, rfl⟩
  | nil =>
      cases l2 with
      | cons head rest => exact ⟨head, _, rfl⟩
      | nil =>
          cases l3 with
          | cons head rest => exact ⟨head, _, rfl⟩
          | nil => cases some

end MultilevelThreadQueue

namespace SchedulerState

variable {state : SchedulerState} {queue : MultilevelThreadQueue} {t : ThreadId}

-----------------------------------------------------------------------------------------
-- Adding one thread
-----------------------------------------------------------------------------------------

theorem exists_of_statusOf {st : ThreadStatus} (status : state.statusOf t = some st)
    : ∃ thread, state.threads t = some thread ∧ thread.status = st :=
  Option.map_eq_some_iff.mp status

theorem lookup_of_some {thread : Thread} (found : state.threads t = some thread)
    : state.lookup t = .ok thread := by
  simp only [lookup, found]

/-- A thread that is looked up is there. -/
theorem some_of_lookup {thread : Thread} (found : state.lookup t = .ok thread)
    : state.threads t = some thread := by
  rw [lookup] at found
  split at found
  · rw [← Except.ok.inj found]
    assumption
  · cases found

theorem compareTime_eq {t1 t2 : ThreadId} {left right : Thread}
    (first : state.threads t1 = some left) (second : state.threads t2 = some right)
    (comparable : Thread.Comparable left right)
    : state.compareTime t1 t2 = .ok (state.timeOrder t1 t2) := by
  simp [compareTime, timeOrder, remainTime, Thread.compareTime, lookup_of_some first,
    lookup_of_some second, first, second, comparable, bind, Except.bind]

theorem comparePriority_eq {t1 t2 : ThreadId} {left right : Thread}
    (first : state.threads t1 = some left) (second : state.threads t2 = some right)
    (comparable : Thread.Comparable left right)
    : state.comparePriority t1 t2 = .ok (state.priorityOrder t1 t2) := by
  simp [comparePriority, priorityOrder, priority, Thread.comparePriority,
    lookup_of_some first, lookup_of_some second, first, second, comparable, bind, Except.bind]

/-- Ready threads may be compared. -/
theorem comparable_of_ready {t1 t2 : ThreadId} (first : state.statusOf t1 = some .ready)
    (second : state.statusOf t2 = some .ready)
    : ∃ left right,
        state.threads t1 = some left
        ∧ state.threads t2 = some right
        ∧ Thread.Comparable left right := by
  obtain ⟨left, leftFound, leftReady⟩ := exists_of_statusOf first
  obtain ⟨right, rightFound, rightReady⟩ := exists_of_statusOf second
  exact ⟨left, right, leftFound, rightFound, .inl ⟨leftReady, rightReady⟩⟩

theorem insert_eq {compare : ThreadId → ThreadId → Except Fault Int}
    {order : ThreadId → ThreadId → Int} {items : List ThreadId} (notThere : t ∉ items)
    (compared : ∀ other ∈ items, compare t other = .ok (order t other))
    : insert compare t items = .ok (items.orderedInsert (order · · < 0) t) := by
  rw [insert, if_neg notThere, Insertion.insertBy_eq compared]

/-- `append` of a ready thread that is not queued yet. -/
theorem append_eq (isReady : state.statusOf t = some .ready)
    (ready : ∀ other ∈ state.readyList.threads, state.statusOf other = some .ready)
    (notQueued : t ∉ state.readyList.threads)
    : state.append t = .ok { state with readyList := state.enqueue state.readyList t } := by
  obtain ⟨thread, found, _⟩ := exists_of_statusOf isReady
  have level : state.level t = getQueueLevel thread.getPriority := by
    simp [SchedulerState.level, priority, found]
  rw [MultilevelThreadQueue.mem_threads, not_or, not_or] at notQueued
  obtain ⟨notFirst, notSecond, notThird⟩ := notQueued
  have first : insert state.compareTime t state.readyList.l1
      = .ok (state.readyList.l1.orderedInsert (state.timeOrder · · < 0) t) := by
    refine insert_eq notFirst (fun other member => ?_)
    obtain ⟨_, _, left, right, comparable⟩ := comparable_of_ready isReady
      (ready other (MultilevelThreadQueue.mem_threads.mpr (.inl member)))
    exact compareTime_eq left right comparable
  have second : insert state.comparePriority t state.readyList.l2
      = .ok (state.readyList.l2.orderedInsert (state.priorityOrder · · < 0) t) := by
    refine insert_eq notSecond (fun other member => ?_)
    obtain ⟨_, _, left, right, comparable⟩ := comparable_of_ready isReady
      (ready other (MultilevelThreadQueue.mem_threads.mpr (.inr (.inl member))))
    exact comparePriority_eq left right comparable
  rw [append, lookup_of_some found, enqueue, level]
  simp only [bind, Except.bind, pure, Except.pure]
  cases getQueueLevel thread.getPriority with
  | lv1 => simp only [first]
  | lv2 => simp only [second]
  | lv3 => simp only [if_neg notThird]

/-- To enqueue adds one thread, by cases on its level. -/
theorem enqueue_threads_perm (state : SchedulerState) (queue : MultilevelThreadQueue)
    (t : ThreadId)
    : (state.enqueue queue t).threads.Perm (t :: queue.threads) := by
  rw [enqueue]
  cases state.level t with
  | lv1 =>
      exact ((List.perm_orderedInsert _ t queue.l1).append_right queue.l2).append_right queue.l3
  | lv2 =>
      have added := (List.perm_orderedInsert (state.priorityOrder · · < 0) t queue.l2)
      have middle := (added.append_left queue.l1).append_right queue.l3
      exact middle.trans (List.perm_middle.append_right queue.l3)
  | lv3 =>
      have added : (queue.l3 ++ [t]).Perm (t :: queue.l3) := List.perm_append_singleton t queue.l3
      exact (added.append_left (queue.l1 ++ queue.l2)).trans List.perm_middle

/-- Adding a thread to one list does not depend on another list. -/
theorem setList_enqueue {level : Level} (apart : state.level t ≠ level)
    (items : List ThreadId)
    : (state.enqueue queue t).setList level items
      = state.enqueue (queue.setList level items) t := by
  rw [enqueue, enqueue]
  cases own : state.level t <;> cases level <;> first | rfl | exact absurd own apart

theorem list_enqueue {level : Level} (apart : state.level t ≠ level)
    : (state.enqueue queue t).list level = queue.list level := by
  rw [enqueue]
  cases own : state.level t <;> cases level <;> first | rfl | exact absurd own apart

-----------------------------------------------------------------------------------------
-- Aging in place
-----------------------------------------------------------------------------------------

/-- A thread after `Thread::Aging`. -/
def agedThread (totalTicks : Int) (thread : Thread) : Thread :=
  { thread with orderManager := thread.orderManager.aged totalTicks }

/-- The state after `Thread::Aging` on the given threads. -/
def agedOn (state : SchedulerState) (items : List ThreadId) : SchedulerState :=
  {
    state with
    threads := fun t =>
      if t ∈ items then (state.threads t).map (agedThread state.totalTicks)
      else state.threads t
  }

/-- The priority that aging gives a queued thread. -/
def agedPriority (state : SchedulerState) (t : ThreadId) : Int :=
  (state.threads t).elim 0 (fun thread => thread.orderManager.agedPriority state.totalTicks)

/-- Aging keeps every status. -/
@[simp]
theorem statusOf_agedOn (state : SchedulerState) (items : List ThreadId) (t : ThreadId)
    : (state.agedOn items).statusOf t = state.statusOf t := by
  simp only [statusOf, agedOn]
  split
  · rw [Option.map_map]
    rfl
  · rfl

theorem level_agedOn {items : List ThreadId} (member : t ∈ items)
    (isReady : state.statusOf t = some .ready)
    : (state.agedOn items).level t = getQueueLevel (state.agedPriority t) := by
  obtain ⟨thread, found, _⟩ := exists_of_statusOf isReady
  simp [level, agedPriority, priority, agedOn, member, found, agedThread, Thread.getPriority,
    ThreadStateController.priority_aged]

/-- Aging a thread changes nothing else. -/
theorem eq_put_of_ageThread {after : SchedulerState} (aged : state.ageThread t = .ok after)
    : ∃ thread, after = state.put t thread := by
  rw [ageThread] at aged
  cases found : state.lookup t with
  | error fault =>
      rw [found] at aged
      cases aged
  | ok thread =>
      rw [found] at aged
      cases changed : thread.aging state.totalTicks with
      | error fault =>
          change (thread.aging state.totalTicks >>= fun aged => pure (state.put t aged)) = _ at aged
          rw [changed] at aged
          cases aged
      | ok other =>
          change (thread.aging state.totalTicks >>= fun aged => pure (state.put t aged)) = _ at aged
          rw [changed] at aged
          exact ⟨other, (Except.ok.inj aged).symm⟩

/-- Aging a list of ready threads ages each once, by induction on the list. -/
theorem foldlM_ageThread {items : List ThreadId} (distinct : items.Nodup)
    (ready : ∀ t ∈ items, state.statusOf t = some .ready)
    : items.foldlM ageThread state = .ok (state.agedOn items) := by
  induction items generalizing state with
  | nil => simp [agedOn, pure, Except.pure]
  | cons head rest ih =>
      obtain ⟨notLater, later⟩ := List.nodup_cons.mp distinct
      obtain ⟨thread, found, isReady⟩ := exists_of_statusOf (ready head (List.mem_cons_self ..))
      have aged : state.ageThread head = .ok (state.put head (agedThread state.totalTicks thread)) := by
        simp [ageThread, lookup_of_some found, Thread.aging, isReady, agedThread, bind, Except.bind,
          pure, Except.pure]
      have others : ∀ t ∈ rest,
          (state.put head (agedThread state.totalTicks thread)).statusOf t = some .ready := by
        intro t member
        have apart : t ≠ head := fun same => notLater (same ▸ member)
        have before := ready t (List.mem_cons_of_mem _ member)
        simpa [statusOf, put, Function.update_of_ne apart] using before
      rw [List.foldlM_cons, aged]
      refine (ih later others).trans (congrArg Except.ok ?_)
      simp only [agedOn, put]
      refine SchedulerState.mk.injEq .. ▸ ⟨funext (fun t => ?_), rfl, rfl⟩
      by_cases same : t = head
      · subst same
        simp [notLater, found]
      · simp [same]

-----------------------------------------------------------------------------------------
-- Promotion
-----------------------------------------------------------------------------------------

/-- Whether `promoteThreads` takes a thread out of the list of `level`. -/
def moves (state : SchedulerState) (level : Level) (t : ThreadId) : Bool :=
  decide ((state.level t).toNat < level.toNat)

/-- The queue after `promoteThreads` on the list of `level`. -/
def promoted (state : SchedulerState) (level : Level) (queue : MultilevelThreadQueue)
    : MultilevelThreadQueue :=
  ((queue.list level).filter (state.moves level)).foldl state.enqueue
    (queue.setList level ((queue.list level).filter (fun t => !state.moves level t)))

/-- A thread in a list is appended again when its level is above that of the list. -/
theorem promoteThread_eq {level : Level} (queued : state.Queued)
    (member : t ∈ state.readyList.list level)
    : state.promoteThread level t
      = if state.moves level t = true then
          append t
            {
              state with
              readyList := state.readyList.setList level ((state.readyList.list level).erase t)
            }
        else .ok state := by
  have isReady := queued.ready t (MultilevelThreadQueue.mem_threads_of_list member)
  obtain ⟨thread, found, _⟩ := exists_of_statusOf isReady
  have own : state.level t = getQueueLevel thread.getPriority := by
    simp [SchedulerState.level, priority, found]
  rw [promoteThread, lookup_of_some found, moves, own]
  simp only [decide_eq_true_eq]
  rfl

/-- A thread whose level is above that of its list moves to its own list. -/
theorem promoteThread_of_moves {level : Level} {kept rest : List ThreadId}
    (queued : state.Queued) (split : state.readyList.list level = kept ++ t :: rest)
    (notKept : t ∉ kept) (goes : state.moves level t = true)
    : state.promoteThread level t
        = .ok {
            state with
            readyList := state.enqueue (state.readyList.setList level (kept ++ rest)) t
          }
      ∧ Queued {
          state with
          readyList := state.enqueue (state.readyList.setList level (kept ++ rest)) t
        } := by
  have member : t ∈ state.readyList.list level := by simp [split]
  have isReady := queued.ready t (MultilevelThreadQueue.mem_threads_of_list member)
  have without : (state.readyList.list level).erase t = kept ++ rest := by
    rw [split, List.erase_append_right _ notKept, List.erase_cons_head]
  have parts : state.readyList.threads.Perm
      (t :: (state.readyList.setList level (kept ++ rest)).threads) :=
    @MultilevelThreadQueue.threads_perm_setList _ _ [t] _ (split ▸ List.perm_middle)
  have distinct := parts.nodup_iff.mp queued.distinct
  have ready : ∀ other ∈ (state.readyList.setList level (kept ++ rest)).threads,
      state.statusOf other = some .ready :=
    fun other member => queued.ready other (parts.mem_iff.mpr (List.mem_cons_of_mem _ member))
  let removed : SchedulerState :=
    { state with readyList := state.readyList.setList level (kept ++ rest) }
  have added : removed.append t
      = .ok { removed with readyList := state.enqueue removed.readyList t } :=
    append_eq isReady ready (List.nodup_cons.mp distinct).1
  have entered := state.enqueue_threads_perm removed.readyList t
  refine ⟨?_, fun other member => ?_, entered.nodup_iff.mpr distinct⟩
  · rw [promoteThread_eq queued member, if_pos goes, without]
    exact added
  · exact queued.ready other (parts.mem_iff.mpr (entered.mem_iff.mp member))

/-- The turns of the loop over the threads that are left to visit, by induction on them. -/
theorem foldlM_promoteThread {level : Level} {kept rest : List ThreadId}
    (queued : state.Queued) (visited : ∀ t ∈ kept, state.moves level t = false)
    (split : state.readyList.list level = kept ++ rest)
    : rest.foldlM (promoteThread level) state
      = .ok {
          state with
          readyList :=
            (rest.filter (state.moves level)).foldl state.enqueue
              (state.readyList.setList level
                (kept ++ rest.filter (fun t => !state.moves level t)))
        } := by
  induction rest generalizing state kept with
  | nil =>
      rw [List.append_nil] at split
      simp only [List.foldlM_nil, List.filter_nil, List.foldl_nil, List.append_nil, ← split,
        MultilevelThreadQueue.setList_list]
      rfl
  | cons t rest ih =>
      have member : t ∈ state.readyList.list level := by simp [split]
      cases goes : state.moves level t with
      | false =>
          have longer : ∀ other ∈ kept ++ [t], state.moves level other = false := by
            intro other member
            rcases List.mem_append.mp member with before | last
            · exact visited other before
            · rw [List.mem_singleton.mp last]
              exact goes
          rw [List.foldlM_cons, promoteThread_eq queued member, if_neg (by simp [goes])]
          refine (ih queued longer (by rw [split, List.append_assoc]; rfl)).trans ?_
          simp [goes]
      | true =>
          have above : (state.level t).toNat < level.toNat := by simpa [moves] using goes
          have apart : state.level t ≠ level := fun same => by
            rw [same] at above
            exact lt_irrefl _ above
          have notKept : t ∉ kept := fun earlier =>
            Bool.noConfusion ((visited t earlier).symm.trans goes)
          obtain ⟨turn, again⟩ := promoteThread_of_moves queued split notKept goes
          have rest_split
              : (state.enqueue (state.readyList.setList level (kept ++ rest)) t).list level
                = kept ++ rest := by
            rw [list_enqueue apart, MultilevelThreadQueue.list_setList_self]
          rw [List.foldlM_cons, turn]
          refine (ih again visited rest_split).trans ?_
          have moved : (state.enqueue (state.readyList.setList level (kept ++ rest)) t).setList level
                (kept ++ rest.filter (fun t => !state.moves level t))
              = state.enqueue
                  (state.readyList.setList level
                    (kept ++ rest.filter (fun t => !state.moves level t))) t := by
            rw [setList_enqueue apart, MultilevelThreadQueue.setList_setList]
          have shorter : (t :: rest).filter (fun t => !state.moves level t)
              = rest.filter (fun t => !state.moves level t) := by
            simp [goes]
          have longer : (t :: rest).filter (state.moves level)
              = t :: rest.filter (state.moves level) := by
            simp [goes]
          rw [shorter, longer, List.foldl_cons, ← moved]
          rfl

/-- `promoteThreads` moves the threads of one list whose level is above it. -/
theorem promoteThreads_eq (queued : state.Queued) (level : Level)
    : state.promoteThreads level
      = .ok { state with readyList := state.promoted level state.readyList } :=
  foldlM_promoteThread queued (fun _ member => absurd member List.not_mem_nil) rfl

/-- Promotion moves threads within the queue, by induction on those that move. -/
theorem promoted_threads_perm (state : SchedulerState) (level : Level)
    (queue : MultilevelThreadQueue)
    : (state.promoted level queue).threads.Perm queue.threads := by
  have folded (items : List ThreadId) (start : MultilevelThreadQueue)
      : (items.foldl state.enqueue start).threads.Perm (items ++ start.threads) := by
    induction items generalizing start with
    | nil => exact .refl _
    | cons t rest ih =>
        have entered := (state.enqueue_threads_perm start t).append_left rest
        exact ((ih _).trans entered).trans List.perm_middle
  have parts := List.filter_append_perm (state.moves level) (queue.list level)
  exact (folded _ _).trans (MultilevelThreadQueue.threads_perm_setList parts.symm).symm

/-- The queue after aging. -/
def agedQueue (state : SchedulerState) : MultilevelThreadQueue :=
  let aged := state.agedOn state.readyList.threads
  aged.promoted .lv2 (aged.promoted .lv3 state.readyList)

/-- The state after aging: every queued thread is aged, and those that rose moved. -/
def agedState (state : SchedulerState) : SchedulerState :=
  { state.agedOn state.readyList.threads with readyList := state.agedQueue }

/-- Aging never faults. -/
theorem aging_eq (queued : state.Queued) : state.aging = .ok state.agedState := by
  have aged := foldlM_ageThread queued.distinct queued.ready
  have agedQueued : (state.agedOn state.readyList.threads).Queued := by
    refine ⟨fun t member => ?_, queued.distinct⟩
    rw [statusOf_agedOn]
    exact queued.ready t member
  have first := promoteThreads_eq agedQueued .lv3
  have parts := (state.agedOn state.readyList.threads).promoted_threads_perm .lv3 state.readyList
  have firstQueued : Queued
      {
        state.agedOn state.readyList.threads with
        readyList := (state.agedOn state.readyList.threads).promoted .lv3 state.readyList
      } :=
    ⟨fun t member => agedQueued.ready t (parts.mem_iff.mp member),
      parts.nodup_iff.mpr queued.distinct⟩
  have second := promoteThreads_eq firstQueued .lv2
  rw [aging, aged]
  simp only [bind, Except.bind]
  rw [first]
  exact second

theorem agedQueue_threads_perm (state : SchedulerState)
    : state.agedQueue.threads.Perm state.readyList.threads :=
  (promoted_threads_perm _ _ _).trans (promoted_threads_perm _ _ _)

/-- Aging keeps the queue in order. -/
theorem Queued.aging (queued : state.Queued) : state.agedState.Queued := by
  have parts := state.agedQueue_threads_perm
  refine ⟨fun t member => ?_, parts.nodup_iff.mpr queued.distinct⟩
  have before := queued.ready t (parts.mem_iff.mp member)
  rwa [← statusOf_agedOn] at before

-----------------------------------------------------------------------------------------
-- The lists after aging
-----------------------------------------------------------------------------------------

/-- Insert threads one after the other by remaining time. -/
def insertByTime (state : SchedulerState) (items : List ThreadId) (t : ThreadId)
    : List ThreadId :=
  items.orderedInsert (state.timeOrder · · < 0) t

/-- Insert threads one after the other by priority. -/
def insertByPriority (state : SchedulerState) (items : List ThreadId) (t : ThreadId)
    : List ThreadId :=
  items.orderedInsert (state.priorityOrder · · < 0) t

/-- The threads of a list that stand at a level. -/
def atLevel (state : SchedulerState) (level : Level) (items : List ThreadId) : List ThreadId :=
  items.filter (fun t => decide (state.level t = level))

/-- Of the threads that enter a queue, L1 gets those of its level, by induction on them. -/
theorem foldl_enqueue_l1 (state : SchedulerState) (items : List ThreadId)
    (queue : MultilevelThreadQueue)
    : (items.foldl state.enqueue queue).l1
      = (state.atLevel .lv1 items).foldl state.insertByTime queue.l1 := by
  induction items generalizing queue with
  | nil => rfl
  | cons t rest ih =>
      simp only [List.foldl_cons, ih, enqueue, atLevel, List.filter_cons]
      cases own : state.level t <;> rfl

/-- Of the threads that are enqueued those of level 2 go into its list by priority, by induction on
them.
-/
theorem foldl_enqueue_l2 (state : SchedulerState) (items : List ThreadId)
    (queue : MultilevelThreadQueue)
    : (items.foldl state.enqueue queue).l2
      = (state.atLevel .lv2 items).foldl state.insertByPriority queue.l2 := by
  induction items generalizing queue with
  | nil => rfl
  | cons t rest ih =>
      simp only [List.foldl_cons, ih, enqueue, atLevel, List.filter_cons]
      cases own : state.level t <;> rfl

theorem moves_lv2_iff : state.moves .lv2 t = true ↔ state.level t = .lv1 := by
  rw [moves, decide_eq_true_iff]
  cases state.level t <;> simp [Level.toNat]

theorem moves_of_lv1 {level : Level} (notFirst : level ≠ .lv1) (first : state.level t = .lv1)
    : state.moves level t = true := by
  rw [moves, decide_eq_true_iff, first]
  cases level <;> first | exact absurd rfl notFirst | decide

/-- Threads of a level above a list's own all leave the list. -/
theorem atLevel_lv1_moves (state : SchedulerState) {level : Level} (notFirst : level ≠ .lv1)
    (items : List ThreadId)
    : state.atLevel .lv1 (items.filter (state.moves level)) = state.atLevel .lv1 items := by
  rw [atLevel, atLevel, List.filter_filter]
  refine List.filter_congr (fun t _ => ?_)
  by_cases first : state.level t = .lv1
  · simp [first, moves_of_lv1 notFirst first]
  · simp [first]

/-- L1 after promotion from one list. -/
theorem promoted_l1 (state : SchedulerState) {level : Level} (notFirst : level ≠ .lv1)
    (queue : MultilevelThreadQueue)
    : (state.promoted level queue).l1
      = (state.atLevel .lv1 (queue.list level)).foldl state.insertByTime queue.l1 := by
  rw [promoted, foldl_enqueue_l1, atLevel_lv1_moves state notFirst]
  cases level <;> first | exact absurd rfl notFirst | rfl

/-- L2 after promotion from L3. -/
theorem promoted_lv3_l2 (state : SchedulerState) (queue : MultilevelThreadQueue)
    : (state.promoted .lv3 queue).l2
      = (state.atLevel .lv2 queue.l3).foldl state.insertByPriority queue.l2 := by
  rw [promoted, foldl_enqueue_l2, atLevel, atLevel, List.filter_filter]
  refine congrArg (fun items => List.foldl _ queue.l2 items) (List.filter_congr (fun t _ => ?_))
  by_cases second : state.level t = .lv2
  · simp [moves, second, Level.toNat]
  · simp [second]

/-- L2 after promotion from L2. -/
theorem promoted_lv2_l2 (state : SchedulerState) (queue : MultilevelThreadQueue)
    : (state.promoted .lv2 queue).l2
      = queue.l2.filter (fun t => !decide (state.level t = .lv1)) := by
  have stays (t : ThreadId) : state.moves .lv2 t = decide (state.level t = .lv1) := by
    rw [Bool.eq_iff_iff, moves_lv2_iff, decide_eq_true_iff]
  have none : state.atLevel .lv2 (queue.l2.filter (state.moves .lv2)) = [] := by
    rw [atLevel, List.filter_filter, List.filter_eq_nil_iff]
    intro t _
    rw [stays]
    cases state.level t <;> decide
  rw [promoted, foldl_enqueue_l2]
  change ((state.atLevel .lv2 (queue.l2.filter (state.moves .lv2))).foldl _ _) = _
  rw [none]
  exact List.filter_congr (fun t _ => congrArg Bool.not (stays t))

/-- Threads that entered L2 by priority are not among those of the first level, by induction
on them.
-/
theorem atLevel_lv1_foldl {items : List ThreadId}
    (second : ∀ t ∈ items, state.level t = .lv2) (l2 : List ThreadId)
    : state.atLevel .lv1 (items.foldl state.insertByPriority l2) = state.atLevel .lv1 l2 := by
  induction items generalizing l2 with
  | nil => rfl
  | cons t rest ih =>
      rw [List.foldl_cons, ih (fun other member => second other (List.mem_cons_of_mem _ member))]
      exact Insertion.filter_orderedInsert_of_not (by simp [second t (List.mem_cons_self ..)])

theorem level_of_mem_atLevel {level : Level} {items : List ThreadId}
    (member : t ∈ state.atLevel level items)
    : state.level t = level :=
  of_decide_eq_true (List.mem_filter.mp member).2

/-- L1 after aging: first the threads from L3 enter, then those from L2. -/
theorem agedQueue_l1 (state : SchedulerState)
    : state.agedQueue.l1
      = ((state.agedOn state.readyList.threads).atLevel .lv1 state.readyList.l3
          ++ (state.agedOn state.readyList.threads).atLevel .lv1 state.readyList.l2).foldl
          (state.agedOn state.readyList.threads).insertByTime state.readyList.l1 := by
  have entered := @atLevel_lv1_foldl (state.agedOn state.readyList.threads)
    ((state.agedOn state.readyList.threads).atLevel .lv2 state.readyList.l3)
    (fun _ member => level_of_mem_atLevel member) state.readyList.l2
  rw [agedQueue, promoted_l1 _ (by decide), promoted_l1 _ (by decide), MultilevelThreadQueue.list,
    promoted_lv3_l2, entered, List.foldl_append]
  rfl

/-- L2 after aging: the threads from L3 enter, then those of the first level leave. -/
theorem agedQueue_l2 (state : SchedulerState)
    : state.agedQueue.l2
      = (((state.agedOn state.readyList.threads).atLevel .lv2 state.readyList.l3).foldl
          (state.agedOn state.readyList.threads).insertByPriority state.readyList.l2).filter
          (fun t => !decide ((state.agedOn state.readyList.threads).level t = .lv1)) := by
  rw [agedQueue, promoted_lv2_l2, promoted_lv3_l2]

-----------------------------------------------------------------------------------------
-- Entering and leaving
-----------------------------------------------------------------------------------------

theorem setStatus_of {st : ThreadStatus} {thread changed : Thread}
    (found : state.threads t = some thread)
    (set : thread.setStatus state.totalTicks st = .ok changed)
    : state.setStatus t st = .ok (state.put t changed) := by
  simp only [setStatus, lookup_of_some found, set, bind, Except.bind, pure, Except.pure]

/-- Threads that are new, running or waiting can become ready. -/
theorem exists_setStatus_ready (totalTicks : Int) {thread : Thread}
    (idle : thread.status = .new ∨ thread.status = .running ∨ thread.status = .waiting)
    : ∃ changed, thread.setStatus totalTicks .ready = .ok changed ∧ changed.status = .ready := by
  rcases idle with status | status | status <;>
    simp only [Thread.setStatus, status] <;>
    exact ⟨_, rfl, rfl⟩

theorem threads_put_self (state : SchedulerState) (t : ThreadId) (thread : Thread)
    : (state.put t thread).threads t = some thread :=
  Function.update_self _ _ _

theorem threads_put_of_ne {other : ThreadId} (apart : other ≠ t) (thread : Thread)
    : (state.put t thread).threads other = state.threads other :=
  Function.update_of_ne apart _ _

theorem statusOf_put_self (state : SchedulerState) (t : ThreadId) (thread : Thread)
    : (state.put t thread).statusOf t = some thread.status := by
  rw [statusOf, threads_put_self, Option.map_some]

theorem statusOf_put_of_ne {other : ThreadId} (apart : other ≠ t) (thread : Thread)
    : (state.put t thread).statusOf other = state.statusOf other := by
  rw [statusOf, statusOf, threads_put_of_ne apart]

/-- A thread that becomes ready enters the queue. -/
theorem readyToRun_eq (queued : state.Queued) {thread : Thread}
    (found : state.threads t = some thread)
    (idle : thread.status = .new ∨ thread.status = .running ∨ thread.status = .waiting)
    : ∃ changed,
        thread.setStatus state.totalTicks .ready = .ok changed
        ∧ changed.status = .ready
        ∧ t ∉ state.readyList.threads
        ∧ state.readyToRun t
          = .ok {
              state.put t changed with
              readyList := (state.put t changed).enqueue state.readyList t
            } := by
  obtain ⟨changed, set, isReady⟩ := exists_setStatus_ready state.totalTicks idle
  have notQueued : t ∉ state.readyList.threads := by
    intro member
    obtain ⟨own, ownFound, ownReady⟩ := exists_of_statusOf (queued.ready t member)
    obtain rfl := Option.some.inj (found.symm.trans ownFound)
    rw [ownReady] at idle
    simp at idle
  have ready : ∀ other ∈ state.readyList.threads,
      (state.put t changed).statusOf other = some .ready := by
    intro other member
    have apart : other ≠ t := fun same => notQueued (same ▸ member)
    rw [statusOf_put_of_ne apart]
    exact queued.ready other member
  have own : (state.put t changed).statusOf t = some .ready := by
    rw [statusOf_put_self, isReady]
  refine ⟨changed, set, isReady, notQueued, ?_⟩
  rw [readyToRun, setStatus_of found set]
  exact @append_eq (state.put t changed) t own ready notQueued

/-- The queue after a thread entered it. -/
theorem Queued.enqueue {changed : Thread} (queued : state.Queued)
    (notQueued : t ∉ state.readyList.threads) (isReady : changed.status = .ready)
    : Queued
        {
          state.put t changed with
          readyList := (state.put t changed).enqueue state.readyList t
        } := by
  have entered := (state.put t changed).enqueue_threads_perm state.readyList t
  refine ⟨fun other member => ?_, ?_⟩
  · rcases List.mem_cons.mp (entered.mem_iff.mp member) with rfl | before
    · exact (statusOf_put_self ..).trans (congrArg some isReady)
    · have apart : other ≠ t := fun same => notQueued (same ▸ before)
      exact (statusOf_put_of_ne apart changed).trans (queued.ready other before)
  · exact entered.nodup_iff.mpr (List.nodup_cons.mpr ⟨notQueued, queued.distinct⟩)

/-- The next thread leaves the front of the queue, unless the queue is empty. -/
theorem findNextToRun_eq (state : SchedulerState)
    : (state.readyList.threads = [] ∧ state.findNextToRun = .ok (none, state))
      ∨ ∃ t readyList,
          state.readyList.removeFront = .ok (t, readyList)
          ∧ state.readyList.threads = t :: readyList.threads
          ∧ state.findNextToRun = .ok (some t, { state with readyList }) := by
  cases empty : state.readyList.isEmpty with
  | true =>
      refine .inl ⟨?_, by rw [findNextToRun, if_pos empty]⟩
      simp only [MultilevelThreadQueue.isEmpty, Bool.and_eq_true, List.isEmpty_iff] at empty
      simp [MultilevelThreadQueue.threads, empty]
  | false =>
      obtain ⟨t, readyList, removed⟩ := MultilevelThreadQueue.exists_removeFront empty
      refine .inr ⟨t, readyList, removed, MultilevelThreadQueue.removeFront_eq_ok removed, ?_⟩
      rw [findNextToRun, if_neg (by simp [empty]), removed]
      rfl

-----------------------------------------------------------------------------------------
-- Preemption
-----------------------------------------------------------------------------------------

/-- Whether a running thread is to yield, by its level. -/
def preempts (state : SchedulerState) (currentThread : ThreadId) : Bool :=
  match state.level currentThread with
  | .lv1 =>
      state.readyList.l1.head?.any (fun front => decide (0 < state.timeOrder currentThread front))
  | .lv2 => !state.readyList.l1.isEmpty
  | .lv3 => true

/-- The check never faults while a thread runs. -/
theorem shouldPreempt_eq (queued : state.Queued) (running : state.statusOf t = some .running)
    : state.shouldPreempt t = .ok (state.preempts t) := by
  obtain ⟨thread, found, isRunning⟩ := exists_of_statusOf running
  have own : state.level t = getQueueLevel thread.getPriority := by
    simp [level, priority, found]
  rw [shouldPreempt, lookup_of_some found, preempts, own]
  simp only [bind, Except.bind, pure, Except.pure]
  cases first : state.readyList.l1 with
  | nil => cases getQueueLevel thread.getPriority <;> rfl
  | cons front rest =>
      have member : front ∈ state.readyList.threads :=
        MultilevelThreadQueue.mem_threads.mpr (.inl (first ▸ List.mem_cons_self ..))
      obtain ⟨other, otherFound, isReady⟩ := exists_of_statusOf (queued.ready front member)
      have compared := compareTime_eq found otherFound (.inr (.inr ⟨isRunning, isReady⟩))
      simp only [compared]
      cases getQueueLevel thread.getPriority <;> simp

/-- An idle machine only ages when its timer interrupts. -/
theorem callBack_idle (queued : state.Queued) (t : ThreadId)
    : state.callBack true t = .ok (false, state.agedState) := by
  rw [callBack, aging_eq queued]
  rfl

/-- A busy machine ages and then decides. -/
theorem callBack_busy (queued : state.Queued) (running : state.statusOf t = some .running)
    : state.callBack false t = .ok (state.agedState.preempts t, state.agedState) := by
  have still : state.agedState.statusOf t = some .running :=
    (statusOf_agedOn ..).trans running
  rw [callBack, aging_eq queued]
  simp only [bind, Except.bind, Bool.false_eq_true, if_false]
  rw [shouldPreempt_eq queued.aging still]
  rfl

end SchedulerState

end Nachos.Threads
