import Nachos.Threads.LinkedScheduler

/-! A promotion that cannot return: a thread leaves the front of L2 for the place before the front
of L1, and the iterator goes on from the element that is deleted.
-/

namespace Nachos.Threads
open Routines Routine LinkedList

namespace LinkedQueue

variable {allocator : Allocator ThreadId} {fuel : Nat} {linked after : LinkedQueue}
  {state : SchedulerState} {cells : Level → List (Address × ThreadId)} {t : ThreadId}
  {leaving front : Address × ThreadId} {lefts fronts : List (Address × ThreadId)}

-----------------------------------------------------------------------------------------
-- A thread before the front of L1
-----------------------------------------------------------------------------------------

theorem Represents.exists_thread (represents : linked.Represents state) (queued : state.Queued)
    (member : t ∈ state.readyList.threads)
    : ∃ thread,
        linked.threads t = some thread
        ∧ linked.scheduler.lookup t = .ok thread
        ∧ getQueueLevel thread.getPriority = state.level t := by
  obtain ⟨thread, found, _⟩ := SchedulerState.exists_of_statusOf (queued.ready t member)
  have there : linked.threads t = some thread := represents.threads ▸ found
  refine ⟨thread, there, SchedulerState.lookup_of_some there, ?_⟩
  simp [SchedulerState.level, SchedulerState.priority, found]

/-- The front of L2 leaves it for the place before the front of L1: its element is gone, and the
new one links to that front, wherever it was made.
-/
theorem Represents.run_promoteThread (represents : linked.Represents state)
    (queued : state.Queued) (strung : linked.Strung state.readyList cells)
    (first : cells .lv1 = front :: fronts) (second : cells .lv2 = leaving :: lefts)
    (rises : state.level leaving.2 = .lv1) (ahead : state.timeOrder leaving.2 front.2 < 0)
    (enough : state.readyList.threads.length + 1 < fuel)
    : ∃ next element,
        (promoteThread allocator fuel .lv2 leaving.2).run linked = (.ok (), next)
        ∧ next.threads = linked.threads
        ∧ (next.lists .lv2).Owns next.store lefts
        ∧ next.store.elements front.1 = some element
        ∧ element.item = front.2
        ∧ ∀ other, next.store.elements leaving.1 = some other → other.next = some front.1 := by
  have inFirst : front.2 ∈ state.readyList.list .lv1 := by
    rw [← strung.items, first]
    exact List.mem_cons_self ..
  have inSecond : leaving.2 ∈ state.readyList.list .lv2 := by
    rw [← strung.items, second]
    exact List.mem_cons_self ..
  obtain ⟨thread, _, looked, own⟩ :=
    represents.exists_thread queued (MultilevelThreadQueue.mem_threads_of_list inSecond)
  have short (level : Level) : (cells level).length + 1 < fuel := by
    have same := congrArg List.length (strung.items level)
    rw [List.length_map] at same
    have few := state.readyList.length_list_le level
    omega
  have distinct := (represents.listed queued).distinct .lv2
  rw [← strung.items, second, List.map_cons, List.nodup_cons] at distinct
  have notFirst : leaving.2 ∉ (cells .lv1).map Prod.snd := by
    rw [strung.items]
    exact fun member => (represents.listed queued).apart.1 _ member inSecond
  -- `Remove` deletes the element of the thread.
  have owns := strung.owns .lv2
  rw [second] at owns
  obtain ⟨pointer, element, found, holds, _⟩ := owns.linked.of_cons
  have few : lefts.length + 1 < fuel := lt_trans (by rw [second]; simp) (short .lv2)
  obtain ⟨shorter, store, removed, fewer, spares⟩ :=
    @run_remove _ _ _ [] lefts leaving fuel _ owns (by simp) distinct.1 few
  have gone : store.elements leaving.1 = none := by
    have start : Path linked.store (linked.lists .lv2).first [] (some leaving.1) := by
      rw [pointer]
      exact .stop
    rw [← holds] at removed
    exact elements_of_remove start found List.not_mem_nil removed
  have less := strung.update fewer spares (fun cell member => .inl (second ▸ member))
    (List.subset_cons_self ..)
  -- `Insert` makes another one before the front of L1.
  have compared (cell : Address × ThreadId) (member : cell ∈ cells .lv1)
      : linked.scheduler.compareTime leaving.2 cell.2 = .ok (state.timeOrder leaving.2 cell.2) := by
    have inList : cell.2 ∈ state.readyList.list .lv1 :=
      strung.items .lv1 ▸ List.mem_map_of_mem member
    obtain ⟨_, _, left, right, may⟩ := SchedulerState.comparable_of_ready
      (queued.ready _ (MultilevelThreadQueue.mem_threads_of_list inSecond))
      (queued.ready _ (MultilevelThreadQueue.mem_threads_of_list inList))
    rw [← represents.threads] at left right
    rw [← represents.same]
    exact SchedulerState.compareTime_eq left right may
  obtain ⟨longer, last, inserted, placed, others⟩ :=
    @Strung.insert fuel _ _ _ .lv1 leaving.2 _ _ less allocator compared notFirst (short .lv1)
  have order
      : (cells .lv1).orderedInsert (fun left right => state.timeOrder left.2 right.2 < 0)
          (allocator.place store, leaving.2)
        = (allocator.place store, leaving.2) :: front :: fronts := by
    rw [first, List.orderedInsert_cons, if_pos ahead]
  have owned := (placed.owns .lv1).linked
  simp only [Function.update_self] at owned
  change Segment last _ ((cells .lv1).orderedInsert _ _) _ at owned
  rw [order] at owned
  obtain ⟨_, new, made, _, onward⟩ := owned.of_cons
  obtain ⟨next, element', there, same, _⟩ := onward.of_cons
  have outside : leaving.1 ∉ (cells .lv1).map Prod.fst :=
    strung.apart .lv2 .lv1 (by decide) leaving (second ▸ List.mem_cons_self ..)
  refine ⟨{
      linked with
      store := last
      lists := Function.update (Function.update linked.lists .lv2 shorter) .lv1 longer
    }, element', ?_, rfl, ?_, there, same, fun other present => ?_⟩
  · rw [promoteThread, run_bind_ok (run_get _), looked, run_bind_ok (run_lift _ _), own, rises,
      if_pos (by decide), run_bind_ok (run_onStore_of removed)]
    refine (run_bind_ok rfl _).trans ?_
    rw [LinkedQueue.append, run_bind_ok (run_get _)]
    refine (run_bind_ok (congrArg (fun found => (found, _)) looked) _).trans ?_
    rw [own, rises]
    exact (run_bind_ok (run_onStore_of inserted) _).trans rfl
  · have kept := placed.owns .lv2
    simpa using kept
  · by_cases reused : allocator.place store = leaving.1
    · have here : some new = some other := made.symm.trans (reused ▸ present)
      rw [← Option.some.inj here]
      exact next
    · have absent : last.elements leaving.1 = store.elements leaving.1 := by
        refine others leaving.1 ?_
        rw [List.map_cons, List.mem_cons, not_or]
        exact ⟨fun again => reused again.symm, outside⟩
      rw [absent, gone] at present
      cases present

/-- A thread that rises but is not in the list: `Remove` asserts that it is. -/
theorem not_promoteThread {level : Level} {thread : Thread}
    {others : List (Address × ThreadId)} (found : linked.threads t = some thread)
    (rises : linked.Rises level t) (held : Segment linked.store (linked.lists level).first others none)
    (absent : t ∉ others.map Prod.snd) (enough : others.length < fuel)
    : (promoteThread allocator fuel level t).run linked ≠ (.ok (), after) := by
  intro returned
  have looked : linked.scheduler.lookup t = .ok thread := SchedulerState.lookup_of_some found
  rw [promoteThread, run_bind_ok (run_get _), looked, run_bind_ok (run_lift _ _),
    if_pos ((rises_iff found).mp rises)] at returned
  obtain ⟨shorter, _, removed, _⟩ := of_run_bind_ok returned
  obtain ⟨store, ran, _⟩ := of_run_onStore removed
  have none : (isInList fuel t (linked.lists level)).run linked.store
      = (.ok false, linked.store) := by
    rw [isInList, run_isInListFrom held enough, decide_eq_false absent]
  rw [remove, run_bind_ok none, run_bind_error (run_assert_not Bool.false_ne_true _ _)] at ran
  cases congrArg Prod.fst ran

/-- The loop of `PromoteThreads` over L2 then ends in a fault: its iterator reads an element that is
gone, or, from one made at the same address, goes on in L1, and `Remove` asserts that the front of
L1 is in L2.
-/
theorem Represents.not_promoteThreads (represents : linked.Represents state)
    (queued : state.Queued) {x y : ThreadId} {rest behind : List ThreadId}
    (first : state.readyList.l1 = x :: rest) (second : state.readyList.l2 = y :: behind)
    (rises : state.level y = .lv1) (stays : state.level x = .lv1)
    (ahead : state.timeOrder y x < 0) (enough : state.readyList.threads.length + 1 < fuel)
    : (promoteThreads allocator fuel .lv2).run linked ≠ (.ok (), after) := by
  intro returned
  obtain ⟨cells, strung⟩ := represents.strung
  have firsts : (cells .lv1).map Prod.snd = x :: rest := (strung.items .lv1).trans first
  have seconds : (cells .lv2).map Prod.snd = y :: behind := (strung.items .lv2).trans second
  obtain ⟨front, fronts, one, rfl, rfl⟩ := List.map_eq_cons_iff.mp firsts
  obtain ⟨leaving, lefts, two, rfl, rfl⟩ := List.map_eq_cons_iff.mp seconds
  obtain ⟨next, element, promoted, threads, owns, there, holds, link⟩ :=
    @Represents.run_promoteThread allocator fuel _ _ _ _ _ _ _ represents queued strung one two
      rises ahead enough
  have linked' := (strung.owns .lv2).linked
  rw [two] at linked'
  obtain ⟨pointer, old, found, item, _⟩ := linked'.of_cons
  rw [promoteThreads, run_bind_ok (run_get _), pointer] at returned
  have notDone : (linked.store.iterator (some leaving.1)).isDone = false := rfl
  cases fuel with
  | zero => exact absurd enough (Nat.not_lt_zero _)
  | succ turns =>
      rw [promoteFrom, notDone, if_neg Bool.false_ne_true,
        run_bind_ok (run_onStore (run_item found)), item, run_bind_ok promoted] at returned
      obtain ⟨moved, _, stepped, goes⟩ := of_run_bind_ok returned
      obtain ⟨store, ran, rfl⟩ := of_run_onStore stepped
      obtain ⟨other, present, rfl, same⟩ := of_next rfl ran
      rw [link other present] at goes
      cases turns with
      | zero => cases congrArg Prod.fst goes
      | succ turns =>
          have again : (store.iterator (some front.1)).isDone = false := rfl
          have here : store.elements front.1 = some element := same ▸ there
          have read : (onStore (store.iterator (some front.1)).item).run { next with store }
              = (.ok element.item, { next with store }) :=
            @run_onStore { next with store } _ _ _ (run_item here)
          rw [promoteFrom, again, if_neg Bool.false_ne_true, run_bind_ok read, holds] at goes
          obtain ⟨_, _, promotes, _⟩ := of_run_bind_ok goes
          have inFirst : front.2 ∈ state.readyList.l1 := first ▸ List.mem_cons_self ..
          obtain ⟨thread, exist, _, own⟩ := represents.exists_thread queued
            (@MultilevelThreadQueue.mem_threads_of_list _ .lv1 _ inFirst)
          have absent : front.2 ∉ lefts.map Prod.snd := fun member =>
            (represents.listed queued).apart.1 _ inFirst (second ▸ List.mem_cons_of_mem _ member)
          have few : lefts.length < turns + 1 + 1 := by
            have fewer := state.readyList.length_list_le .lv2
            rw [← strung.items, two, List.length_map, List.length_cons] at fewer
            omega
          refine @not_promoteThread allocator _ { next with store } _ _ .lv2 thread lefts
            (threads ▸ exist) ?_ (owns.linked.frame (fun cell _ => congrFun same cell.1)) absent
            few promotes
          rw [rises_iff (threads ▸ exist), own, stays]
          decide

/-- An aging that takes the front of L2 before the front of L1 does not return. -/
theorem Represents.not_aging (represents : linked.Represents state) (queued : state.Queued)
    {x y : ThreadId} {rest behind : List ThreadId} (first : state.readyList.l1 = x :: rest)
    (second : state.readyList.l2 = y :: behind)
    (stay : ∀ t ∈ state.readyList.l3, getQueueLevel (state.agedPriority t) = .lv3)
    (rises : getQueueLevel (state.agedPriority y) = .lv1)
    (stays : getQueueLevel (state.agedPriority x) = .lv1)
    (ahead : (state.agedOn state.readyList.threads).timeOrder y x < 0)
    (enough : state.readyList.threads.length + 1 < fuel)
    : (LinkedQueue.aging allocator fuel).run linked ≠ (.ok (), after) := by
  intro returned
  have short (level : Level) : (state.readyList.list level).length < fuel :=
    lt_of_le_of_lt (state.readyList.length_list_le level) (Nat.lt_of_succ_lt enough)
  have aged := represents.agedOn state.readyList.threads
  have leveled {level : Level} {t : ThreadId} (member : t ∈ state.readyList.list level)
      : (state.agedOn state.readyList.threads).level t = getQueueLevel (state.agedPriority t) :=
    have inQueue := MultilevelThreadQueue.mem_threads_of_list member
    SchedulerState.level_agedOn inQueue (queued.ready t inQueue)
  have walks (t : ThreadId) (member : t ∈ state.readyList.list .lv3)
      : ¬(linked.agedOn state.readyList.threads).Rises .lv3 t := by
    rw [aged.rises_iff_moves, SchedulerState.moves, leveled member, stay t member]
    decide
  have third := @Listed.run_promoteThreads allocator fuel _ _ _
    ((represents.listed queued).agedOn state.readyList.threads) walks (short .lv3)
  rw [LinkedQueue.aging, run_bind_ok ((represents.listed queued).run_apply short),
    run_bind_ok third] at returned
  have again : (state.agedOn state.readyList.threads).Queued := by
    refine ⟨fun t member => ?_, queued.distinct⟩
    rw [SchedulerState.statusOf_agedOn]
    exact queued.ready t member
  refine aged.not_promoteThreads again first second ?_ ?_ ahead enough returned
  · have inSecond : y ∈ state.readyList.l2 := second ▸ List.mem_cons_self ..
    rw [@leveled .lv2 y inSecond, rises]
  · have inFirst : x ∈ state.readyList.l1 := first ▸ List.mem_cons_self ..
    rw [@leveled .lv1 x inFirst, stays]

end LinkedQueue

end Nachos.Threads
