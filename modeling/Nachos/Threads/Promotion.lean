import Nachos.Threads.LinkedQueue

/-! `Aging` over the linked lists: it restores the levels exactly when no thread changes its
level, since the loop of `PromoteThreads` goes on from the element that it has just deleted.
-/

namespace Nachos.Threads.LinkedQueue
open Routines Routine LinkedList

variable {allocator : Allocator ThreadId} {fuel : Nat} {state after : LinkedQueue}
  {queue : MultilevelThreadQueue} {level : Level} {t : ThreadId} {items : List ThreadId}

-----------------------------------------------------------------------------------------
-- Aging in place
-----------------------------------------------------------------------------------------

/-- The state after `Thread::Aging` on the given threads. -/
def agedOn (state : LinkedQueue) (items : List ThreadId) : LinkedQueue :=
  { state with threads := (state.scheduler.agedOn items).threads }

/-- Aging two lists without a common thread ages both. -/
theorem agedOn_agedOn {others : List ThreadId} (apart : ∀ t ∈ items, t ∉ others)
    : (state.agedOn items).agedOn others = state.agedOn (items ++ others) := by
  simp only [agedOn, scheduler, holding, SchedulerState.agedOn, LinkedQueue.mk.injEq, and_true]
  funext t
  by_cases first : t ∈ items
  · simp [first, apart t first]
  · simp [first]

theorem store_ageThread (t : ThreadId) (state : LinkedQueue)
    : ((ageThread t).run state).2.store = state.store := by
  rw [ageThread, run_bind_ok (run_get _)]
  cases state.scheduler.ageThread t <;> rfl

/-- Aging threads one by one is aging them in the scheduler, by induction on them. -/
theorem run_forM_ageThread {aged : SchedulerState}
    (folded : items.foldlM SchedulerState.ageThread state.scheduler = .ok aged)
    : (items.forM ageThread).run state = (.ok (), { state with threads := aged.threads }) := by
  induction items generalizing state with
  | nil =>
      cases folded
      rfl
  | cons t items ih =>
      rw [List.foldlM_cons] at folded
      cases one : state.scheduler.ageThread t with
      | error fault =>
          rw [one] at folded
          cases folded
      | ok next =>
          rw [one] at folded
          have turn : (ageThread t).run state = (.ok (), { state with threads := next.threads }) := by
            rw [ageThread, run_bind_ok (run_get _), one]
            rfl
          have same : next = ({ state with threads := next.threads } : LinkedQueue).scheduler := by
            obtain ⟨thread, rfl⟩ := SchedulerState.eq_put_of_ageThread one
            rfl
          rw [same] at folded
          exact (run_bind_ok turn (fun _ => items.forM ageThread)).trans (ih folded)

/-- `Apply` of `Thread::Aging` to one list that holds ready threads. -/
theorem run_applyTo (held : (state.lists level).Holds state.store items) (distinct : items.Nodup)
    (ready : ∀ t ∈ items, state.scheduler.statusOf t = some .ready)
    (enough : items.length < fuel)
    : (applyTo fuel ageThread level).run state = (.ok (), state.agedOn items) := by
  have folded := SchedulerState.foldlM_ageThread distinct ready
  rw [applyTo, run_bind_ok (run_get _), run_applyFrom store_ageThread held.linked enough,
    run_forM_ageThread folded]
  rfl

/-- The fuel with which `Apply` of `Thread::Aging` returns covers the list. -/
theorem length_lt_of_applyTo (held : (state.lists level).Holds state.store items)
    (returned : (applyTo fuel ageThread level).run state = (.ok (), after))
    : items.length < fuel := by
  rw [applyTo, run_bind_ok (run_get _)] at returned
  exact length_lt_of_applyFrom store_ageThread held.linked returned

theorem agedOn_nil (state : LinkedQueue)
    : state.agedOn [] = state := by
  simp [agedOn, scheduler, holding, SchedulerState.agedOn]

namespace Listed

variable (listed : state.Listed queue)
include listed

/-- The threads of different lists are different. -/
theorem apart
    : (∀ t ∈ queue.l1, t ∉ queue.l2) ∧ ∀ t ∈ queue.l1 ++ queue.l2, t ∉ queue.l3 := by
  obtain ⟨firstTwo, _, last⟩ := List.nodup_append.mp listed.queued.distinct
  obtain ⟨_, _, second⟩ := List.nodup_append.mp firstTwo
  exact ⟨fun t left right => second t left t right rfl, fun t left right => last t left t right rfl⟩

/-- No thread is twice in one list, since none is twice in all three. -/
theorem distinct (level : Level)
    : (queue.list level).Nodup := by
  obtain ⟨firstTwo, third, _⟩ := List.nodup_append.mp listed.queued.distinct
  obtain ⟨first, second, _⟩ := List.nodup_append.mp firstTwo
  cases level with
  | lv1 => exact first
  | lv2 => exact second
  | lv3 => exact third

/-- `Apply` to one list, when others may have been aged before. -/
theorem run_applyTo (before : List ThreadId) (enough : (queue.list level).length < fuel)
    : (applyTo fuel ageThread level).run (state.agedOn before)
      = (.ok (), (state.agedOn before).agedOn (queue.list level)) := by
  refine LinkedQueue.run_applyTo (listed.held level) (listed.distinct level) ?_ enough
  intro t member
  have ready := listed.queued.ready t (MultilevelThreadQueue.mem_threads_of_list member)
  exact (SchedulerState.statusOf_agedOn state.scheduler before t).trans ready

/-- Aging visits the three lists one after the other, and each thread in them once. -/
theorem run_apply (enough : ∀ level, (queue.list level).length < fuel)
    : (apply fuel ageThread).run state = (.ok (), state.agedOn queue.threads) := by
  obtain ⟨second, third⟩ := listed.apart
  have first := listed.run_applyTo [] (enough .lv1)
  rw [agedOn_nil] at first
  change _ = (_, state.agedOn queue.l1) at first
  have next : (applyTo fuel ageThread .lv2).run (state.agedOn queue.l1)
      = (.ok (), (state.agedOn queue.l1).agedOn queue.l2) :=
    listed.run_applyTo queue.l1 (enough .lv2)
  rw [agedOn_agedOn second] at next
  have last : (applyTo fuel ageThread .lv3).run (state.agedOn (queue.l1 ++ queue.l2))
      = (.ok (), (state.agedOn (queue.l1 ++ queue.l2)).agedOn queue.l3) :=
    listed.run_applyTo (queue.l1 ++ queue.l2) (enough .lv3)
  rw [agedOn_agedOn third] at last
  rw [apply, run_bind_ok first, run_bind_ok next, last]
  rfl

/-- A call of `Apply` on one list that returned had fuel for it. -/
theorem of_applyTo {before : List ThreadId}
    (returned : (applyTo fuel ageThread level).run (state.agedOn before) = (.ok (), after))
    : (queue.list level).length < fuel
      ∧ after = (state.agedOn before).agedOn (queue.list level) := by
  have enough := @length_lt_of_applyTo _ (state.agedOn before) _ _ _ (listed.held level) returned
  rw [listed.run_applyTo before enough] at returned
  exact ⟨enough, (Prod.mk.inj returned).2.symm⟩

/-- A call of `Apply` that returned had fuel for every list. -/
theorem length_lt_of_apply (returned : (apply fuel ageThread).run state = (.ok (), after))
    : ∀ level, (queue.list level).length < fuel := by
  obtain ⟨_, _, first, returned⟩ := of_run_bind_ok returned
  obtain ⟨_, _, next, last⟩ := of_run_bind_ok returned
  rw [← agedOn_nil state] at first
  obtain ⟨one, rfl⟩ := listed.of_applyTo first
  rw [agedOn_nil] at next
  obtain ⟨two, rfl⟩ := listed.of_applyTo next
  change (applyTo fuel ageThread .lv3).run ((state.agedOn queue.l1).agedOn queue.l2) = _ at last
  rw [agedOn_agedOn listed.apart.1] at last
  obtain ⟨three, _⟩ := listed.of_applyTo last
  intro level
  cases level with
  | lv1 => exact one
  | lv2 => exact two
  | lv3 => exact three

end Listed

theorem Placed.listed (placed : state.Placed queue) : state.Listed queue :=
  ⟨placed.held, placed.queued⟩

-----------------------------------------------------------------------------------------
-- The loop of PromoteThreads when no thread rises
-----------------------------------------------------------------------------------------

/-- Whether the thread at an address is to leave the list of a level. -/
def Rises (state : LinkedQueue) (level : Level) (t : ThreadId) : Prop :=
  (state.scheduler.level t).toNat < level.toNat

theorem run_onStore_of {α : Type} {routine : Routine Fault (Store ThreadId) α} {value : α}
    {store : Store ThreadId} (ran : routine.run state.store = (.ok value, store))
    : (onStore routine).run state = (.ok value, { state with store }) := by
  rw [onStore, run_onPart, ran]

theorem run_onStore {α : Type} {routine : Routine Fault (Store ThreadId) α} {value : α}
    (ran : routine.run state.store = (.ok value, state.store))
    : (onStore routine).run state = (.ok value, state) :=
  run_onStore_of ran

theorem rises_iff {thread : Thread} (found : state.threads t = some thread)
    : state.Rises level t ↔ (getQueueLevel thread.getPriority).toNat < level.toNat := by
  simp [Rises, SchedulerState.level, SchedulerState.priority, scheduler, holding, found]

theorem run_promoteThread_of_not {thread : Thread} (found : state.threads t = some thread)
    (stays : ¬state.Rises level t)
    : (promoteThread allocator fuel level t).run state = (.ok (), state) := by
  rw [rises_iff found] at stays
  have looked : state.scheduler.lookup t = .ok thread := SchedulerState.lookup_of_some found
  rw [promoteThread, run_bind_ok (run_get _), looked, run_bind_ok (run_lift _ _), if_neg stays,
    run_pure]

/-- The loop only walks when no thread rises, by induction on the threads left to visit. -/
theorem run_promoteFrom_of_not {turns : Nat} {pointer : Option Address}
    (path : Path state.store pointer items none)
    (exist : ∀ t ∈ items, (state.threads t).isSome) (stay : ∀ t ∈ items, ¬state.Rises level t)
    (enough : items.length < turns)
    : (promoteFrom allocator fuel level turns (state.store.iterator pointer)).run state
      = (.ok (), state) := by
  induction items generalizing pointer turns with
  | nil =>
      cases path
      cases turns with
      | zero => exact absurd enough (Nat.lt_irrefl 0)
      | succ turns => rfl
  | cons t items ih =>
      cases path with
      | @step address element _ _ found linked =>
          cases turns with
          | zero => exact absurd enough (Nat.not_lt_zero _)
          | succ turns =>
              obtain ⟨thread, isThere⟩ := Option.isSome_iff_exists.mp (exist _ (List.mem_cons_self ..))
              have others := ih linked (fun t member => exist t (List.mem_cons_of_mem _ member))
                (fun t member => stay t (List.mem_cons_of_mem _ member))
                (Nat.lt_of_succ_lt_succ enough)
              have notDone : (state.store.iterator (some address)).isDone = false := rfl
              rw [promoteFrom, notDone, if_neg Bool.false_ne_true,
                run_bind_ok (run_onStore (run_item found)),
                run_bind_ok (run_promoteThread_of_not isThere (stay _ (List.mem_cons_self ..))),
                run_bind_ok (run_onStore (run_next found)), others]

-----------------------------------------------------------------------------------------
-- The loop of PromoteThreads from a deleted element
-----------------------------------------------------------------------------------------

section Stale

variable {start : Store ThreadId} {property : Store ThreadId → Prop}

theorem keeps_onStore {α : Type} {routine : Routine Fault (Store ThreadId) α}
    (kept : Keeps property routine)
    : Keeps (fun state => property state.store) (onStore routine) :=
  fun state holds => kept state.store holds

theorem keeps_setList (level : Level) (list : Header)
    : Keeps (fun state => property state.store) (setList level list) :=
  keeps_get_bind (fun _ holds => holds)

/-- To append keeps what is stable, by cases on the level. -/
theorem keeps_append (stable : Stable allocator property) (fuel : Nat) (t : ThreadId)
    : Keeps (fun state => property state.store) (append allocator fuel t) := by
  refine keeps_bind keeps_get (fun state => keeps_bind (keeps_lift _) (fun thread => ?_))
  refine keeps_bind (keeps_onStore ?_) (fun longer => keeps_setList _ _)
  cases getQueueLevel thread.getPriority with
  | lv1 => exact keeps_insert stable _ _ _ _
  | lv2 => exact keeps_insert stable _ _ _ _
  | lv3 => exact LinkedList.keeps_append stable _ _ _

/-- One turn of the promotion goes on to a later store, by cases on whether the thread rises. -/
theorem keeps_promoteThread (allocator : Allocator ThreadId) (fuel : Nat) (level : Level)
    (t : ThreadId)
    : Keeps (fun state => start.Later state.store) (promoteThread allocator fuel level t) := by
  refine keeps_bind keeps_get (fun state => keeps_bind (keeps_lift _) (fun thread => ?_))
  refine keeps_ite ?_ (keeps_pure _)
  refine keeps_bind (keeps_onStore (keeps_remove _ _ _)) (fun shorter => ?_)
  exact keeps_bind (keeps_setList _ _)
    (fun _ => keeps_append (Store.Later.stable start allocator) _ _)

/-- By induction on the turns. -/
theorem keeps_promoteFrom (allocator : Allocator ThreadId) (fuel : Nat) (level : Level)
    (turns : Nat) (it : ListIterator)
    : Keeps (fun state => start.Later state.store)
        (promoteFrom allocator fuel level turns it) := by
  induction turns generalizing it with
  | zero => exact keeps_throw _
  | succ turns ih =>
      refine keeps_ite (keeps_pure _) ?_
      refine keeps_bind (keeps_onStore (keeps_item _)) (fun t => ?_)
      refine keeps_bind (keeps_promoteThread _ _ _ _) (fun _ => ?_)
      exact keeps_bind (keeps_onStore (keeps_next _)) (fun moved => ih moved)

end Stale

theorem of_run_onStore {α : Type} {routine : Routine Fault (Store ThreadId) α} {value : α}
    (returned : (onStore routine).run state = (.ok value, after))
    : ∃ store, routine.run state.store = (.ok value, store) ∧ after = { state with store } := by
  rw [onStore, run_onPart] at returned
  obtain ⟨outcome, rfl⟩ := Prod.mk.inj returned
  exact ⟨_, Prod.ext outcome rfl, rfl⟩

theorem exists_of_promoteThread
    (returned : (promoteThread allocator fuel level t).run state = (.ok (), after))
    : ∃ thread, state.threads t = some thread := by
  rw [promoteThread, run_bind_ok (run_get _)] at returned
  obtain ⟨thread, looked, _⟩ := of_run_bind_ok_reading (fun _ => keeps_lift _) returned
  exact ⟨thread, SchedulerState.some_of_lookup (Prod.mk.inj looked).1⟩

/-- A thread that rises leaves its element, and then enters a list. -/
theorem of_promoteThread {address : Address} {element : Element ThreadId}
    {before : List ThreadId} (rises : state.Rises level element.item)
    (path : Path state.store (state.lists level).first before (some address))
    (found : state.store.elements address = some element) (notBefore : element.item ∉ before)
    (returned
      : (promoteThread allocator fuel level element.item).run state = (.ok (), after))
    : ∃ middle,
        state.store.Later middle.store
        ∧ middle.store.elements address = none
        ∧ (append allocator fuel element.item).run middle = (.ok (), after) := by
  rw [promoteThread, run_bind_ok (run_get _)] at returned
  obtain ⟨thread, looked, returned⟩ := of_run_bind_ok_reading (fun _ => keeps_lift _) returned
  rw [if_pos ((rises_iff (SchedulerState.some_of_lookup (Prod.mk.inj looked).1)).mp rises)]
    at returned
  obtain ⟨shorter, _, removed, returned⟩ := of_run_bind_ok returned
  obtain ⟨less, ran, rfl⟩ := of_run_onStore removed
  have gone := elements_of_remove path found notBefore ran
  have later := keeps_remove fuel element.item (state.lists level) state.store (.refl _)
  rw [ran] at later
  obtain ⟨_, _, listed, returned⟩ := of_run_bind_ok returned
  obtain rfl := (Prod.mk.inj listed).2
  exact ⟨_, later, gone, returned⟩

/-- After a thread that rises, no element with the old number is at its old address. -/
theorem gone_of_promoteThread {address : Address} {element : Element ThreadId}
    {before : List ThreadId} (rises : state.Rises level element.item)
    (path : Path state.store (state.lists level).first before (some address))
    (found : state.store.elements address = some element) (notBefore : element.item ∉ before)
    (returned
      : (promoteThread allocator fuel level element.item).run state = (.ok (), after))
    : ∀ other, after.store.elements address = some other → other.object ≠ element.object := by
  obtain ⟨middle, later, gone, appended⟩ := of_promoteThread rises path found notBefore returned
  have last := @keeps_append allocator middle.store.Later
    (Store.Later.stable middle.store allocator) fuel element.item middle (.refl _)
  rw [appended] at last
  have known := Nat.lt_of_lt_of_le (state.store.numbered found) later.objects
  exact fun other present => last.object_ne gone known present

/-- A loop that never follows a stale link changes nothing, by induction on the threads left to
visit: the first thread that rises would leave the iterator on a deleted element.
-/
theorem eq_of_promoteFrom {turns : Nat} {pointer : Option Address} {before : List ThreadId}
    (reached : Path state.store (state.lists level).first before pointer)
    (path : Path state.store pointer items none) (distinct : (before ++ items).Nodup)
    (returned
      : (promoteFrom allocator fuel level turns (state.store.iterator pointer)).run state
        = (.ok (), after))
    (notStale : after.store.stale = false)
    : after = state := by
  induction items generalizing before pointer turns with
  | nil =>
      cases path
      cases turns with
      | zero => cases congrArg Prod.fst returned
      | succ turns => exact (Prod.mk.inj returned).2.symm
  | cons t items ih =>
      cases path with
      | @step address element _ _ found linked =>
          cases turns with
          | zero => cases congrArg Prod.fst returned
          | succ turns =>
              have notDone : (state.store.iterator (some address)).isDone = false := rfl
              rw [promoteFrom, notDone, if_neg Bool.false_ne_true,
                run_bind_ok (run_onStore (run_item found))] at returned
              obtain ⟨_, middle, promoted, returned⟩ := of_run_bind_ok returned
              by_cases rises : state.Rises level element.item
              · have notBefore : element.item ∉ before := fun earlier =>
                  (List.nodup_append.mp distinct).2.2 _ earlier _ (List.mem_cons_self ..) rfl
                have gone := gone_of_promoteThread rises reached found notBefore promoted
                have number : (state.store.iterator (some address)).object = element.object := by
                  simp [Store.iterator, found]
                obtain ⟨moved, _, next, returned⟩ := of_run_bind_ok returned
                obtain ⟨walked, ran, rfl⟩ := of_run_onStore next
                have stale := stale_of_next rfl (fun other present => number ▸ gone other present) ran
                have last := @keeps_promoteFrom walked allocator fuel level turns moved
                  { middle with store := walked } (.refl walked)
                rw [returned] at last
                rw [last.stale stale] at notStale
                cases notStale
              · obtain ⟨thread, exist⟩ := exists_of_promoteThread promoted
                rw [run_promoteThread_of_not exist rises] at promoted
                obtain rfl := (Prod.mk.inj promoted).2
                rw [run_bind_ok (run_onStore (run_next found))] at returned
                refine ih (Path.snoc found reached) linked ?_ returned
                rwa [List.append_assoc]

/-- Where the address of a deleted element is not used again, the loop returns only if no thread
rises, by induction on the threads left to visit.
-/
theorem not_rises_of_promoteFrom {turns : Nat} {pointer : Option Address} {before : List ThreadId}
    (reached : Path state.store (state.lists level).first before pointer)
    (path : Path state.store pointer items none) (distinct : (before ++ items).Nodup)
    (returned
      : (promoteFrom .fresh fuel level turns (state.store.iterator pointer)).run state
        = (.ok (), after))
    : (∀ t ∈ items, ¬state.Rises level t) ∧ after = state := by
  induction items generalizing before pointer turns with
  | nil =>
      cases path
      cases turns with
      | zero => cases congrArg Prod.fst returned
      | succ turns => exact ⟨List.forall_mem_nil _, (Prod.mk.inj returned).2.symm⟩
  | cons t items ih =>
      cases path with
      | @step address element _ _ found linked =>
          cases turns with
          | zero => cases congrArg Prod.fst returned
          | succ turns =>
              have notDone : (state.store.iterator (some address)).isDone = false := rfl
              rw [promoteFrom, notDone, if_neg Bool.false_ne_true,
                run_bind_ok (run_onStore (run_item found))] at returned
              obtain ⟨_, middle, promoted, returned⟩ := of_run_bind_ok returned
              by_cases rises : state.Rises level element.item
              · have notBefore : element.item ∉ before := fun earlier =>
                  (List.nodup_append.mp distinct).2.2 _ earlier _ (List.mem_cons_self ..) rfl
                obtain ⟨less, later, gone, appended⟩ :=
                  of_promoteThread rises reached found notBefore promoted
                have below : address < state.store.limit := by
                  by_contra above
                  rw [state.store.bounded (not_lt.mp above)] at found
                  cases found
                have left := keeps_append (Store.Left.stable address) fuel element.item less
                  ⟨gone, lt_of_lt_of_le below later.limit⟩
                rw [appended] at left
                -- The iterator reads the link of an element that does not exist any more.
                obtain ⟨_, _, next, _⟩ := of_run_bind_ok returned
                obtain ⟨_, ran, _⟩ := of_run_onStore next
                obtain ⟨_, read, _⟩ := of_run_bind_ok_reading (fun _ => keeps_read _) ran
                change (middle.store.read (some address), middle.store) = _ at read
                rw [Store.read, left.1] at read
                cases congrArg Prod.fst read
              · obtain ⟨thread, exist⟩ := exists_of_promoteThread promoted
                rw [run_promoteThread_of_not exist rises] at promoted
                obtain rfl := (Prod.mk.inj promoted).2
                rw [run_bind_ok (run_onStore (run_next found))] at returned
                obtain ⟨others, same⟩ :=
                  ih (Path.snoc found reached) linked (by rwa [List.append_assoc]) returned
                exact ⟨List.forall_mem_cons.mpr ⟨rises, others⟩, same⟩

/-- `PromoteThreads` on lists without a stale link in it. -/
theorem eq_of_promoteThreads (held : (state.lists level).Holds state.store items)
    (distinct : items.Nodup)
    (returned : (promoteThreads allocator fuel level).run state = (.ok (), after))
    (notStale : after.store.stale = false)
    : after = state := by
  rw [promoteThreads, run_bind_ok (run_get _)] at returned
  exact @eq_of_promoteFrom _ _ _ _ _ _ _ _ [] .stop held.linked distinct returned notStale

/-- What is stale after `PromoteThreads` may have been so before it, never the other way. -/
theorem notStale_of_promoteThreads
    (returned : (promoteThreads allocator fuel level).run state = (.ok (), after))
    (notStale : after.store.stale = false)
    : state.store.stale = false := by
  rw [promoteThreads, run_bind_ok (run_get _)] at returned
  have later := @keeps_promoteFrom state.store allocator fuel level fuel
    (state.store.iterator (state.lists level).first) state (.refl _)
  rw [returned] at later
  cases stale : state.store.stale with
  | false => rfl
  | true => exact (later.stale stale).symm.trans notStale

-----------------------------------------------------------------------------------------
-- When Aging restores the levels
-----------------------------------------------------------------------------------------

/-- The cap on priorities lies in the first level. -/
theorem getQueueLevel_min (priority : Int)
    : getQueueLevel (min priority 149) = getQueueLevel priority := by
  simp [getQueueLevel]

/-- The cap at 149 does not change the level, by cases on whether aging is due. -/
theorem getQueueLevel_agedPriority (totalTicks : Int) (controller : ThreadStateController)
    : getQueueLevel (controller.agedPriority totalTicks)
      = getQueueLevel (controller.priority + 10 * controller.age totalTicks) := by
  rw [ThreadStateController.agedPriority]
  split
  · exact getQueueLevel_min _
  · have none : controller.age totalTicks = 0 := not_not.mp ‹_›
    rw [none, mul_zero, add_zero]

namespace Listed

variable (listed : state.Listed queue)
include listed

theorem exists_thread (member : t ∈ queue.list level)
    : ∃ thread, state.threads t = some thread ∧ thread.status = .ready :=
  SchedulerState.exists_of_statusOf
    (listed.queued.ready t (MultilevelThreadQueue.mem_threads_of_list member))

/-- Over a list from which no thread rises the loop only walks. -/
theorem run_promoteThreads (stay : ∀ t ∈ queue.list level, ¬state.Rises level t)
    (enough : (queue.list level).length < fuel)
    : (promoteThreads allocator fuel level).run state = (.ok (), state) := by
  rw [promoteThreads, run_bind_ok (run_get _)]
  refine run_promoteFrom_of_not (listed.held level).linked (fun t member => ?_) stay enough
  obtain ⟨thread, found, _⟩ := listed.exists_thread member
  exact Option.isSome_iff_exists.mpr ⟨thread, found⟩

/-- Aging in place changes no list. -/
theorem agedOn (items : List ThreadId) : (state.agedOn items).Listed queue := by
  refine ⟨listed.held, ⟨fun t member => ?_, listed.queued.distinct⟩⟩
  have ready := listed.queued.ready t member
  exact (SchedulerState.statusOf_agedOn state.scheduler items t).trans ready

/-- When no thread rises, aging in place is all that happens. -/
theorem run_aging
    (stay : ∀ level, ∀ t ∈ queue.list level, ¬(state.agedOn queue.threads).Rises level t)
    (enough : queue.threads.length < fuel)
    : (aging allocator fuel).run state = (.ok (), state.agedOn queue.threads) := by
  have short (level : Level) : (queue.list level).length < fuel :=
    lt_of_le_of_lt (queue.length_list_le level) enough
  have aged := listed.agedOn queue.threads
  rw [aging, run_bind_ok (listed.run_apply short),
    run_bind_ok (aged.run_promoteThreads (stay .lv3) (short .lv3)),
    aged.run_promoteThreads (stay .lv2) (short .lv2)]

/-- Where the address of a deleted element is not used again, aging returns only if no thread
rises.
-/
theorem not_rises_of_aging (returned : (aging .fresh fuel).run state = (.ok (), after))
    : ∀ level, ∀ t ∈ queue.list level, ¬(state.agedOn queue.threads).Rises level t := by
  obtain ⟨_, _, applied, returned⟩ := of_run_bind_ok returned
  rw [listed.run_apply (listed.length_lt_of_apply applied)] at applied
  obtain rfl := (Prod.mk.inj applied).2
  obtain ⟨_, middle, third, second⟩ := of_run_bind_ok returned
  rw [promoteThreads, run_bind_ok (run_get _)] at third second
  have held := (listed.agedOn queue.threads).held
  obtain ⟨fromThird, rfl⟩ := @not_rises_of_promoteFrom _ _ _ _ _ _ _ [] .stop
    (held .lv3).linked (listed.distinct .lv3) third
  obtain ⟨fromSecond, _⟩ := @not_rises_of_promoteFrom _ _ _ _ _ _ _ [] .stop
    (held .lv2).linked (listed.distinct .lv2) second
  intro level
  cases level with
  | lv1 => exact fun _ _ rises => absurd rises (Nat.not_lt_zero _)
  | lv2 => exact fromSecond
  | lv3 => exact fromThird

end Listed

namespace Placed

variable (placed : state.Placed queue)
include placed

/-- A thread in the list of its level does not rise. -/
theorem not_rises (member : t ∈ queue.list level) : ¬state.Rises level t := by
  intro rises
  have own : state.scheduler.level t = level := placed.leveled level t member
  rw [Rises, own] at rises
  exact Nat.lt_irrefl _ rises

/-- A queued thread keeps its level in aging exactly when it stays in its level. -/
theorem level_agedOn_eq_iff (member : t ∈ queue.list level)
    : ((state.agedOn queue.threads).holding queue).level t = level ↔ state.StaysInLevel t := by
  have queued := MultilevelThreadQueue.mem_threads_of_list member
  obtain ⟨thread, found, _⟩ := SchedulerState.exists_of_statusOf (placed.queued.ready t queued)
  have own := placed.leveled level t member
  have found' : state.threads t = some thread := found
  have aged : ((state.agedOn queue.threads).holding queue).level t
      = getQueueLevel (thread.getPriority + 10 * thread.orderManager.age state.totalTicks) := by
    rw [Thread.getPriority, ← getQueueLevel_agedPriority,
      ← ThreadStateController.priority_aged]
    simp [SchedulerState.level, SchedulerState.priority, holding, agedOn, scheduler,
      SchedulerState.agedOn, queued, found', SchedulerState.agedThread, Thread.getPriority]
  have before : getQueueLevel thread.getPriority = level := by
    simpa [SchedulerState.level, SchedulerState.priority, holding, found'] using own
  rw [aged, ← before]
  constructor
  · intro same other exist
    obtain rfl := Option.some.inj (found'.symm.trans exist)
    exact same
  · intro stays
    exact stays thread found'

theorem placed_agedOn (stay : ∀ t ∈ queue.threads, state.StaysInLevel t)
    : (state.agedOn queue.threads).Placed queue := by
  obtain ⟨held, queued⟩ := placed.listed.agedOn queue.threads
  refine ⟨held, queued, fun level t member => ?_⟩
  have stays := stay t (MultilevelThreadQueue.mem_threads_of_list member)
  exact (placed.level_agedOn_eq_iff member).mpr stays

/-- Without a thread that changes its level, aging in place is all that happens. -/
theorem restores (stay : ∀ t ∈ queue.threads, state.StaysInLevel t)
    (fresh : state.store.stale = false)
    : Restores allocator state queue := by
  have aged := placed.placed_agedOn stay
  refine ⟨queue.threads.length + 1, state.agedOn queue.threads, queue, ?_, fresh, aged, .refl _,
    rfl⟩
  exact placed.listed.run_aging (fun _ _ member => aged.not_rises member) (Nat.lt_succ_self _)

/-- Levels that are restored were never left. -/
theorem staysInLevel_of_restores (restored : Restores allocator state queue)
    : ∀ t ∈ queue.threads, state.StaysInLevel t := by
  obtain ⟨fuel, after, queue', returned, notStale, aged, _, _⟩ := restored
  obtain ⟨_, _, applied, returned⟩ := of_run_bind_ok returned
  rw [placed.listed.run_apply (placed.listed.length_lt_of_apply applied)] at applied
  obtain rfl := (Prod.mk.inj applied).2
  obtain ⟨_, middle, third, second⟩ := of_run_bind_ok returned
  have notStale' := notStale_of_promoteThreads second notStale
  have held (level : Level)
      : ((state.agedOn queue.threads).lists level).Holds (state.agedOn queue.threads).store
          (queue.list level) :=
    placed.held level
  obtain rfl := eq_of_promoteThreads (held .lv3) (placed.listed.distinct .lv3) third notStale'
  obtain rfl := eq_of_promoteThreads (held .lv2) (placed.listed.distinct .lv2) second notStale
  intro t member
  obtain ⟨level, member⟩ := MultilevelThreadQueue.exists_list_of_mem member
  have same := (placed.held level).linked.unique (aged.held level).linked
  exact (placed.level_agedOn_eq_iff member).mp (aged.leveled level t (same ▸ member))

end Placed

/-- `Aging` restores the placement exactly when it has nothing to restore. -/
theorem restores_iff_stay (placed : state.Placed queue) (fresh : state.store.stale = false)
    : Restores allocator state queue ↔ ∀ t ∈ queue.threads, state.StaysInLevel t :=
  ⟨placed.staysInLevel_of_restores, fun stay => placed.restores stay fresh⟩

/-- One thread of priority 40 that has waited in the third list since tick 0. -/
def oneWaiting (totalTicks : Int) : LinkedQueue :=
  {
    threads := fun t =>
      if t = 0 then some { status := .ready, orderManager := .new 40 0 } else none
    totalTicks
    store := Store.empty.construct 0 0
    lists := fun level =>
      match level with
      | .lv3 => { first := some 0, last := some 0, numInList := 1 }
      | _ => { first := none, last := none, numInList := 0 }
  }

/-- The queue of the witness with one thread is placed in its cells. -/
theorem placed_oneWaiting (totalTicks : Int)
    : (oneWaiting totalTicks).Placed { l1 := [], l2 := [], l3 := [0] } := by
  refine ⟨fun level => ?_, ⟨?_, List.nodup_singleton 0⟩, fun level t member => ?_⟩
  · cases level with
    | lv1 => exact ⟨.stop, rfl, rfl⟩
    | lv2 => exact ⟨.stop, rfl, rfl⟩
    | lv3 => exact ⟨@Path.step _ _ 0 { item := 0, next := none, object := 0 } _ _ rfl .stop, .stop, rfl⟩
  · intro t member
    obtain rfl := List.mem_singleton.mp member
    rfl
  · cases level with
    | lv1 => cases member
    | lv2 => cases member
    | lv3 =>
        obtain rfl := List.mem_singleton.mp member
        rfl

/-- One thread in every list, of priorities 110, 60 and 10, that have waited since tick 0. -/
def oneInEach (totalTicks : Int) : LinkedQueue :=
  {
    threads := fun t =>
      if t = 0 then some { status := .ready, orderManager := .new 110 0 }
      else if t = 1 then some { status := .ready, orderManager := .new 60 0 }
      else if t = 2 then some { status := .ready, orderManager := .new 10 0 }
      else none
    totalTicks
    store := ((Store.empty.construct 0 0).construct 1 1).construct 2 2
    lists := fun level =>
      match level with
      | .lv1 => { first := some 0, last := some 0, numInList := 1 }
      | .lv2 => { first := some 1, last := some 1, numInList := 1 }
      | .lv3 => { first := some 2, last := some 2, numInList := 1 }
  }

/-- The queue of the witness with a thread in each list is placed in its cells. -/
theorem placed_oneInEach (totalTicks : Int)
    : (oneInEach totalTicks).Placed { l1 := [0], l2 := [1], l3 := [2] } := by
  have distinct : ([0, 1, 2] : List ThreadId).Nodup := by decide
  refine ⟨fun level => ?_, ⟨?_, distinct⟩, fun level t member => ?_⟩
  · cases level with
    | lv1 => exact ⟨@Path.step _ _ 0 ⟨0, none, 0⟩ _ _ rfl .stop, .stop, rfl⟩
    | lv2 => exact ⟨@Path.step _ _ 1 ⟨1, none, 1⟩ _ _ rfl .stop, .stop, rfl⟩
    | lv3 => exact ⟨@Path.step _ _ 2 ⟨2, none, 2⟩ _ _ rfl .stop, .stop, rfl⟩
  · intro t (member : t ∈ [0, 1, 2])
    obtain rfl | rfl | rfl : t = 0 ∨ t = 1 ∨ t = 2 := by
      simpa using member
    all_goals rfl
  · cases level with
    | lv1 =>
        obtain rfl := List.mem_singleton.mp member
        rfl
    | lv2 =>
        obtain rfl := List.mem_singleton.mp member
        rfl
    | lv3 =>
        obtain rfl := List.mem_singleton.mp member
        rfl

/-- Witness: at the end of the first aging period every priority is raised by 10, and no level
changes.
-/
theorem restores_first_period
    : Restores .fresh (oneInEach 1500) { l1 := [0], l2 := [1], l3 := [2] }
      ∧ [0, 1, 2].map (oneInEach 1500).scheduler.agedPriority = [120, 70, 20] := by
  refine ⟨(restores_iff_stay (placed_oneInEach 1500) rfl).mpr ?_, by decide⟩
  intro t member thread found
  obtain rfl | rfl | rfl : t = 0 ∨ t = 1 ∨ t = 2 := by
    simpa [MultilevelThreadQueue.threads] using member
  all_goals
    obtain rfl := Option.some.inj found
    decide

/-- At tick 1500 the thread has priority 50: it leaves the third list, and the iterator goes on
from its deleted element, wherever `new` puts the element for the second list.
-/
theorem promotion_follows_deleted_element
    : (oneWaiting 1500).Placed { l1 := [], l2 := [], l3 := [0] }
      ∧ (oneWaiting 1500).store.stale = false
      ∧ ∀ allocator,
          ¬Restores allocator (oneWaiting 1500) { l1 := [], l2 := [], l3 := [0] } := by
  refine ⟨placed_oneWaiting 1500, rfl, fun allocator restored => ?_⟩
  have stays := (placed_oneWaiting 1500).staysInLevel_of_restores restored 0 (by decide) _ rfl
  exact absurd stays (by decide)

end Nachos.Threads.LinkedQueue
