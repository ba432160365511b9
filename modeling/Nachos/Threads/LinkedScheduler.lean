import Nachos.KernelLib.ListInvariant
import Nachos.Lib.Outcome
import Nachos.Threads.Promotion
import Nachos.Threads.Scheduling

/-! The scheduler over linked lists does what it does on sequences of threads, as long as no
aging takes a queued thread above the level of its list.
-/

namespace Nachos.Threads
open Routines Routine LinkedList Outcome

-----------------------------------------------------------------------------------------
-- Aging without promotion
-----------------------------------------------------------------------------------------

namespace SchedulerState

variable {state : SchedulerState}

/-- No thread that waits in L2 or L3 is above the level of its list when all are aged. -/
def Calm (state : SchedulerState) : Prop :=
  (∀ t ∈ state.readyList.l2, getQueueLevel (state.agedPriority t) ≠ .lv1)
  ∧ ∀ t ∈ state.readyList.l3, getQueueLevel (state.agedPriority t) = .lv3

instance (state : SchedulerState) : Decidable state.Calm := inferInstanceAs (Decidable (_ ∧ _))

/-- Every aging is calm. -/
def Settled (state : SchedulerState) : Command → Prop
  | .aging => state.Calm
  | _ => True

instance (state : SchedulerState) (command : Command) : Decidable (state.Settled command) :=
  match command with
  | .aging => inferInstanceAs (Decidable state.Calm)
  | .construct _ _ | .readyToRun _ | .findNextToRun | .run _ | .sleep _ _ | .advance _ =>
      .isTrue trivial

/-- A calm aging is one after which no thread is to leave its list, by cases on the list. -/
theorem calm_iff (queued : state.Queued)
    : state.Calm
      ↔ ∀ level, ∀ t ∈ state.readyList.list level,
          (state.agedOn state.readyList.threads).moves level t = false := by
  have aged {level : Level} {t : ThreadId} (member : t ∈ state.readyList.list level)
      : (state.agedOn state.readyList.threads).level t = getQueueLevel (state.agedPriority t) :=
    have inQueue := MultilevelThreadQueue.mem_threads_of_list member
    level_agedOn inQueue (queued.ready t inQueue)
  constructor
  · rintro ⟨second, third⟩ level t member
    rw [moves, aged member, decide_eq_false_iff_not]
    cases level with
    | lv1 => exact Nat.not_lt_zero _
    | lv2 =>
        have notFirst := second t member
        cases own : getQueueLevel (state.agedPriority t) <;> simp_all [Level.toNat]
    | lv3 =>
        rw [third t member]
        exact Nat.lt_irrefl _
  · intro stay
    refine ⟨fun t member first => ?_, fun t member => ?_⟩
    · have stays := stay .lv2 t member
      rw [moves, @aged .lv2 t member, first] at stays
      cases stays
    · have stays := stay .lv3 t member
      rw [moves, @aged .lv3 t member] at stays
      cases own : getQueueLevel (state.agedPriority t) with
      | lv3 => rfl
      | lv1 | lv2 =>
          rw [own] at stays
          cases stays

/-- Promotion moves no thread when none is to leave the list. -/
theorem promoted_of_not_moves {level : Level} {queue : MultilevelThreadQueue}
    (stay : ∀ t ∈ queue.list level, state.moves level t = false)
    : state.promoted level queue = queue := by
  have none : (queue.list level).filter (state.moves level) = [] :=
    List.filter_eq_nil_iff.mpr (fun t member => by simp [stay t member])
  have all : (queue.list level).filter (fun t => !state.moves level t) = queue.list level :=
    List.filter_eq_self.mpr (fun t member => by simp [stay t member])
  rw [promoted, none, all, List.foldl_nil, MultilevelThreadQueue.setList_list]

/-- Where no thread changes its level aging only raises priorities. -/
theorem Queued.agedState_of_calm (queued : state.Queued) (calm : state.Calm)
    : state.agedState = state.agedOn state.readyList.threads := by
  have stay := (calm_iff queued).mp calm
  have same : state.agedQueue = state.readyList := by
    rw [agedQueue, promoted_of_not_moves (stay .lv3), promoted_of_not_moves (stay .lv2)]
  rw [agedState, same]
  rfl

/-- A thread that has just become ready has waited for no aging period, by cases on the status from
which it came.
-/
theorem agedPriority_of_setStatus {totalTicks : Int} {thread changed : Thread}
    (set : thread.setStatus totalTicks .ready = .ok changed)
    : changed.orderManager.agedPriority totalTicks = changed.getPriority := by
  have fresh : changed.orderManager.tickCache = totalTicks := by
    unfold Thread.setStatus at set
    dsimp only at set
    split at set <;> cases set <;> rfl
  have none : changed.orderManager.age totalTicks = 0 := by
    rw [ThreadStateController.age, fresh, Int.sub_self, Int.zero_tdiv]
  rw [ThreadStateController.agedPriority, if_neg (not_not.mpr none), Thread.getPriority]

theorem mem_list_enqueue {queue : MultilevelThreadQueue} {level : Level} {t other : ThreadId}
    : other ∈ (state.enqueue queue t).list level
      ↔ other ∈ queue.list level ∨ other = t ∧ state.level t = level := by
  rw [enqueue]
  cases state.level t <;> cases level <;>
    simp [MultilevelThreadQueue.list, List.mem_orderedInsert, or_comm]

/-- A thread that becomes ready neither disturbs nor calms an aging at that moment: it would stay
in the list that it enters.
-/
theorem Queued.calm_of_readyToRun {after : SchedulerState} {t : ThreadId} (queued : state.Queued)
    (returned : state.readyToRun t = .ok after)
    : after.Calm ↔ state.Calm := by
  obtain ⟨middle, set, _⟩ := of_bind_ok returned
  obtain ⟨thread, changed, found, changes, _⟩ := setStatus_eq_ok set
  obtain ⟨again, setAgain, _, notQueued, done⟩ :=
    readyToRun_eq queued found (status_of_setStatus_ready changes)
  obtain rfl := Except.ok.inj (returned.symm.trans done)
  have own : getQueueLevel ((state.put t again).agedPriority t) = (state.put t again).level t := by
    rw [level, agedPriority, priority, threads_put_self]
    exact congrArg getQueueLevel (agedPriority_of_setStatus setAgain)
  have stays (level : Level) (property : Level → Prop) (holds : property level)
      : (∀ other ∈ ((state.put t again).enqueue state.readyList t).list level,
          property (getQueueLevel ((state.put t again).agedPriority other)))
        ↔ ∀ other ∈ state.readyList.list level,
            property (getQueueLevel (state.agedPriority other)) := by
    have kept {other : ThreadId} (member : other ∈ state.readyList.list level)
        : (state.put t again).agedPriority other = state.agedPriority other := by
      have apart : other ≠ t := fun same =>
        notQueued (same ▸ MultilevelThreadQueue.mem_threads_of_list member)
      rw [agedPriority, threads_put_of_ne apart]
      rfl
    constructor
    · intro all other member
      rw [← kept member]
      exact all other (mem_list_enqueue.mpr (.inl member))
    · intro all other member
      rcases mem_list_enqueue.mp member with inside | ⟨rfl, same⟩
      · rw [kept inside]
        exact all other inside
      · rw [own, same]
        exact holds
  exact and_congr (stays .lv2 (· ≠ .lv1) (by decide)) (stays .lv3 (· = .lv3) rfl)

end SchedulerState

namespace LinkedQueue

variable {allocator : Allocator ThreadId} {fuel : Nat} {linked next : LinkedQueue}
  {queue : MultilevelThreadQueue} {cells : Level → List (Address × ThreadId)} {level : Level}
  {state after : SchedulerState} {t : ThreadId}

-----------------------------------------------------------------------------------------
-- Three lists in one heap
-----------------------------------------------------------------------------------------

/-- Each list is made of elements of its own, and they hold the threads of a queue. -/
structure Strung (linked : LinkedQueue) (queue : MultilevelThreadQueue)
    (cells : Level → List (Address × ThreadId))
    : Prop where
  owns : ∀ level, (linked.lists level).Owns linked.store (cells level)
  items : ∀ level, (cells level).map Prod.snd = queue.list level
  apart
    : ∀ level other, level ≠ other
      → ∀ cell ∈ cells level, cell.1 ∉ (cells other).map Prod.fst

/-- The lists hold the queue of a scheduler with the same threads. -/
structure Represents (linked : LinkedQueue) (state : SchedulerState) : Prop where
  strung : ∃ cells, linked.Strung state.readyList cells
  same : linked.holding state.readyList = state

/-- An operation on one list that spares the elements of all others keeps the lists apart, if the
elements that it makes were not in use.
-/
theorem Strung.update (strung : linked.Strung queue cells) {longer : Header}
    {store : Store ThreadId} {touched others : List (Address × ThreadId)}
    (owned : longer.Owns store others) (spares : linked.store.Spares store touched)
    (made : ∀ cell ∈ touched, cell ∈ cells level ∨ linked.store.elements cell.1 = none)
    (within : others ⊆ touched)
    : Strung
        { linked with store, lists := Function.update linked.lists level longer }
        (queue.setList level (others.map Prod.snd)) (Function.update cells level others) := by
  have exist {other : Level} {cell : Address × ThreadId} (member : cell ∈ cells other)
      : linked.store.elements cell.1 ≠ none := by
    obtain ⟨element, found, _⟩ := (strung.owns other).linked.exists_element member
    rw [found]
    exact Option.some_ne_none element
  have apart {other : Level} (differs : other ≠ level) {cell : Address × ThreadId}
      (member : cell ∈ touched)
      : cell.1 ∉ (cells other).map Prod.fst := by
    rcases made cell member with inside | unused
    · exact strung.apart level other differs.symm cell inside
    · intro used
      obtain ⟨own, there, same⟩ := List.mem_map.mp used
      exact exist there (same ▸ unused)
  refine ⟨fun other => ?_, fun other => ?_, fun one other differs cell member => ?_⟩
  · by_cases same : other = level
    · subst same
      simpa using owned
    · have kept := strung.owns other
      have linked' := kept.linked.spared spares (fun cell member used => by
        obtain ⟨own, there, address⟩ := List.mem_map.mp used
        exact apart same there (address ▸ List.mem_map_of_mem member))
      simpa [same] using ⟨linked', kept.distinct, kept.ended, kept.counted⟩
  · by_cases same : other = level
    · subst same
      simp
    · rw [Function.update_of_ne same, strung.items]
      cases level <;> cases other <;> first | rfl | exact absurd rfl same
  · by_cases same : one = level
    · subst same
      rw [Function.update_self] at member
      rw [Function.update_of_ne differs.symm]
      exact apart differs.symm (within member)
    · rw [Function.update_of_ne same] at member
      by_cases changed : other = level
      · subst changed
        rw [Function.update_self]
        intro used
        obtain ⟨own, there, address⟩ := List.mem_map.mp used
        exact apart same (within there) (address ▸ List.mem_map_of_mem member)
      · rw [Function.update_of_ne changed]
        exact strung.apart one other differs cell member

-----------------------------------------------------------------------------------------
-- Operations on the queue
-----------------------------------------------------------------------------------------

/-- The routine comes to a value and, on the queue that the lists hold, to a state. -/
def Reaches {α : Type} (linked : LinkedQueue) (routine : Routine Fault LinkedQueue α)
    (value : α) (after : SchedulerState)
    : Prop :=
  ∃ next, routine.run linked = (.ok value, next) ∧ next.Represents after

theorem Represents.threads (represents : linked.Represents state)
    : linked.threads = state.threads :=
  congrArg SchedulerState.threads represents.same

theorem Represents.totalTicks (represents : linked.Represents state)
    : linked.totalTicks = state.totalTicks :=
  congrArg SchedulerState.totalTicks represents.same

/-- A change of the threads and the clock is none of the lists. -/
theorem Represents.of_strung (strung : linked.Strung after.readyList cells)
    (threads : linked.threads = after.threads) (totalTicks : linked.totalTicks = after.totalTicks)
    : linked.Represents after := by
  refine ⟨⟨cells, strung⟩, ?_⟩
  rw [holding, threads, totalTicks]

theorem Represents.listed (represents : linked.Represents state) (queued : state.Queued)
    : linked.Listed state.readyList := by
  obtain ⟨cells, strung⟩ := represents.strung
  exact ⟨fun level => strung.items level ▸ (strung.owns level).holds, represents.same ▸ queued⟩

/-- A list is empty when it holds no thread. -/
theorem Represents.isEmpty_list (represents : linked.Represents state) (level : Level)
    : (linked.lists level).isEmpty = (state.readyList.list level).isEmpty := by
  obtain ⟨cells, strung⟩ := represents.strung
  rw [Bool.eq_iff_iff, (strung.owns level).isEmpty_iff, List.isEmpty_iff, ← strung.items,
    List.map_eq_nil_iff]

theorem Represents.isEmpty (represents : linked.Represents state)
    : linked.isEmpty = state.readyList.isEmpty := by
  rw [LinkedQueue.isEmpty, represents.isEmpty_list, represents.isEmpty_list,
    represents.isEmpty_list]
  rfl

/-- `Insert` into one list. -/
theorem Strung.insert {compare : ThreadId → ThreadId → Except Fault Int}
    {order : ThreadId → ThreadId → Int} (strung : linked.Strung queue cells)
    (allocator : Allocator ThreadId)
    (compared : ∀ cell ∈ cells level, compare t cell.2 = .ok (order t cell.2))
    (absent : t ∉ (cells level).map Prod.snd) (enough : (cells level).length + 1 < fuel)
    : ∃ longer store,
        (LinkedList.insert allocator fuel t compare (linked.lists level)).run linked.store
          = (.ok longer, store)
        ∧ Strung
          { linked with store, lists := Function.update linked.lists level longer }
          (queue.setList level ((queue.list level).orderedInsert (order · · < 0) t))
          (Function.update cells level
            ((cells level).orderedInsert (fun left right => order left.2 right.2 < 0)
              (allocator.place linked.store, t)))
        ∧ linked.store.Spares store ((allocator.place linked.store, t) :: cells level) := by
  obtain ⟨longer, store, ran, owned, spares⟩ :=
    run_insert (strung.owns level) allocator compared absent enough
  refine ⟨longer, store, ran, ?_, spares⟩
  rw [← strung.items, ← map_orderedInsert order (allocator.place linked.store, t)]
  refine strung.update owned spares (fun cell member => ?_) (fun cell member => ?_)
  · rcases List.mem_cons.mp member with rfl | inside
    · exact .inr (allocator.unused linked.store)
    · exact .inl inside
  · exact List.mem_cons.mpr ((List.mem_orderedInsert _).mp member)

/-- A thread enters the list of its level, by cases on the level. -/
theorem Represents.append (represents : linked.Represents state)
    (isReady : state.statusOf t = some .ready)
    (ready : ∀ other ∈ state.readyList.threads, state.statusOf other = some .ready)
    (notQueued : t ∉ state.readyList.threads)
    (enough : state.readyList.threads.length + 1 < fuel)
    : linked.Reaches (append allocator fuel t) ()
        { state with readyList := state.enqueue state.readyList t } := by
  obtain ⟨cells, strung⟩ := represents.strung
  obtain ⟨thread, found, _⟩ := SchedulerState.exists_of_statusOf isReady
  have looked : linked.scheduler.lookup t = .ok thread := by
    rw [← represents.threads] at found
    exact SchedulerState.lookup_of_some found
  have own : state.level t = getQueueLevel thread.getPriority := by
    simp [SchedulerState.level, SchedulerState.priority, found]
  have absent (level : Level) : t ∉ (cells level).map Prod.snd := by
    rw [strung.items]
    exact fun member => notQueued (MultilevelThreadQueue.mem_threads_of_list member)
  have short (level : Level) : (cells level).length + 1 < fuel := by
    have same := congrArg List.length (strung.items level)
    rw [List.length_map] at same
    have few := state.readyList.length_list_le level
    omega
  have comparable {level : Level} {cell : Address × ThreadId} (member : cell ∈ cells level)
      : ∃ left right,
          linked.threads t = some left
          ∧ linked.threads cell.2 = some right
          ∧ Thread.Comparable left right := by
    rw [represents.threads]
    have inList : cell.2 ∈ state.readyList.list level :=
      strung.items level ▸ List.mem_map_of_mem member
    exact SchedulerState.comparable_of_ready isReady
      (ready cell.2 (MultilevelThreadQueue.mem_threads_of_list inList))
  rw [Reaches, LinkedQueue.append, run_bind_ok (run_get _), looked, run_bind_ok (run_lift _ _),
    SchedulerState.enqueue, own]
  cases getQueueLevel thread.getPriority with
  | lv1 =>
      have compared (cell : Address × ThreadId) (member : cell ∈ cells .lv1)
          : linked.scheduler.compareTime t cell.2 = .ok (state.timeOrder t cell.2) := by
        obtain ⟨_, _, left, right, may⟩ := comparable member
        rw [← represents.same]
        exact SchedulerState.compareTime_eq left right may
      obtain ⟨longer, store, ran, placed, _⟩ :=
        strung.insert allocator compared (absent .lv1) (short .lv1)
      exact ⟨_, (run_bind_ok (run_onStore_of ran) _).trans rfl,
        .of_strung placed represents.threads represents.totalTicks⟩
  | lv2 =>
      have compared (cell : Address × ThreadId) (member : cell ∈ cells .lv2)
          : linked.scheduler.comparePriority t cell.2 = .ok (state.priorityOrder t cell.2) := by
        obtain ⟨_, _, left, right, may⟩ := comparable member
        rw [← represents.same]
        exact SchedulerState.comparePriority_eq left right may
      obtain ⟨longer, store, ran, placed, _⟩ :=
        strung.insert allocator compared (absent .lv2) (short .lv2)
      exact ⟨_, (run_bind_ok (run_onStore_of ran) _).trans rfl,
        .of_strung placed represents.threads represents.totalTicks⟩
  | lv3 =>
      obtain ⟨longer, store, ran, owned, spares⟩ :=
        LinkedList.run_append (strung.owns .lv3) allocator (absent .lv3) (short .lv3)
      refine ⟨_, (run_bind_ok (run_onStore_of ran) _).trans rfl, ?_⟩
      have made (cell : Address × ThreadId)
          (member : cell ∈ (allocator.place linked.store, t) :: cells .lv3)
          : cell ∈ cells .lv3 ∨ linked.store.elements cell.1 = none := by
        rcases List.mem_cons.mp member with rfl | inside
        · exact .inr (allocator.unused linked.store)
        · exact .inl inside
      have placed := strung.update owned spares made
        (List.append_subset.mpr ⟨List.subset_cons_self .., by simp⟩)
      rw [List.map_append, strung.items] at placed
      exact .of_strung placed represents.threads represents.totalTicks

/-- The front of one list leaves it. -/
theorem Strung.removeFrontOf (strung : linked.Strung queue cells) {rest : List ThreadId}
    (first : queue.list level = t :: rest)
    : ∃ next others,
        (removeFrontOf level).run linked = (.ok t, next)
        ∧ next.Strung (queue.setList level rest) others
        ∧ next.threads = linked.threads
        ∧ next.totalTicks = linked.totalTicks := by
  have items := strung.items level
  rw [first] at items
  obtain ⟨front, others, own, rfl, rfl⟩ := List.map_eq_cons_iff.mp items
  have owns := strung.owns level
  rw [own] at owns
  obtain ⟨shorter, store, ran, owned, spares⟩ := run_removeFront owns
  have fewer := strung.update owned spares
    (fun cell member => .inl (own ▸ member)) (List.subset_cons_self ..)
  refine ⟨_, _, ?_, fewer, rfl, rfl⟩
  rw [LinkedQueue.removeFrontOf, run_bind_ok (run_get _), run_bind_ok (run_onStore_of ran)]
  rfl

/-- The front of the first list that is not empty leaves the queue. -/
theorem Represents.removeFront (represents : linked.Represents state)
    {readyList : MultilevelThreadQueue}
    (removed : state.readyList.removeFront = .ok (t, readyList))
    : linked.Reaches removeFront t { state with readyList } := by
  obtain ⟨cells, strung⟩ := represents.strung
  have taken (level : Level) {rest : List ThreadId}
      (first : state.readyList.list level = t :: rest)
      : linked.Reaches (removeFrontOf level) t
          { state with readyList := state.readyList.setList level rest } := by
    obtain ⟨next, others, ran, fewer, threads, totalTicks⟩ := strung.removeFrontOf first
    exact ⟨next, ran, .of_strung fewer (threads.trans represents.threads)
      (totalTicks.trans represents.totalTicks)⟩
  have first := represents.isEmpty_list .lv1
  have second := represents.isEmpty_list .lv2
  rw [MultilevelThreadQueue.removeFront] at removed
  rw [Reaches, LinkedQueue.removeFront, run_bind_ok (run_get _), first, second]
  split at removed
  · rename_i lists
    obtain ⟨rfl, rfl⟩ := Prod.mk.inj (Except.ok.inj removed)
    have filled : state.readyList.list .lv1 = _ := lists
    rw [filled, if_pos List.isEmpty_cons]
    exact taken .lv1 filled
  · rename_i none lists
    obtain ⟨rfl, rfl⟩ := Prod.mk.inj (Except.ok.inj removed)
    have empty : state.readyList.list .lv1 = [] := none
    have filled : state.readyList.list .lv2 = _ := lists
    rw [empty, filled, if_neg (by decide), if_pos List.isEmpty_cons]
    exact taken .lv2 filled
  · rename_i none nor lists
    obtain ⟨rfl, rfl⟩ := Prod.mk.inj (Except.ok.inj removed)
    have empty : state.readyList.list .lv1 = [] := none
    have void : state.readyList.list .lv2 = [] := nor
    rw [empty, void, if_neg (by decide), if_neg (by decide)]
    exact taken .lv3 lists
  · cases removed

/-- `FindNextToRun`, by cases on whether a thread is queued. -/
theorem Represents.findNextToRun (represents : linked.Represents state)
    {found : Option ThreadId} (returned : state.findNextToRun = .ok (found, after))
    : linked.Reaches findNextToRun found after := by
  rw [Reaches, LinkedQueue.findNextToRun, run_bind_ok (run_get _), represents.isEmpty]
  rw [SchedulerState.findNextToRun] at returned
  split at returned
  · rename_i empty
    obtain ⟨rfl, rfl⟩ := Prod.mk.inj (Except.ok.inj returned)
    rw [if_pos empty]
    exact ⟨linked, rfl, represents⟩
  · rename_i filled
    cases removed : state.readyList.removeFront with
    | error fault =>
        rw [removed] at returned
        cases returned
    | ok pair =>
        rw [removed] at returned
        obtain ⟨rfl, rfl⟩ := Prod.mk.inj (Except.ok.inj returned)
        obtain ⟨next, ran, same⟩ := represents.removeFront removed
        refine ⟨next, ?_, same⟩
        rw [if_neg filled, run_bind_ok ran, run_pure]

/-- A change of status is one of the thread table, which the cells share with the lists. -/
theorem Represents.setStatus (represents : linked.Represents state) {st : ThreadStatus}
    (set : state.setStatus t st = .ok after)
    : linked.Reaches (setStatus t st) () after := by
  obtain ⟨cells, strung⟩ := represents.strung
  obtain ⟨thread, changed, found, changes, rfl⟩ := SchedulerState.setStatus_eq_ok set
  have there : linked.scheduler.threads t = some thread := by
    rw [← represents.threads] at found
    exact found
  have goes : thread.setStatus linked.scheduler.totalTicks st = .ok changed := by
    rw [← represents.totalTicks] at changes
    exact changes
  refine ⟨{ linked with threads := (linked.scheduler.put t changed).threads }, ?_, ?_⟩
  · rw [LinkedQueue.setStatus, run_bind_ok (run_get _), SchedulerState.setStatus_of there goes,
      run_bind_ok (run_lift _ _)]
    rfl
  · have put : (linked.scheduler.put t changed).threads = (state.put t changed).threads := by
      simp only [SchedulerState.put, ← represents.threads]
      rfl
    exact .of_strung ⟨strung.owns, strung.items, strung.apart⟩ put represents.totalTicks

/-- A thread becomes ready and enters the list of its level. -/
theorem Represents.readyToRun (represents : linked.Represents state) (queued : state.Queued)
    (readied : state.readyToRun t = .ok after)
    (enough : state.readyList.threads.length + 1 < fuel)
    : linked.Reaches (readyToRun allocator fuel t) () after := by
  cases set : state.setStatus t .ready with
  | error fault =>
      rw [SchedulerState.readyToRun, set] at readied
      cases readied
  | ok middle =>
      obtain ⟨thread, changed, found, changes, rfl⟩ := SchedulerState.setStatus_eq_ok set
      obtain ⟨again, setAgain, isReady, notQueued, done⟩ :=
        SchedulerState.readyToRun_eq queued found (SchedulerState.status_of_setStatus_ready changes)
      obtain rfl := Except.ok.inj (changes.symm.trans setAgain)
      obtain rfl := Except.ok.inj (readied.symm.trans done)
      obtain ⟨between, ran, still⟩ := represents.setStatus set
      have own : (state.put t changed).statusOf t = some .ready := by
        rw [SchedulerState.statusOf_put_self, isReady]
      have others (other : ThreadId) (member : other ∈ (state.put t changed).readyList.threads)
          : (state.put t changed).statusOf other = some .ready := by
        have apart : other ≠ t := fun same => notQueued (same ▸ member)
        rw [SchedulerState.statusOf_put_of_ne apart]
        exact queued.ready other member
      obtain ⟨last, entered, represented⟩ :=
        @Represents.append allocator fuel _ _ _ still own others notQueued enough
      refine ⟨last, ?_, represented⟩
      rw [LinkedQueue.readyToRun, run_bind_ok ran, entered]

theorem Represents.agedOn (represents : linked.Represents state) (items : List ThreadId)
    : (linked.agedOn items).Represents (state.agedOn items) := by
  obtain ⟨cells, strung⟩ := represents.strung
  refine .of_strung ⟨strung.owns, strung.items, strung.apart⟩ ?_ represents.totalTicks
  rw [← represents.same]
  rfl

theorem Represents.rises_iff_moves (represents : linked.Represents state)
    : linked.Rises level t ↔ state.moves level t = true := by
  have same : linked.scheduler.level t = state.level t := by
    rw [← represents.same]
    rfl
  rw [Rises, same, SchedulerState.moves, decide_eq_true_iff]

/-- A calm aging ages the threads and leaves the lists alone. -/
theorem Represents.aging (represents : linked.Represents state) (queued : state.Queued)
    (calm : state.Calm) (enough : state.readyList.threads.length < fuel)
    : linked.Reaches (aging allocator fuel) () state.agedState := by
  have aged := represents.agedOn state.readyList.threads
  have stay := (SchedulerState.calm_iff queued).mp calm
  refine ⟨_, (represents.listed queued).run_aging (fun level t member => ?_) enough, ?_⟩
  · rw [aged.rises_iff_moves, stay level t member]
    exact Bool.false_ne_true
  · rw [queued.agedState_of_calm calm]
    exact aged

/-- Where the address of a deleted element is not used again, only a calm aging returns. -/
theorem Represents.calm_of_aging (represents : linked.Represents state) (queued : state.Queued)
    (returned : (LinkedQueue.aging .fresh fuel).run linked = (.ok (), next))
    : state.Calm := by
  refine (SchedulerState.calm_iff queued).mpr (fun level t member => ?_)
  have stays := (represents.listed queued).not_rises_of_aging returned level t member
  rw [(represents.agedOn _).rises_iff_moves] at stays
  exact Bool.eq_false_of_not_eq_true stays

/-- The front of a list is the item of its first element. -/
theorem Strung.read_front (strung : linked.Strung queue cells) {rest : List ThreadId}
    (first : queue.list level = t :: rest)
    : ∃ element,
        (onStore (LinkedList.read (linked.lists level).first)).run linked = (.ok element, linked)
        ∧ element.item = t := by
  have items := strung.items level
  rw [first] at items
  obtain ⟨front, others, own, rfl, rfl⟩ := List.map_eq_cons_iff.mp items
  have linked' := (strung.owns level).linked
  rw [own] at linked'
  obtain ⟨pointer, element, found, holds, _⟩ := linked'.of_cons
  exact ⟨element, run_onStore (pointer ▸ run_read found), holds⟩

/-- The check for preemption only reads, by cases on the level of the running thread. -/
theorem Represents.shouldPreempt (represents : linked.Represents state) {preempt : Bool}
    (decided : state.shouldPreempt t = .ok preempt)
    : (shouldPreempt t).run linked = (.ok preempt, linked) := by
  obtain ⟨cells, strung⟩ := represents.strung
  have looked : linked.scheduler.lookup t = state.lookup t := by
    rw [SchedulerState.lookup, SchedulerState.lookup, ← represents.threads]
    rfl
  rw [SchedulerState.shouldPreempt] at decided
  rw [LinkedQueue.shouldPreempt, run_bind_ok (run_get _), looked]
  cases found : state.lookup t with
  | error fault =>
      rw [found] at decided
      cases decided
  | ok thread =>
      rw [found] at decided
      rw [run_bind_ok (run_lift _ _), represents.isEmpty_list]
      simp only [Bind.bind, Except.bind, pure, Except.pure] at decided
      by_cases third : getQueueLevel thread.getPriority = .lv3
      · rw [if_pos third] at decided ⊢
        rw [← decided]
        rfl
      · rw [if_neg third] at decided ⊢
        cases queue : state.readyList.l1 with
        | nil =>
            rw [queue] at decided
            have empty : state.readyList.list .lv1 = [] := queue
            rw [empty, if_pos List.isEmpty_nil, ← decided]
            rfl
        | cons front rest =>
            rw [queue] at decided
            have filled : state.readyList.list .lv1 = front :: rest := queue
            rw [filled, if_neg (by simp)]
            by_cases second : getQueueLevel thread.getPriority = .lv2
            · rw [if_pos second, ← decided]
              simp only [second, if_true]
              rfl
            · simp only [second, if_false] at decided
              rw [if_neg second]
              obtain ⟨element, ran, same⟩ := strung.read_front filled
              have compared : linked.scheduler.compareTime t element.item
                  = state.compareTime t front := by
                rw [same, ← represents.same]
                rfl
              rw [run_bind_ok ran, compared]
              cases order : state.compareTime t front with
              | error fault =>
                  rw [order] at decided
                  cases decided
              | ok order' =>
                  rw [order] at decided
                  rw [run_bind_ok (run_lift _ _), ← decided]
                  rfl

/-- The timer's handler, when the aging is calm. -/
theorem Represents.callBack (represents : linked.Represents state) (queued : state.Queued)
    (calm : state.Calm) {idle preempt : Bool} (called : state.callBack idle t = .ok (preempt, after))
    (enough : state.readyList.threads.length < fuel)
    : linked.Reaches (callBack allocator fuel idle t) preempt after := by
  obtain ⟨next, ran, represented⟩ := @Represents.aging allocator fuel _ _ represents queued calm
    enough
  rw [SchedulerState.callBack, SchedulerState.aging_eq queued] at called
  simp only [Bind.bind, Except.bind] at called
  rw [Reaches, LinkedQueue.callBack, run_bind_ok ran]
  cases idle with
  | true =>
      obtain ⟨rfl, rfl⟩ := Prod.mk.inj (Except.ok.inj called)
      exact ⟨next, rfl, represented⟩
  | false =>
      simp only [Bool.false_eq_true, if_false] at called ⊢
      cases decided : state.agedState.shouldPreempt t with
      | error fault =>
          rw [decided] at called
          cases called
      | ok preempt' =>
          rw [decided] at called
          obtain ⟨rfl, rfl⟩ := Prod.mk.inj (Except.ok.inj called)
          exact ⟨next, represented.shouldPreempt decided, represented⟩

-----------------------------------------------------------------------------------------
-- Commands
-----------------------------------------------------------------------------------------

/-- Before any thread is made. -/
def initial : LinkedQueue :=
  {
    threads := fun _ => none
    totalTicks := 0
    store := .empty
    lists := fun _ => { first := none, last := none, numInList := 0 }
  }

def perform (allocator : Allocator ThreadId) (fuel : Nat)
    : Command → Routine Fault LinkedQueue Unit
  | .construct t initPriority => do
      let state ← get
      let constructed := state.scheduler.put t (.new initPriority state.totalTicks)
      set { state with threads := constructed.threads }
  | .readyToRun t => readyToRun allocator fuel t
  | .findNextToRun => do
      let _ ← findNextToRun
      return ()
  | .run t => setStatus t .running
  | .sleep t finishing => setStatus t (if finishing then .terminated else .waiting)
  | .aging => aging allocator fuel
  | .advance ticks => do
      let state ← get
      set { state with totalTicks := state.totalTicks + ticks }

/-- A step by a command that returns; the loops have fuel for all threads, and `new` chooses any
free addresses. The condition is one on what the lists hold before.
-/
def Step (condition : SchedulerState → Command → Prop) (linked : LinkedQueue)
    (command : Command) (next : LinkedQueue)
    : Prop :=
  ∃ allocator fuel state,
    linked.Represents state
    ∧ state.Legal command
    ∧ condition state command
    ∧ state.readyList.threads.length + 1 < fuel
    ∧ (perform allocator fuel command).run linked = (.ok (), next)

theorem represents_initial : initial.Represents .initial := by
  refine ⟨⟨fun _ => [], fun level => ⟨.stop, List.nodup_nil, rfl, rfl⟩, fun level => ?_,
    fun _ _ _ _ member => absurd member List.not_mem_nil⟩, rfl⟩
  cases level <;> rfl

/-- A command does on the lists what it does on the queue that they hold, by cases on it. -/
theorem Represents.perform (represents : linked.Represents state) (queued : state.Queued)
    {command : Command} (calm : command = .aging → state.Calm)
    (performed : state.perform command = .ok after)
    (enough : state.readyList.threads.length + 1 < fuel)
    : linked.Reaches (perform allocator fuel command) () after := by
  obtain ⟨cells, strung⟩ := represents.strung
  cases command with
  | construct t initPriority =>
      obtain rfl := Except.ok.inj performed
      have put : (linked.scheduler.put t (.new initPriority linked.totalTicks)).threads
          = (state.put t (.new initPriority state.totalTicks)).threads := by
        rw [← represents.same]
        rfl
      exact ⟨_, rfl, .of_strung ⟨strung.owns, strung.items, strung.apart⟩ put represents.totalTicks⟩
  | readyToRun t => exact represents.readyToRun queued performed enough
  | findNextToRun =>
      cases found : state.findNextToRun with
      | error fault =>
          rw [SchedulerState.perform, found] at performed
          cases performed
      | ok pair =>
          rw [SchedulerState.perform, found] at performed
          obtain rfl := Except.ok.inj performed
          obtain ⟨next, ran, represented⟩ := represents.findNextToRun found
          exact ⟨next, run_bind_ok ran _, represented⟩
  | run t => exact represents.setStatus performed
  | sleep t finishing => exact represents.setStatus performed
  | aging =>
      rw [SchedulerState.perform, SchedulerState.aging_eq queued] at performed
      obtain rfl := Except.ok.inj performed
      exact represents.aging queued (calm rfl) (Nat.lt_of_succ_lt enough)
  | advance ticks =>
      obtain rfl := Except.ok.inj performed
      have clock : linked.totalTicks + ticks = state.totalTicks + ticks := by
        rw [represents.totalTicks]
      exact ⟨_, rfl, .of_strung ⟨strung.owns, strung.items, strung.apart⟩ represents.threads clock⟩

-----------------------------------------------------------------------------------------
-- Runs
-----------------------------------------------------------------------------------------

/-- Lists hold one queue only, since the links determine the items. -/
theorem Represents.unique {other : SchedulerState} (represents : linked.Represents state)
    (others : linked.Represents other)
    : state = other := by
  obtain ⟨cells, strung⟩ := represents.strung
  obtain ⟨cells', strung'⟩ := others.strung
  have same (level : Level) : state.readyList.list level = other.readyList.list level := by
    rw [← strung.items, ← strung'.items]
    exact (strung.owns level).linked.path.unique (strung'.owns level).linked.path
  rw [← represents.same, ← others.same, MultilevelThreadQueue.eq_of_list same]

/-- A status that was set on the lists' threads can be set on the scheduler's. -/
theorem Represents.setStatus_returns (represents : linked.Represents state) {st : ThreadStatus}
    (ran : (LinkedQueue.setStatus t st).run linked = (.ok (), next))
    : ∃ middle, state.setStatus t st = .ok middle := by
  rw [LinkedQueue.setStatus, run_bind_ok (run_get _)] at ran
  obtain ⟨changed, set, _⟩ := of_run_bind_ok_reading (fun _ => keeps_lift _) ran
  obtain ⟨thread, changed', found, changes, _⟩ :=
    SchedulerState.setStatus_eq_ok (Prod.mk.inj set).1
  have there : state.threads t = some thread := represents.threads ▸ found
  have goes : thread.setStatus state.totalTicks st = .ok changed' := by
    rw [← represents.totalTicks]
    exact changes
  exact ⟨_, SchedulerState.setStatus_of there goes⟩

/-- A command that returns on the lists returns on the queue that they hold: only a change of a
status can fail there.
-/
theorem Represents.perform_returns (represents : linked.Represents state) (queued : state.Queued)
    {command : Command}
    (ran : (LinkedQueue.perform allocator fuel command).run linked = (.ok (), next))
    : ∃ after, state.perform command = .ok after := by
  cases command with
  | construct t initPriority => exact ⟨_, rfl⟩
  | readyToRun t =>
      obtain ⟨_, _, set, _⟩ := of_run_bind_ok ran
      obtain ⟨middle, set⟩ := represents.setStatus_returns set
      obtain ⟨thread, changed, found, changes, _⟩ := SchedulerState.setStatus_eq_ok set
      obtain ⟨again, _, _, _, done⟩ :=
        SchedulerState.readyToRun_eq queued found (SchedulerState.status_of_setStatus_ready changes)
      exact ⟨_, done⟩
  | findNextToRun =>
      rcases SchedulerState.findNextToRun_eq state with ⟨_, found⟩ | ⟨_, _, _, _, found⟩ <;>
        exact ⟨_, by rw [SchedulerState.perform, found]; rfl⟩
  | run t => exact represents.setStatus_returns ran
  | sleep t finishing => exact represents.setStatus_returns ran
  | aging => exact ⟨_, SchedulerState.aging_eq queued⟩
  | advance ticks => exact ⟨_, rfl⟩

variable {condition : SchedulerState → Command → Prop}

/-- A step over the lists is one over the queue that they hold. -/
theorem Represents.of_step (represents : linked.Represents state) (queued : state.Queued)
    (calms : ∀ state, condition state .aging → state.Calm) {command : Command}
    (step : Step condition linked command next)
    : ∃ after, SchedulerState.Step condition state command after ∧ next.Represents after := by
  obtain ⟨allocator, fuel, own, represented, legal, allowed, enough, ran⟩ := step
  obtain rfl := represents.unique represented
  obtain ⟨after, performed⟩ := represents.perform_returns queued ran
  obtain ⟨other, again, still⟩ := @Represents.perform allocator fuel _ _ _ represents queued command
    (fun aging => calms state (aging ▸ allowed)) performed enough
  obtain rfl := (Prod.mk.inj (again.symm.trans ran)).2
  exact ⟨after, ⟨legal, allowed, performed⟩, still⟩

/-- Every run over the lists in which agings are calm is one over sequences of threads, by
induction on the run.
-/
theorem represents_of_reachable (calms : ∀ state, condition state .aging → state.Calm)
    (reachable : Runs.Reachable (Step condition) initial linked)
    : ∃ state,
        linked.Represents state
        ∧ Runs.Reachable (SchedulerState.Step condition) .initial state := by
  refine @Runs.Reachable.invariant _ _ _ _ _
    (fun linked => ∃ state,
      linked.Represents state ∧ Runs.Reachable (SchedulerState.Step condition) .initial state)
    reachable ⟨_, represents_initial, .refl _⟩ ?_
  rintro before command after ⟨state, represents, reached⟩ step
  obtain ⟨queued, _⟩ := @SchedulerState.invariant_of_reachable _ _ (fun _ => True) reached trivial
    (fun _ _ _ _ _ _ _ => trivial)
  obtain ⟨next, moved, still⟩ := represents.of_step queued calms step
  exact ⟨next, still, reached.snoc moved⟩

/-- Every run over sequences of threads in which agings are calm is one over lists, by induction
on the run: `new` may take addresses that were never in use.
-/
theorem exists_represents (calms : ∀ state, condition state .aging → state.Calm)
    (reachable : Runs.Reachable (SchedulerState.Step condition) .initial state)
    : ∃ linked, Runs.Reachable (Step condition) initial linked ∧ linked.Represents state := by
  obtain ⟨labels, run⟩ := reachable
  induction run with
  | nil => exact ⟨initial, .refl _, represents_initial⟩
  | @snoc before after labels command run step ih =>
      obtain ⟨linked, reached, represents⟩ := ih
      obtain ⟨queued, _⟩ := @SchedulerState.invariant_of_reachable _ condition (fun _ => True)
        ⟨labels, run⟩ trivial (fun _ _ _ _ _ _ _ => trivial)
      obtain ⟨legal, allowed, performed⟩ := step
      have enough : before.readyList.threads.length + 1 < before.readyList.threads.length + 2 :=
        Nat.lt_succ_self _
      obtain ⟨next, ran, still⟩ := @Represents.perform .fresh _ _ _ _ represents queued command
        (fun aging => calms before (aging ▸ allowed)) performed enough
      exact ⟨next, reached.snoc ⟨_, _, before, represents, legal, allowed, enough, ran⟩, still⟩

/-- A run that meets a condition meets a weaker one. -/
theorem reachable_mono {weaker : SchedulerState → Command → Prop}
    (reachable : Runs.Reachable (Step condition) initial linked)
    (within : ∀ state command, condition state command → weaker state command)
    : Runs.Reachable (Step weaker) initial linked := by
  obtain ⟨trace, run⟩ := reachable
  refine ⟨trace, run.mono ?_⟩
  rintro before command next ⟨allocator, fuel, state, represents, legal, allowed, rest⟩
  exact ⟨allocator, fuel, state, represents, legal, within state command allowed, rest⟩

end LinkedQueue

end Nachos.Threads
