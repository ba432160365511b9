import Mathlib.Data.List.Induction
import Nachos.Threads.AgingCalls

/-! Burst times against the history of a thread. The running time of a burst is counted tick by
tick from the calls alone, and the controller's fields agree with it at every moment.
-/

namespace Nachos.Threads

namespace ControllerCall

/-- The status after a call. -/
def status (before : ThreadStatus) : ControllerCall → ThreadStatus
  | .setStatus st => st
  | .aging => before

/-- The transitions of a thread; it ages while it is ready. -/
def Legal (before : ThreadStatus) : ControllerCall → Prop
  | .setStatus .ready => before = .new ∨ before = .running ∨ before = .waiting
  | .setStatus .running | .aging => before = .ready
  | .setStatus .waiting | .setStatus .terminated => before = .running
  | .setStatus .new | .setStatus .zombie => False

end ControllerCall

namespace Thread

-----------------------------------------------------------------------------------------
-- Histories
-----------------------------------------------------------------------------------------

/-- The status of a new thread after calls. -/
def statusAfter (history : List (Int × ControllerCall)) : ThreadStatus :=
  history.foldl (fun before entry => entry.2.status before) .new

/-- The status in a tick: after all calls up to it. -/
def statusAt (history : List (Int × ControllerCall)) (tick : Int) : ThreadStatus :=
  statusAfter (history.filter (fun entry => entry.1 ≤ tick))

/-- The tick of the last transition to waiting, or of the creation. -/
def burstStart (created : Int) (history : List (Int × ControllerCall)) : Int :=
  history.foldl
    (fun start entry =>
      match entry.2 with
      | .setStatus .waiting => entry.1
      | _ => start)
    created

/-- The ticks from one on and before another. -/
def ticks (start stop : Int) : List Int :=
  (List.range (stop - start).toNat).map (fun (index : Nat) => start + index)

/-- The number of ticks before `now` in which the thread runs, since the burst began. -/
def ranTicks (created : Int) (history : List (Int × ControllerCall)) (now : Int) : Int :=
  (ticks (burstStart created history) now).countP (fun tick => statusAt history tick = .running)

def lastTick (created : Int) (history : List (Int × ControllerCall)) : Int :=
  (history.map Prod.fst).getLastD created

/-- Every call is legal after those before it. -/
def LegalFrom (before : ThreadStatus) : List (Int × ControllerCall) → Prop
  | [] => True
  | (_, call) :: rest => call.Legal before ∧ LegalFrom (call.status before) rest

variable {created tick now : Int} {history : List (Int × ControllerCall)}
  {call : ControllerCall}

theorem statusAfter_snoc
    : statusAfter (history ++ [(tick, call)]) = call.status (statusAfter history) := by
  rw [statusAfter, List.foldl_append]
  rfl

theorem lastTick_snoc : lastTick created (history ++ [(tick, call)]) = tick := by
  simp [lastTick]

/-- A call does not change the status in earlier ticks. -/
theorem statusAt_snoc_of_lt {earlier : Int} (before : earlier < tick)
    : statusAt (history ++ [(tick, call)]) earlier = statusAt history earlier := by
  simp [statusAt, List.filter_append, not_le.mpr before]

theorem statusAt_of_le (ended : ∀ entry ∈ history, entry.1 ≤ tick)
    : statusAt history tick = statusAfter history := by
  rw [statusAt, List.filter_eq_self.mpr (fun entry member => by simpa using ended entry member)]

/-- A burst has started when all its events are past, by induction on the history. -/
theorem burstStart_le (ended : ∀ entry ∈ history, entry.1 ≤ tick) (born : created ≤ tick)
    : burstStart created history ≤ tick := by
  induction history generalizing created with
  | nil => exact born
  | cons first rest ih =>
      have others := fun entry member => ended entry (List.mem_cons_of_mem first member)
      rw [burstStart, List.foldl_cons]
      split
      · exact ih others (ended first List.mem_cons_self)
      · exact ih others born

/-- The ticks of an interval are those from its start to before its end. -/
theorem mem_ticks {start stop tick : Int} : tick ∈ ticks start stop ↔ start ≤ tick ∧ tick < stop := by
  unfold ticks
  rw [List.mem_map]
  constructor
  · rintro ⟨index, inside, rfl⟩
    rw [List.mem_range] at inside
    omega
  · intro inside
    refine ⟨(tick - start).toNat, ?_, ?_⟩
    · rw [List.mem_range]
      omega
    · omega

theorem length_ticks (start stop : Int) : (ticks start stop).length = (stop - start).toNat := by
  rw [ticks, List.length_map, List.length_range]

/-- Two intervals that meet are one. -/
theorem ticks_append {start middle stop : Int} (first : start ≤ middle) (second : middle ≤ stop)
    : ticks start middle ++ ticks middle stop = ticks start stop := by
  have lengths : (stop - start).toNat = (middle - start).toNat + (stop - middle).toNat := by omega
  have shift : start + ((middle - start).toNat : Int) = middle := by omega
  unfold ticks
  rw [lengths, List.range_add, List.map_append, List.map_map]
  congr 1
  apply List.map_congr_left
  intro index _
  change middle + (index : Int) = start + (((middle - start).toNat + index : Nat) : Int)
  rw [Nat.cast_add, ← Int.add_assoc, shift]

/-- The ticks up to a call, and those since it if the thread runs then. -/
theorem ranTicks_snoc (ended : ∀ entry ∈ history, entry.1 ≤ tick) (born : created ≤ tick)
    (later : tick ≤ now) (same : call ≠ .setStatus .waiting)
    : ranTicks created (history ++ [(tick, call)]) now
      = ranTicks created history tick
        + if call.status (statusAfter history) = .running then now - tick else 0 := by
  have start : burstStart created (history ++ [(tick, call)]) = burstStart created history := by
    rw [burstStart, List.foldl_append]
    cases call with
    | aging => rfl
    | setStatus st =>
        cases st with
        | waiting => exact absurd rfl same
        | _ => rfl
  have before : ∀ earlier ∈ ticks (burstStart created history) tick,
      decide (statusAt (history ++ [(tick, call)]) earlier = .running) = true
        ↔ decide (statusAt history earlier = .running) = true := by
    intro earlier inside
    rw [statusAt_snoc_of_lt (mem_ticks.mp inside).2]
  have after : ∀ other ∈ ticks tick now,
      statusAt (history ++ [(tick, call)]) other = call.status (statusAfter history) := by
    intro other inside
    have reached := (mem_ticks.mp inside).1
    rw [statusAt_of_le, statusAfter_snoc]
    intro entry member
    rcases List.mem_append.mp member with old | new
    · exact (ended entry old).trans reached
    · rwa [List.mem_singleton.mp new]
  rw [ranTicks, start, ← ticks_append (burstStart_le ended born) later, List.countP_append,
    List.countP_congr before, ranTicks, Nat.cast_add]
  congr 1
  split
  · rename_i runs
    rw [List.countP_eq_length.mpr (fun other inside => by rw [after other inside, runs]; rfl),
      length_ticks]
    omega
  · rename_i idle
    rw [List.countP_eq_zero.mpr (fun other inside => by rw [after other inside]; simpa using idle)]
    rfl

/-- No tick counts right after the transition to waiting. -/
theorem ranTicks_snoc_waiting (ended : ∀ entry ∈ history, entry.1 ≤ tick)
    : ranTicks created (history ++ [(tick, .setStatus .waiting)]) now = 0 := by
  have start : burstStart created (history ++ [(tick, .setStatus .waiting)]) = tick := by
    rw [burstStart, List.foldl_append]
    rfl
  have idle : ∀ other ∈ ticks tick now,
      statusAt (history ++ [(tick, .setStatus .waiting)]) other ≠ .running := by
    intro other inside
    have reached := (mem_ticks.mp inside).1
    rw [statusAt_of_le, statusAfter_snoc]
    · exact nofun
    · intro entry member
      rcases List.mem_append.mp member with old | new
      · exact (ended entry old).trans reached
      · rwa [List.mem_singleton.mp new]
  rw [ranTicks, start,
    List.countP_eq_zero.mpr (fun other inside => by simpa using idle other inside)]
  rfl

-----------------------------------------------------------------------------------------
-- The controller
-----------------------------------------------------------------------------------------

/-- What the controller has counted of the burst by a tick. -/
def counted (now : Int) (thread : Thread) : ℚ :=
  thread.orderManager.currentBurstTime
    + if thread.status = .running then ((now - thread.orderManager.tickCache : Int) : ℚ) else 0

/-- The controller counts what the history says, from its last call on. -/
structure Accounted (created : Int) (history : List (Int × ControllerCall)) (thread : Thread)
    : Prop where
  status : thread.status = statusAfter history
  ran
    : ∀ now, lastTick created history ≤ now → thread.counted now = ranTicks created history now

/-- What remains is the estimate less what was counted, by cases on whether the thread runs. -/
theorem getRemainTime_eq (now : Int) (thread : Thread)
    : thread.getRemainTime now = thread.orderManager.remainBurstTime - thread.counted now := by
  unfold getRemainTime counted
  split
  · push_cast
    ring
  · rw [add_zero]

/-- A transition to waiting ends the burst. -/
theorem counted_waiting {thread : Thread} (running : thread.status = .running) (tick : Int)
    : ∃ after,
        thread.setStatus tick .waiting = .ok after
        ∧ after.status = .waiting
        ∧ after.orderManager.remainBurstTime
          = (thread.counted tick + thread.orderManager.remainBurstTime) / 2
        ∧ ∀ now, after.counted now = 0 := by
  refine ⟨_, if_pos running, rfl, ?_, fun now => ?_⟩
  · rw [counted, if_pos running]
    simp only [ThreadStateController.runToWait, ThreadStateController.leaveRun]
    ring
  · simp [counted, ThreadStateController.runToWait]

/-- Any other legal call goes on with the burst, by cases on it and on the status before. -/
theorem counted_handle {thread : Thread} (legal : call.Legal thread.status)
    (same : call ≠ .setStatus .waiting)
    : ∃ after,
        thread.handle tick call = .ok after
        ∧ after.status = call.status thread.status
        ∧ after.orderManager.remainBurstTime = thread.orderManager.remainBurstTime
        ∧ ∀ now,
            after.counted now
            = thread.counted tick
              + if call.status thread.status = .running then ((now - tick : Int) : ℚ) else 0 := by
  cases call with
  | aging =>
      have ready : thread.status = .ready := legal
      refine ⟨_, if_pos ready, rfl, ?_, fun now => ?_⟩
      · simp only [ThreadStateController.aged]
        split <;> rfl
      · simp only [counted, ControllerCall.status, ready, ThreadStateController.aged]
        split <;> simp
  | setStatus st =>
      cases st with
      | new | zombie => exact legal.elim
      | waiting => exact absurd rfl same
      | ready =>
          rcases legal with isNew | running | waiting
          · refine ⟨{ status := .ready, orderManager := thread.orderManager.newToReady tick },
              by simp only [handle, setStatus, isNew], rfl, rfl, fun now => ?_⟩
            simp [counted, ControllerCall.status, isNew, ThreadStateController.newToReady,
              ThreadStateController.toReady]
          · refine ⟨{ status := .ready, orderManager := thread.orderManager.runToReady tick },
              by simp only [handle, setStatus, running], rfl, rfl, fun now => ?_⟩
            simp [counted, ControllerCall.status, running, ThreadStateController.runToReady,
              ThreadStateController.leaveRun, ThreadStateController.toReady]
          · refine ⟨{ status := .ready, orderManager := thread.orderManager.waitToReady tick },
              by simp only [handle, setStatus, waiting], rfl, rfl, fun now => ?_⟩
            simp [counted, ControllerCall.status, waiting, ThreadStateController.waitToReady,
              ThreadStateController.toReady]
      | running =>
          have ready : thread.status = .ready := legal
          refine ⟨_, if_pos ready, rfl, rfl, fun now => ?_⟩
          simp [counted, ControllerCall.status, ready, ThreadStateController.readyToRun]
      | terminated =>
          have running : thread.status = .running := legal
          refine ⟨_, if_pos running, rfl, rfl, fun now => ?_⟩
          simp [counted, ControllerCall.status, running, ThreadStateController.runToTerminated,
            ThreadStateController.leaveRun]

-----------------------------------------------------------------------------------------
-- Runs
-----------------------------------------------------------------------------------------

/-- One more event at the end of a history, by induction on it. -/
theorem handleAll_snoc {thread before after : Thread}
    (first : thread.handleAll history = .ok before) (last : before.handle tick call = .ok after)
    : thread.handleAll (history ++ [(tick, call)]) = .ok after := by
  induction history generalizing thread with
  | nil =>
      obtain rfl := Except.ok.inj first
      exact (Outcome.bind_ok last _).trans rfl
  | cons entry rest ih =>
      obtain ⟨next, one, others⟩ := Outcome.of_bind_ok first
      exact (Outcome.bind_ok one _).trans (ih others)

/-- A legal history is legal without its last event, which is legal after it, by induction on it. -/
theorem legalFrom_snoc {before : ThreadStatus}
    (legal : LegalFrom before (history ++ [(tick, call)]))
    : LegalFrom before history
      ∧ call.Legal (history.foldl (fun before entry => entry.2.status before) before) := by
  induction history generalizing before with
  | nil => exact ⟨trivial, legal.1⟩
  | cons entry rest ih =>
      obtain ⟨others, last⟩ := ih legal.2
      exact ⟨⟨legal.1, others⟩, last⟩

/-- Legal histories run, and the controller counts as they say, by induction on the calls. -/
theorem exists_accounted {p0 : Int} (legal : LegalFrom .new history)
    (ordered : (created :: history.map Prod.fst).Pairwise (· ≤ ·))
    : ∃ thread,
        (Thread.new p0 created).handleAll history = .ok thread
        ∧ Accounted created history thread := by
  induction history using List.reverseRecOn with
  | nil =>
      refine ⟨_, rfl, rfl, fun now _ => ?_⟩
      have idle : ∀ tick ∈ ticks created now, ¬decide (statusAt [] tick = .running) = true :=
        fun _ _ => Bool.false_ne_true
      rw [ranTicks, burstStart, List.foldl_nil, List.countP_eq_zero.mpr idle]
      simp [counted, Thread.new, ThreadStateController.new]
  | append_singleton history entry ih =>
      obtain ⟨tick, call⟩ := entry
      obtain ⟨before, last⟩ := legalFrom_snoc legal
      rw [List.map_append, ← List.cons_append] at ordered
      obtain ⟨earlier, _, apart⟩ := List.pairwise_append.mp ordered
      have ended (entry : Int × ControllerCall) (member : entry ∈ history) : entry.1 ≤ tick :=
        apart entry.1 (List.mem_cons_of_mem _ (List.mem_map_of_mem member)) tick
          (List.mem_singleton_self tick)
      have born : created ≤ tick :=
        apart created List.mem_cons_self tick (List.mem_singleton_self tick)
      obtain ⟨thread, ran, accounted⟩ := ih before earlier
      have reached : lastTick created history ≤ tick := by
        cases history using List.reverseRecOn with
        | nil => exact born
        | append_singleton rest previous =>
            rw [lastTick_snoc]
            exact ended previous (List.mem_append_right _ (List.mem_singleton_self _))
      have allowed : call.Legal thread.status := accounted.status ▸ last
      by_cases waits : call = .setStatus .waiting
      · subst waits
        obtain ⟨after, handled, status, _, idle⟩ := counted_waiting allowed tick
        refine ⟨after, handleAll_snoc ran handled, ?_, fun now _ => ?_⟩
        · rw [statusAfter_snoc, status]
          rfl
        · rw [idle, ranTicks_snoc_waiting ended, Int.cast_zero]
      · obtain ⟨after, handled, status, _, goesOn⟩ := counted_handle allowed waits
        refine ⟨after, handleAll_snoc ran handled, ?_, fun now later => ?_⟩
        · rw [statusAfter_snoc, status, accounted.status]
        · rw [lastTick_snoc] at later
          rw [goesOn, accounted.ran tick reached, accounted.status,
            ranTicks_snoc ended born later waits]
          split <;> push_cast <;> rfl

/-- At every moment of a legal history the remaining time is what was left of the estimate
without the ticks in which the thread has run in this burst, and a transition to waiting
takes the mean of those ticks and the old estimate.
-/
theorem remainBurstTime_of_history {p0 : Int} (legal : LegalFrom .new history)
    (ordered : (created :: history.map Prod.fst).Pairwise (· ≤ ·))
    : ∃ thread,
        (Thread.new p0 created).handleAll history = .ok thread
        ∧ ∀ now, lastTick created history ≤ now
          → thread.getRemainTime now
              = thread.orderManager.remainBurstTime - ranTicks created history now
            ∧ (thread.status = .running
              → ∃ waiting,
                  thread.setStatus now .waiting = .ok waiting
                  ∧ waiting.orderManager.remainBurstTime
                    = (ranTicks created history now + thread.orderManager.remainBurstTime) / 2) := by
  obtain ⟨thread, ran, accounted⟩ := exists_accounted legal ordered
  refine ⟨thread, ran, fun now later => ⟨?_, fun running => ?_⟩⟩
  · rw [getRemainTime_eq, accounted.ran now later]
  · obtain ⟨waiting, set, _, remain, _⟩ := counted_waiting running now
    refine ⟨waiting, set, ?_⟩
    rw [remain, accounted.ran now later]

/-- A thread that is preempted after three ticks, ages, and waits after two more ticks. -/
theorem remainBurstTime_of_preempted_thread
    : ∃ thread waiting,
        (Thread.new 40 0).handleAll
            [(0, .setStatus .ready), (0, .setStatus .running), (3, .setStatus .ready),
              (5, .aging), (7, .setStatus .running)]
          = .ok thread
        ∧ thread.getRemainTime 9 = -5
        ∧ thread.setStatus 9 .waiting = .ok waiting
        ∧ waiting.orderManager.remainBurstTime = 5 / 2 := by
  have ticks
      : ranTicks 0
            [(0, .setStatus .ready), (0, .setStatus .running), (3, .setStatus .ready),
              (5, .aging), (7, .setStatus .running)]
            9
          = 5 := by
    decide
  obtain ⟨thread, ran, moments⟩ :=
    @remainBurstTime_of_history 0
      [(0, .setStatus .ready), (0, .setStatus .running), (3, .setStatus .ready),
        (5, .aging), (7, .setStatus .running)]
      40 ⟨.inl rfl, rfl, .inr (.inl rfl), rfl, rfl, trivial⟩ (by decide)
  have estimate : thread.orderManager.remainBurstTime = 0 := by
    obtain rfl := Except.ok.inj ran
    rfl
  have running : thread.status = .running := by
    obtain rfl := Except.ok.inj ran
    rfl
  obtain ⟨remains, waits⟩ := moments 9 (by decide)
  obtain ⟨waiting, set, mean⟩ := waits running
  rw [ticks, estimate] at remains mean
  refine ⟨thread, waiting, ran, ?_, set, ?_⟩
  · rw [remains]
    norm_num
  · rw [mean]
    norm_num

end Thread

end Nachos.Threads
