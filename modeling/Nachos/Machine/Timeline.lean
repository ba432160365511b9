import Nachos.Machine.Delivery

/-! Interrupts are delivered by time, then in the order of scheduling, each once and none
early; the clock never goes back, and no interrupt is lost.
-/

namespace Nachos.Machine.Simulation
open Outcome

variable {δ σ : Type} {machine middle after : Simulation δ σ}

-----------------------------------------------------------------------------------------
-- Order
-----------------------------------------------------------------------------------------

/-- The order of delivery: by time, and by scheduling for the same time. -/
def Before (left right : PendingInterrupt δ) : Prop :=
  left.when < right.when ∨ left.when = right.when ∧ left.address < right.address

instance : IsTrans (PendingInterrupt δ) Before where
  trans left middle right first second := by
    unfold Before at *
    omega

/-- The interrupts delivered, then those that are pending. -/
def timeline (machine : Simulation δ σ) : List (PendingInterrupt δ) :=
  machine.delivered.map Prod.fst ++ machine.pending.items

/-- The interrupts scheduled so far are the ones delivered and pending, each once, and all of
them are in order. None was delivered early, and every tick is counted in one mode.
-/
structure InOrder (machine : Simulation δ σ) : Prop where
  numbered
    : machine.scheduled.map PendingInterrupt.address = List.range machine.scheduled.length
  conserved : machine.timeline.Perm machine.scheduled
  ordered : machine.timeline.Pairwise Before
  punctual : ∀ entry ∈ machine.delivered, entry.1.when ≤ entry.2 ∧ entry.2 ≤ machine.totalTicks
  accounted
    : machine.totalTicks
      = machine.stats.idleTicks + machine.stats.systemTicks + machine.stats.userTicks

theorem initial_inOrder (others : σ) : (initial others : Simulation δ σ).InOrder where
  numbered := rfl
  conserved := .nil
  ordered := .nil
  punctual _ member := absurd member List.not_mem_nil
  accounted := rfl

/-- Time has passed, and what was scheduled or delivered still is. -/
structure Later (machine after : Simulation δ σ) : Prop where
  clock : machine.totalTicks ≤ after.totalTicks
  scheduled : machine.scheduled <+: after.scheduled
  delivered : machine.delivered <+: after.delivered

/-- Time has passed, and the interrupts stayed in order. -/
structure Advances (machine after : Simulation δ σ) : Prop extends Later machine after where
  inOrder : machine.InOrder → after.InOrder

theorem Advances.refl (machine : Simulation δ σ) : machine.Advances machine where
  clock := le_refl _
  scheduled := List.prefix_refl _
  delivered := List.prefix_refl _
  inOrder := id

theorem Advances.trans (first : machine.Advances middle) (second : middle.Advances after)
    : machine.Advances after where
  clock := first.clock.trans second.clock
  scheduled := first.scheduled.trans second.scheduled
  delivered := first.delivered.trans second.delivered
  inOrder ordered := second.inOrder (first.inOrder ordered)

/-- Interrupts were numbered as they were scheduled. -/
theorem InOrder.address_lt (ordered : machine.InOrder) {next : PendingInterrupt δ}
    (member : next ∈ machine.timeline)
    : next.address < machine.scheduled.length := by
  have scheduled := ordered.conserved.subset member
  have number : next.address ∈ machine.scheduled.map PendingInterrupt.address :=
    List.mem_map_of_mem scheduled
  rw [ordered.numbered] at number
  exact List.mem_range.mp number

theorem mem_timeline_of_pending {next : PendingInterrupt δ}
    (member : next ∈ machine.pending.items)
    : next ∈ machine.timeline :=
  List.mem_append_right _ member

-----------------------------------------------------------------------------------------
-- Changes that keep the order
-----------------------------------------------------------------------------------------

/-- Changes beside the interrupts, with the clock going on. -/
theorem Advances.of_stats {stats : Statistics}
    (clock : machine.totalTicks ≤ stats.totalTicks)
    (counted
      : stats.totalTicks - machine.totalTicks
        = stats.idleTicks - machine.stats.idleTicks
          + (stats.systemTicks - machine.stats.systemTicks)
          + (stats.userTicks - machine.stats.userTicks))
    : machine.Advances { machine with stats } where
  clock := clock
  scheduled := List.prefix_refl _
  delivered := List.prefix_refl _
  inOrder ordered :=
    {
      numbered := ordered.numbered
      conserved := ordered.conserved
      ordered := ordered.ordered
      punctual entry member :=
        ⟨(ordered.punctual entry member).1, (ordered.punctual entry member).2.trans clock⟩
      accounted := by
        have before := ordered.accounted
        change stats.totalTicks = stats.idleTicks + stats.systemTicks + stats.userTicks
        omega
    }

/-- Changes beside the interrupts and the clock. -/
theorem Advances.of_rest (machine : Simulation δ σ) (interrupt : Threads.Interrupt)
    (others : σ) (halted : Bool)
    : machine.Advances { machine with interrupt, others, halted } where
  clock := le_refl _
  scheduled := List.prefix_refl _
  delivered := List.prefix_refl _
  inOrder ordered :=
    {
      numbered := ordered.numbered
      conserved := ordered.conserved
      ordered := ordered.ordered
      punctual := ordered.punctual
      accounted := ordered.accounted
    }

/-- An interrupt in the future comes after all that were delivered, and after those that are
pending for the same time.
-/
theorem Advances.occurring {toCall : δ} {fromNow : Int} {type : IntType}
    (positive : 0 < fromNow)
    : machine.Advances
        (machine.occurring
          (machine.newInterrupt toCall (machine.totalTicks + fromNow) type)) where
  clock := le_refl _
  scheduled := List.prefix_append _ _
  delivered := List.prefix_refl _
  inOrder ordered := by
    generalize made
      : machine.newInterrupt toCall (machine.totalTicks + fromNow) type = toOccur
    have future : machine.totalTicks < toOccur.when := by
      rw [← made]
      exact Int.lt_add_of_pos_right _ positive
    have number : toOccur.address = machine.scheduled.length := by rw [← made]; rfl
    have places := SortedList.inserted_perm toOccur machine.pending
    obtain ⟨first, second, between⟩ := List.pairwise_append.mp ordered.ordered
    refine {
      numbered := ?_
      conserved := ?_
      ordered := List.pairwise_append.mpr ⟨first, ?_, ?_⟩
      punctual := ordered.punctual
      accounted := ordered.accounted
    }
    · change (machine.scheduled ++ [toOccur]).map _
        = List.range (machine.scheduled ++ [toOccur]).length
      rw [List.map_append, ordered.numbered, List.length_append, List.length_singleton,
        List.range_succ, List.map_singleton, number]
    · have moved := (places.append_left (machine.delivered.map Prod.fst)).trans
        List.perm_middle
      exact (moved.trans (ordered.conserved.cons toOccur)).trans
        (List.perm_append_singleton toOccur machine.scheduled).symm
    · -- The new interrupt stops only before one with a later time.
      refine Insertion.pairwise_orderedInsert second ?_ ?_
      · intro other _ below
        exact .inl ((pendingCompare_neg toOccur other).mp below)
      · intro other member above
        rw [pendingCompare_neg] at above
        have earlier := ordered.address_lt (mem_timeline_of_pending member)
        unfold Before
        omega
    · intro left isDelivered right member
      rcases List.mem_cons.mp (places.subset member) with rfl | old
      · obtain ⟨entry, isEntry, rfl⟩ := List.mem_map.mp isDelivered
        have past := ordered.punctual entry isEntry
        exact .inl (by omega)
      · exact between left isDelivered right old

/-- Taking the first interrupt when it is due moves it from one list to the other. -/
theorem Advances.pulled {next : PendingInterrupt δ}
    (front : machine.pending.front? = some next)
    (reached : next.when ≤ machine.totalTicks)
    : machine.Advances (machine.pulled next) where
  clock := le_refl _
  scheduled := List.prefix_refl _
  delivered := List.prefix_append _ _
  inOrder ordered := by
    have same : (machine.pulled next).timeline = machine.timeline := by
      simp [timeline, Simulation.pulled, SortedList.items_of_front? front]
    refine {
      numbered := ordered.numbered
      conserved := same ▸ ordered.conserved
      ordered := same ▸ ordered.ordered
      punctual := ?_
      accounted := ordered.accounted
    }
    intro entry member
    rcases List.mem_append.mp member with old | new
    · exact ordered.punctual entry old
    · obtain rfl := List.mem_singleton.mp new
      exact ⟨reached, le_refl _⟩

/-- The clock moves to the given time unless that has passed. -/
theorem advances_advanceTo (when : Int)
    : machine.Advances (machine.advanceTo when)
      ∧ (machine.advanceTo when).totalTicks = max machine.totalTicks when := by
  unfold advanceTo
  split
  · rename_i future
    refine ⟨.of_stats future.le ?_, (max_eq_right future.le).symm⟩
    change when - machine.stats.totalTicks
      = machine.stats.idleTicks + (when - machine.stats.totalTicks)
        - machine.stats.idleTicks
        + (machine.stats.systemTicks - machine.stats.systemTicks)
        + (machine.stats.userTicks - machine.stats.userTicks)
    omega
  · exact ⟨.refl machine, (max_eq_left (not_lt.mp ‹_›)).symm⟩

/-- The front is due at its time, whatever the clock was before. -/
theorem isDue_advanceTo {next : PendingInterrupt δ}
    (front : machine.pending.front? = some next)
    : (machine.advanceTo next.when).isDue = true := by
  have front' : (machine.advanceTo next.when).pending.front? = some next := by
    unfold advanceTo
    split <;> exact front
  rw [isDue_of_front? front', (advances_advanceTo _).2]
  exact decide_eq_true (le_max_right _ _)

/-- A tick moves the clock on and leaves the interrupts, by cases on the mode. -/
theorem advances_of_tick (returned : machine.tick = .ok after)
    : machine.Advances after ∧ after.pending = machine.pending
      ∧ after.interrupt = machine.interrupt := by
  unfold tick at returned
  split at returned <;> obtain ⟨ticks, sum, returned⟩ := of_bind_ok returned <;>
    obtain rfl := of_addTicks sum <;> injection returned with same <;> subst same
  · refine ⟨.of_stats (Int.le_add_of_nonneg_right (by decide)) ?_, rfl, rfl⟩
    simp only [totalTicks]
    omega
  · refine ⟨.of_stats (Int.le_add_of_nonneg_right (by decide)) ?_, rfl, rfl⟩
    simp only [totalTicks]
    omega

theorem advances_changeLevel (now : Threads.IntStatus) (machine : Simulation δ σ)
    : machine.Advances (machine.changeLevel now) :=
  .of_rest _ _ _ _

-----------------------------------------------------------------------------------------
-- Calls
-----------------------------------------------------------------------------------------

variable [DecidableEq δ] {toCall : δ} {fromNow : Int} {type : IntType}
  {requests : List (Request δ)} {handlers : Handlers δ σ}

theorem advances_of_schedule
    (returned : machine.schedule toCall fromNow type = .ok after)
    : machine.Advances after := by
  obtain ⟨positive, rfl⟩ := of_schedule returned
  exact .occurring positive

/-- To deliver a due front goes on in the timeline, and so do the requests of its handler. -/
theorem advances_of_deliverFront (isDue : machine.isDue = true)
    (returned : machine.deliverFront handlers = .ok after)
    : machine.Advances after := by
  obtain ⟨next, reaction, front, _, rest⟩ := of_deliverFront returned
  rw [isDue_of_front? front, decide_eq_true_iff] at isDue
  have reacted : machine.Advances ((machine.pulled next).reacted reaction) :=
    (Advances.pulled front isDue).trans (.of_rest _ _ _ _)
  exact scheduleAll_keeps
    (fun _ _ _ _ _ before returned => before.trans (advances_of_schedule returned))
    reacted rest

/-- The loop delivers what is due at one time. -/
theorem advances_of_fire (isDue : machine.isDue = true)
    (returned : machine.fire handlers = .ok after)
    : machine.Advances after ∧ after.NoneDue ∧ after.totalTicks = machine.totalTicks := by
  obtain ⟨called, loop, returned⟩ := of_bind_ok returned
  have entered : machine.Advances { machine with interrupt.inHandler := true } :=
    .of_rest _ _ _ _
  obtain ⟨advances, quiet, ticks⟩ :=
    deliverDue_keeps
      (fun _ _ before isDue returned =>
        before.trans (advances_of_deliverFront isDue returned))
      entered isDue loop
  injection returned with same
  subst same
  exact ⟨advances.trans (.of_rest _ _ _ _), quiet, ticks⟩

/-- `CheckIfDue` leaves nothing that is due. Asked to, it advances the clock to the earliest
interrupt.
-/
theorem advances_of_checkIfDue {advanceClock fired : Bool}
    (returned : machine.checkIfDue handlers advanceClock = .ok (fired, after))
    : machine.Advances after ∧ after.NoneDue
      ∧ ∀ next, machine.pending.front? = some next → advanceClock = true
        → fired = true ∧ after.totalTicks = max machine.totalTicks next.when := by
  obtain ⟨_, _, returned⟩ := of_bind_ok returned
  split at returned
  · rename_i empty
    injection returned with same
    obtain ⟨rfl, rfl⟩ := Prod.mk.inj same
    refine ⟨.refl machine, noneDue_of_empty empty, ?_⟩
    intro next front
    rw [empty] at front
    exact nomatch front
  · rename_i next front
    split at returned
    · rename_i early
      injection returned with same
      obtain ⟨rfl, rfl⟩ := Prod.mk.inj same
      refine ⟨.refl machine, noneDue_of_front? front early.1, ?_⟩
      intro _ _ advance
      rw [early.2] at advance
      exact nomatch advance
    · obtain ⟨called, fire, returned⟩ := of_bind_ok returned
      injection returned with same
      obtain ⟨rfl, rfl⟩ := Prod.mk.inj same
      obtain ⟨advances, quiet, ticks⟩ := advances_of_fire (isDue_advanceTo front) fire
      obtain ⟨clock, moved⟩ := @advances_advanceTo δ σ machine next.when
      refine ⟨clock.trans advances, quiet, ?_⟩
      intro other front' _
      obtain rfl := Option.some.inj (front.symm.trans front')
      exact ⟨rfl, ticks.trans moved⟩

/-- `OneTick` goes on in the timeline and leaves nothing due. Witness: the tick, the change of
level and `CheckIfDue`.
-/
theorem advances_of_oneTick (returned : machine.oneTick handlers = .ok after)
    : machine.Advances after ∧ after.NoneDue := by
  obtain ⟨ticked, tick, returned⟩ := of_bind_ok returned
  obtain ⟨⟨fired, checked⟩, check, returned⟩ := of_bind_ok returned
  obtain ⟨called, quiet, _⟩ := advances_of_checkIfDue check
  have before : machine.Advances checked :=
    ((advances_of_tick tick).1.trans (advances_changeLevel .intOff ticked)).trans called
  dsimp only at returned
  split at returned <;> injection returned with same <;> subst same
  · exact ⟨before.trans (.of_rest _ _ _ _), quiet⟩
  · exact ⟨before.trans (advances_changeLevel .intOn checked), quiet⟩

/-- `Idle` goes on in the timeline and leaves nothing due, by cases on whether an interrupt fired.
-/
theorem advances_of_idle (returned : machine.idle handlers = .ok after)
    : machine.Advances after ∧ after.NoneDue := by
  obtain ⟨⟨fired, checked⟩, check, returned⟩ := of_bind_ok returned
  obtain ⟨called, quiet, _⟩ := advances_of_checkIfDue check
  have idling
      : machine.Advances { machine with interrupt.status := .idleMode } :=
    .of_rest _ _ _ _
  have before := idling.trans called
  dsimp only at returned
  split at returned <;> injection returned with same <;> subst same
  · exact ⟨before.trans (.of_rest _ _ _ _), quiet⟩
  · exact ⟨before.trans (.of_rest _ _ _ _), quiet⟩

/-- `SetLevel` goes on in the timeline, by cases on whether interrupts are enabled by it. -/
theorem advances_of_setLevel {now : Threads.IntStatus} (none : machine.NoneDue)
    (returned : machine.setLevel handlers now = .ok after)
    : machine.Advances after ∧ after.NoneDue := by
  obtain ⟨_, _, returned⟩ := of_bind_ok returned
  have changed := advances_changeLevel now machine
  split at returned
  · obtain ⟨ticked, quiet⟩ := advances_of_oneTick returned
    exact ⟨changed.trans ticked, quiet⟩
  · injection returned with same
    subst same
    exact ⟨changed, none⟩

/-- No operation leaves an interrupt due, by cases on the operation. -/
theorem advances_of_step {operation : Operation δ σ} (none : machine.NoneDue)
    (step : Step handlers machine operation after)
    : machine.Advances after ∧ after.NoneDue := by
  obtain ⟨_, returned⟩ := step
  cases operation with
  | schedule toCall fromNow type =>
      obtain ⟨positive, rfl⟩ := of_schedule returned
      refine ⟨.occurring positive, ?_⟩
      intro next member
      rcases List.mem_cons.mp ((SortedList.inserted_perm _ _).subset member) with rfl | old
      · exact Int.lt_add_of_pos_right _ positive
      · exact none next old
  | setLevel now => exact advances_of_setLevel none returned
  | oneTick => exact advances_of_oneTick returned
  | idle => exact advances_of_idle returned
  | setStatus status =>
      injection returned with same
      subst same
      exact ⟨.of_rest _ _ _ _, none⟩
  | proceed others =>
      injection returned with same
      subst same
      exact ⟨.of_rest _ _ _ _, none⟩

/-- Runs keep the order and leave nothing due, by induction on the run. -/
theorem advances_of_run {trace : List (Operation δ σ)} (none : machine.NoneDue)
    (run : Runs.Run (Step handlers) machine trace after)
    : machine.Advances after ∧ after.NoneDue := by
  refine @Runs.Run.invariant _ _ _ _ _ _
    (fun middle => machine.Advances middle ∧ middle.NoneDue) run ⟨.refl machine, none⟩ ?_
  intro middle operation next before step
  obtain ⟨advances, quiet⟩ := advances_of_step before.2 step
  exact ⟨before.1.trans advances, quiet⟩

-----------------------------------------------------------------------------------------
-- Calls that return
-----------------------------------------------------------------------------------------

/-- At the given time every handler returns, and what it schedules lies in the future, within
the range of `int`.
-/
def HandlersReturn (handlers : Handlers δ σ) (ticks : Int) : Prop :=
  ∀ device (machine : Simulation δ σ), machine.totalTicks = ticks
    → ∃ reaction,
        handlers device machine = .ok reaction
        ∧ ∀ request ∈ reaction.requests,
            0 < request.fromNow ∧ CInt.InRange (ticks + request.fromNow)

/-- Schedule returns for a time in the future, since the new interrupt is not in the list yet. -/
theorem InOrder.schedule_returns (ordered : machine.InOrder) (positive : 0 < fromNow)
    (fits : CInt.InRange (machine.totalTicks + fromNow))
    : ∃ after, machine.schedule toCall fromNow type = .ok after := by
  have fresh
      : machine.newInterrupt toCall (machine.totalTicks + fromNow) type
        ∉ machine.pending.items := by
    intro member
    exact absurd (ordered.address_lt (mem_timeline_of_pending member)) (lt_irrefl _)
  refine ⟨
    machine.occurring (machine.newInterrupt toCall (machine.totalTicks + fromNow) type),
    ?_
  ⟩
  rw [schedule, bind_ok (addTicks_of fits), bind_ok (require_of positive _),
    bind_ok (mapError_ok (SortedList.insert_of fresh) _)]
  rfl

/-- Requests that are in range are all scheduled, by induction on them. -/
theorem InOrder.scheduleAll_returns (ordered : machine.InOrder)
    (fits
      : ∀ request ∈ requests,
        0 < request.fromNow ∧ CInt.InRange (machine.totalTicks + request.fromNow))
    : ∃ after, machine.scheduleAll requests = .ok after := by
  induction requests generalizing machine with
  | nil => exact ⟨machine, rfl⟩
  | cons request rest ih =>
      obtain ⟨positive, inRange⟩ := fits request (List.mem_cons_self ..)
      obtain ⟨middle, first⟩ :=
        @InOrder.schedule_returns _ _ _ _ request.toCall _ request.type ordered positive
          inRange
      obtain ⟨_, same⟩ := of_schedule first
      have ticks : middle.totalTicks = machine.totalTicks := by rw [same]; rfl
      obtain ⟨after, others⟩ :=
        ih ((advances_of_schedule first).inOrder ordered)
          (fun other member => ticks ▸ fits other (List.mem_cons_of_mem _ member))
      exact ⟨after, by rw [scheduleAll, bind_ok first, others]⟩

/-- Requests leave the mode of the machine alone, by induction on them. -/
theorem scheduleAll_interrupt (returned : machine.scheduleAll requests = .ok after)
    : after.interrupt = machine.interrupt := by
  refine @scheduleAll_keeps _ _ _ after _ requests
    (fun other => other.interrupt = machine.interrupt) ?_ rfl returned
  intro before toCall fromNow type next same returned
  obtain ⟨_, rfl⟩ := of_schedule returned
  exact same

/-- To deliver a due front returns when its handler does, by cases on the front. -/
theorem InOrder.deliverFront_returns (ordered : machine.InOrder)
    (isDue : machine.isDue = true) (inHandler : machine.interrupt.inHandler = true)
    (returns : HandlersReturn handlers machine.totalTicks)
    : ∃ after, machine.deliverFront handlers = .ok after
        ∧ after.interrupt.inHandler = true := by
  cases front : machine.pending.front? with
  | none =>
      rw [Simulation.isDue, front] at isDue
      cases isDue
  | some next =>
      rw [isDue_of_front? front, decide_eq_true_iff] at isDue
      obtain ⟨reaction, handled, fits⟩ := returns next.callOnInterrupt (machine.pulled next) rfl
      have reacted : machine.Advances ((machine.pulled next).reacted reaction) :=
        (Advances.pulled front isDue).trans (.of_rest _ _ _ _)
      obtain ⟨after, rest⟩ := (reacted.inOrder ordered).scheduleAll_returns fits
      refine ⟨after, ?_, ?_⟩
      · rw [deliverFront, bind_ok (mapError_ok (SortedList.removeFront_of front) _)]
        dsimp only
        rw [bind_ok (mapError_ok handled _)]
        exact (bind_ok
          (@yieldOnReturn_of _ _ { machine.pulled next with others := reaction.others }
            reaction.yieldOnReturn inHandler) _).trans rest
      · rw [scheduleAll_interrupt rest]
        exact inHandler

/-- The loop returns when the handlers do, by induction on the fuel. -/
theorem InOrder.deliverDue_returns {fuel : Nat} (ordered : machine.InOrder)
    (isDue : machine.isDue = true) (inHandler : machine.interrupt.inHandler = true)
    (enough : machine.due.length ≤ fuel)
    (returns : HandlersReturn handlers machine.totalTicks)
    : ∃ after, machine.deliverDue handlers fuel = .ok after := by
  induction fuel generalizing machine with
  | zero =>
      have some := due_pos isDue
      omega
  | succ fuel ih =>
      obtain ⟨called, first, still⟩ := ordered.deliverFront_returns isDue inHandler returns
      obtain ⟨fewer, ticks⟩ := deliverFront_due isDue first
      rw [deliverDue, bind_ok first]
      by_cases again : called.isDue = true
      · rw [if_pos again]
        exact ih ((advances_of_deliverFront isDue first).inOrder ordered) again still
          (by omega) (ticks ▸ returns)
      · exact ⟨called, if_neg again⟩

/-- The time at which `CheckIfDue` calls handlers is the later of now and the earliest
interrupt.
-/
theorem InOrder.checkIfDue_returns {advanceClock : Bool} (ordered : machine.InOrder)
    (off : machine.interrupt.level = .intOff)
    (returns
      : ∀ next, machine.pending.front? = some next
        → HandlersReturn handlers (max machine.totalTicks next.when))
    : ∃ result, machine.checkIfDue handlers advanceClock = .ok result := by
  rw [checkIfDue, bind_ok (require_of off _)]
  cases front : machine.pending.front? with
  | none => exact ⟨_, rfl⟩
  | some next =>
      dsimp only
      split
      · exact ⟨_, rfl⟩
      · obtain ⟨clock, moved⟩ := @advances_advanceTo δ σ machine next.when
        have isDue := isDue_advanceTo front
        have entered
            : (machine.advanceTo next.when).Advances
                { machine.advanceTo next.when with interrupt.inHandler := true } :=
          .of_rest _ _ _ _
        obtain ⟨called, loop⟩ :=
          @InOrder.deliverDue_returns _ _ _ _ handlers
            (machine.advanceTo next.when).pending.items.length
            ((clock.trans entered).inOrder ordered) isDue rfl (due_length_le _)
            (moved ▸ returns next front)
        refine ⟨(true, { called with interrupt.inHandler := false }), ?_⟩
        exact bind_ok (fire_of loop) _

/-- The loop of `CheckIfDue` ends whatever finitely many interrupts each handler schedules. -/
theorem checkIfDue_ends {advanceClock : Bool} (ends : HandlersEnd handlers)
    : machine.checkIfDue handlers advanceClock ≠ .error (.fault .endless) := by
  intro stopped
  rcases of_bind_error stopped with off | ⟨_, _, stopped⟩
  · exact nomatch of_require_error off
  · split at stopped
    · exact nomatch stopped
    · rename_i next front
      split at stopped
      · exact nomatch stopped
      · rcases of_bind_error stopped with fire | ⟨_, _, stopped⟩
        · rcases of_bind_error fire with loop | ⟨_, _, stopped⟩
          · refine deliverDue_ends ends (due_length_le _) ?_ loop
            exact isDue_advanceTo front
          · exact nomatch stopped
        · exact nomatch stopped

-----------------------------------------------------------------------------------------
-- Every run
-----------------------------------------------------------------------------------------

/-- In every run interrupts are delivered in order, each once, none early, and none is lost.
`CheckIfDue` leaves nothing that is due, advances the clock to the earliest interrupt, and
ends. What is scheduled is what `Schedule` and the handlers are asked for. The run keeps
`InOrder`, by cases on its operations.
-/
theorem interrupts_inOrder (handlers : Handlers δ σ) (others : σ)
    : (∀ trace machine, Runs.Run (Step handlers) (initial others) trace machine
        → machine.InOrder ∧ machine.NoneDue
          ∧ ∀ further after, Runs.Run (Step handlers) machine further after
            → machine.Later after)
      ∧ (∀ machine advanceClock fired after,
          checkIfDue handlers advanceClock machine = .ok (fired, after)
          → after.NoneDue
            ∧ (advanceClock = true → machine.pending.items ≠ []
              → fired = true
                ∧ ∃ next ∈ machine.pending.items,
                    (∀ other ∈ machine.pending.items, next.when ≤ other.when)
                    ∧ after.totalTicks = max machine.totalTicks next.when))
      ∧ (HandlersEnd handlers
        → ∀ machine advanceClock,
            checkIfDue handlers advanceClock machine ≠ .error (.fault .endless))
      ∧ (∀ machine advanceClock, machine.InOrder → machine.interrupt.level = .intOff
        → (∀ next, machine.pending.front? = some next
          → HandlersReturn handlers (max machine.totalTicks next.when))
        → ∃ result, checkIfDue handlers advanceClock machine = .ok result)
      ∧ (∀ machine toCall fromNow type after,
          Step handlers machine (.schedule toCall fromNow type) after
          → 0 < fromNow
            ∧ after.scheduled
              = machine.scheduled
                ++ [machine.newInterrupt toCall (machine.totalTicks + fromNow) type])
      ∧ ∀ machine after : Simulation δ σ, machine.deliverFront handlers = .ok after
        → ∃ next reaction occurring,
            machine.pending.front? = some next
            ∧ handlers next.callOnInterrupt (machine.pulled next) = .ok reaction
            ∧ after.delivered = machine.delivered ++ [(next, machine.totalTicks)]
            ∧ after.scheduled = machine.scheduled ++ occurring
            ∧ List.Forall₂ (Request.Asks machine.totalTicks) reaction.requests occurring := by
  refine ⟨?_, ?_, fun ends _ _ => checkIfDue_ends ends,
    fun _ _ ordered off returns => ordered.checkIfDue_returns off returns, ?_,
    fun _ _ => deliverFront_asks⟩
  · intro trace machine run
    have start : (initial others : Simulation δ σ).NoneDue := noneDue_of_empty rfl
    obtain ⟨advances, quiet⟩ := advances_of_run start run
    exact ⟨
      advances.inOrder (initial_inOrder others),
      quiet,
      fun _ _ more => (advances_of_run quiet more).1.toLater
    ⟩
  · intro machine advanceClock fired after returned
    obtain ⟨_, quiet, advanced⟩ := advances_of_checkIfDue returned
    refine ⟨quiet, ?_⟩
    intro advance nonempty
    cases front : machine.pending.front? with
    | none => exact absurd (SortedList.items_of_front?_none front) nonempty
    | some next =>
        obtain ⟨called, clock⟩ := advanced next front advance
        refine ⟨called, next, ?_, fun other => front?_earliest front, clock⟩
        rw [SortedList.items_of_front? front]
        exact List.mem_cons_self ..
  · rintro machine toCall fromNow type after ⟨_, returned⟩
    obtain ⟨positive, rfl⟩ := of_schedule returned
    exact ⟨positive, rfl⟩

/-- Two devices: one schedules an interrupt of the other, which does nothing. -/
def askOther : Handlers Bool Unit := fun again _ =>
  .ok {
    others := ()
    requests := if again then [{ toCall := false, fromNow := 5, type := .timerInt }] else []
    yieldOnReturn := false
  }

/-- The handler of the witness returns: its one request fits the clock. -/
theorem handlersReturn_askOther {ticks : Int} (fits : CInt.InRange (ticks + 5))
    : HandlersReturn askOther ticks := by
  intro again machine _
  refine ⟨_, rfl, ?_⟩
  intro request member
  cases again with
  | false => cases member
  | true =>
      obtain rfl := List.mem_singleton.mp member
      exact ⟨by decide, fits⟩

/-- Witness: two interrupts for one time, of which the second schedules a third. `CheckIfDue`
returns with that one too.
-/
theorem interrupts_inOrder_of_two
    : HandlersEnd askOther
      ∧ ∃ machine,
          Runs.Run (Step askOther) (initial ())
            [.schedule false 10 .diskInt, .schedule true 10 .timerInt, .oneTick] machine
          ∧ machine.delivered.map (fun entry => entry.1.address) = [0, 1]
          ∧ machine.pending.items.map PendingInterrupt.when = [15]
          ∧ machine.InOrder ∧ machine.NoneDue
          ∧ checkIfDue askOther true (machine.changeLevel .intOff)
            ≠ .error (.fault .endless)
          ∧ ∃ result, checkIfDue askOther true (machine.changeLevel .intOff) = .ok result := by
  have ends : HandlersEnd askOther := by
    rintro again machine ⟨⟩
  obtain ⟨runs, _, noLoop, returns, _, _⟩ := interrupts_inOrder askOther ()
  obtain ⟨machine, run, delivered, pending, ticks⟩
      : ∃ machine,
          Runs.Run (Step askOther) (initial ())
            [.schedule false 10 .diskInt, .schedule true 10 .timerInt, .oneTick] machine
          ∧ machine.delivered.map (fun entry => entry.1.address) = [0, 1]
          ∧ machine.pending.items.map PendingInterrupt.when = [15]
          ∧ machine.totalTicks = 10 :=
    ⟨
      _,
      (((Runs.Run.nil _).snoc ⟨rfl, rfl⟩).snoc ⟨rfl, rfl⟩).snoc ⟨rfl, rfl⟩,
      rfl,
      rfl,
      rfl
    ⟩
  obtain ⟨ordered, quiet, _⟩ := runs _ machine run
  refine ⟨ends, machine, run, delivered, pending, ordered, quiet, noLoop ends _ _, ?_⟩
  refine returns (machine.changeLevel .intOff) true
    ((advances_changeLevel .intOff machine).inOrder ordered) rfl ?_
  intro next front
  have items : machine.pending.items = next :: machine.pending.rest.items :=
    SortedList.items_of_front? front
  have whens := pending
  rw [items, List.map_cons] at whens
  obtain ⟨when, _⟩ := List.cons.inj whens
  change HandlersReturn askOther (max machine.totalTicks next.when)
  rw [ticks, when]
  exact handlersReturn_askOther (by decide)

end Nachos.Machine.Simulation
