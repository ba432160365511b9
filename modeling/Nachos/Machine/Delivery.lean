import Nachos.Machine.Interrupt

/-! What one call of a handler does to the pending interrupts, and that the loop over those
that are due ends.
-/

namespace Nachos.Machine.Simulation
open Outcome

variable {δ σ : Type} {machine after : Simulation δ σ}

-----------------------------------------------------------------------------------------
-- Interrupts that are due
-----------------------------------------------------------------------------------------

/-- The interrupts that are pending although their time has come. -/
def due (machine : Simulation δ σ) : List (PendingInterrupt δ) :=
  machine.pending.items.filter (fun next => next.when ≤ machine.totalTicks)

def NoneDue (machine : Simulation δ σ) : Prop :=
  ∀ next ∈ machine.pending.items, machine.totalTicks < next.when

theorem isDue_of_front? {next : PendingInterrupt δ}
    (front : machine.pending.front? = some next)
    : machine.isDue = decide (next.when ≤ machine.totalTicks) := by
  rw [isDue, front]

/-- The first pending interrupt is the earliest. -/
theorem front?_earliest {next other : PendingInterrupt δ}
    (front : machine.pending.front? = some next)
    (member : other ∈ machine.pending.items)
    : next.when ≤ other.when := by
  have reflexive (item : PendingInterrupt δ) : pendingCompare item item ≤ 0 := by
    rw [pendingCompare_nonpos]
  exact (pendingCompare_nonpos next other).mp
    (SortedList.front?_le reflexive front member)

theorem noneDue_of_front? {next : PendingInterrupt δ}
    (front : machine.pending.front? = some next) (future : machine.totalTicks < next.when)
    : machine.NoneDue :=
  fun _ member => lt_of_lt_of_le future (front?_earliest front member)

theorem noneDue_of_empty (empty : machine.pending.front? = none) : machine.NoneDue := by
  intro next member
  rw [SortedList.items_of_front?_none empty] at member
  exact absurd member List.not_mem_nil

/-- Nothing is due when the front is not, since the list is in order. -/
theorem noneDue_of_isDue (quiet : machine.isDue = false) : machine.NoneDue := by
  cases front : machine.pending.front? with
  | none => exact noneDue_of_empty front
  | some next =>
      rw [isDue_of_front? front, decide_eq_false_iff_not, not_le] at quiet
      exact noneDue_of_front? front quiet

/-- When the front is due at least one interrupt is. -/
theorem due_pos (isDue : machine.isDue = true) : 0 < machine.due.length := by
  cases front : machine.pending.front? with
  | none =>
      rw [Simulation.isDue, front] at isDue
      exact nomatch isDue
  | some next =>
      rw [isDue_of_front? front] at isDue
      rw [due, SortedList.items_of_front? front, List.filter_cons, if_pos isDue]
      exact Nat.succ_pos _

theorem due_length_le (machine : Simulation δ σ)
    : machine.due.length ≤ machine.pending.items.length :=
  List.length_filter_le _ _

-----------------------------------------------------------------------------------------
-- Changes of the list
-----------------------------------------------------------------------------------------

/-- The machine with one more pending interrupt. -/
def occurring (toOccur : PendingInterrupt δ) (machine : Simulation δ σ) : Simulation δ σ :=
  {
    machine with
    pending := machine.pending.inserted toOccur
    scheduled := machine.scheduled ++ [toOccur]
  }

/-- An interrupt in the future is not due. -/
theorem due_occurring {toOccur : PendingInterrupt δ}
    (future : machine.totalTicks < toOccur.when)
    : (machine.occurring toOccur).due = machine.due :=
  Insertion.filter_orderedInsert_of_not (decide_eq_false (not_le.mpr future))

/-- The state in which the requests of a handler are scheduled. -/
def reacted (reaction : Reaction δ σ) (machine : Simulation δ σ) : Simulation δ σ :=
  {
    machine with
    others := reaction.others
    interrupt.yieldOnReturn := machine.interrupt.yieldOnReturn || reaction.yieldOnReturn
  }

theorem yieldOnReturn_of (asked : Bool) (inHandler : machine.interrupt.inHandler = true)
    : machine.yieldOnReturn asked
      = .ok {
          machine with interrupt.yieldOnReturn := machine.interrupt.yieldOnReturn || asked
        } :=
  bind_ok (require_of (fun _ => inHandler) _) _

theorem pulled_reacted_due {next : PendingInterrupt δ} {reaction : Reaction δ σ}
    (front : machine.pending.front? = some next)
    (reached : next.when ≤ machine.totalTicks)
    : (((machine.pulled next).reacted reaction).due).length + 1 = machine.due.length := by
  have items := SortedList.items_of_front? front
  unfold due
  rw [items, List.filter_cons, if_pos (decide_eq_true reached)]
  rfl

-----------------------------------------------------------------------------------------
-- Scheduling
-----------------------------------------------------------------------------------------

variable [DecidableEq δ] {toCall : δ} {fromNow : Int} {type : IntType}
  {requests : List (Request δ)} {handlers : Handlers δ σ}

/-- A sum of ticks that returned did not overflow. -/
theorem of_addTicks {left right sum : Int} (returned : addTicks left right = .ok sum)
    : sum = left + right := by
  unfold addTicks at returned
  split at returned
  · injection returned with same
    exact same.symm
  · exact nomatch returned

theorem addTicks_of {left right : Int} (fits : CInt.InRange (left + right))
    : addTicks left right = .ok (left + right) :=
  if_pos fits

/-- Schedule adds one interrupt at its time in the future. Witness: each part of it returned. -/
theorem of_schedule (returned : machine.schedule toCall fromNow type = .ok after)
    : 0 < fromNow
      ∧ after
        = machine.occurring
            (machine.newInterrupt toCall (machine.totalTicks + fromNow) type) := by
  obtain ⟨when, sum, returned⟩ := of_bind_ok returned
  obtain ⟨_, positive, returned⟩ := of_bind_ok returned
  obtain ⟨pending, inserted, returned⟩ := of_bind_ok returned
  have inserted := of_mapError_ok inserted
  obtain rfl := of_addTicks sum
  refine ⟨of_require_ok positive, ?_⟩
  unfold SortedList.insert at inserted
  split at inserted
  · exact nomatch inserted
  · injection inserted with same
    injection returned with result
    rw [← result, ← same]
    rfl

/-- What every call of `Schedule` keeps, the requests of a handler keep, by induction on
them.
-/
theorem scheduleAll_keeps {property : Simulation δ σ → Prop}
    (kept
      : ∀ machine toCall fromNow type after,
        property machine → schedule toCall fromNow type machine = .ok after
        → property after)
    (holds : property machine) (returned : machine.scheduleAll requests = .ok after)
    : property after := by
  induction requests generalizing machine with
  | nil =>
      injection returned with same
      exact same ▸ holds
  | cons request rest ih =>
      obtain ⟨middle, first, others⟩ := of_bind_ok returned
      exact ih (kept _ _ _ _ _ holds first) others

/-- Requests change neither the clock nor what is due. -/
theorem scheduleAll_due (returned : machine.scheduleAll requests = .ok after)
    : after.due = machine.due ∧ after.totalTicks = machine.totalTicks := by
  refine @scheduleAll_keeps _ _ _ after _ requests
    (fun other => other.due = machine.due ∧ other.totalTicks = machine.totalTicks)
    ?_ ⟨rfl, rfl⟩ returned
  intro before toCall fromNow type next same returned
  obtain ⟨positive, rfl⟩ := of_schedule returned
  refine ⟨?_, same.2⟩
  rw [due_occurring, same.1]
  exact Int.lt_add_of_pos_right _ positive

/-- An interrupt is the one that a request asks for at the given time. -/
def Request.Asks (now : Int) (request : Request δ) (toOccur : PendingInterrupt δ) : Prop :=
  toOccur.callOnInterrupt = request.toCall
  ∧ toOccur.when = now + request.fromNow
  ∧ toOccur.type = request.type

/-- Requests are all that is scheduled, each once and in their order, by induction on them. -/
theorem scheduleAll_asks (returned : machine.scheduleAll requests = .ok after)
    : after.delivered = machine.delivered
      ∧ ∃ occurring,
          after.scheduled = machine.scheduled ++ occurring
          ∧ List.Forall₂ (Request.Asks machine.totalTicks) requests occurring := by
  induction requests generalizing machine with
  | nil =>
      injection returned with same
      subst same
      exact ⟨rfl, [], (List.append_nil _).symm, .nil⟩
  | cons request rest ih =>
      obtain ⟨middle, first, others⟩ := of_bind_ok returned
      obtain ⟨_, rfl⟩ := of_schedule first
      obtain ⟨delivered, occurring, scheduled, asked⟩ := ih others
      let toOccur :=
        machine.newInterrupt request.toCall (machine.totalTicks + request.fromNow) request.type
      refine ⟨delivered, toOccur :: occurring, ?_, .cons ⟨rfl, rfl, rfl⟩ asked⟩
      rw [scheduled]
      exact List.append_assoc _ [toOccur] occurring

-----------------------------------------------------------------------------------------
-- One delivery
-----------------------------------------------------------------------------------------

/-- A delivery takes the first interrupt and schedules what its handler asks for. -/
theorem of_deliverFront (returned : machine.deliverFront handlers = .ok after)
    : ∃ next reaction,
        machine.pending.front? = some next
        ∧ handlers next.callOnInterrupt (machine.pulled next) = .ok reaction
        ∧ ((machine.pulled next).reacted reaction).scheduleAll reaction.requests
          = .ok after := by
  obtain ⟨⟨next, pending⟩, removed, returned⟩ := of_bind_ok returned
  obtain ⟨reaction, handled, returned⟩ := of_bind_ok returned
  obtain ⟨called, asked, returned⟩ := of_bind_ok returned
  obtain ⟨_, _, asked⟩ := of_bind_ok asked
  injection asked with same
  subst same
  exact ⟨
    next,
    reaction,
    SortedList.of_removeFront (of_mapError_ok removed),
    of_mapError_ok handled,
    returned
  ⟩

/-- A delivery is of the first interrupt, and schedules just what its handler asks for. -/
theorem deliverFront_asks (returned : machine.deliverFront handlers = .ok after)
    : ∃ next reaction occurring,
        machine.pending.front? = some next
        ∧ handlers next.callOnInterrupt (machine.pulled next) = .ok reaction
        ∧ after.delivered = machine.delivered ++ [(next, machine.totalTicks)]
        ∧ after.scheduled = machine.scheduled ++ occurring
        ∧ List.Forall₂ (Request.Asks machine.totalTicks) reaction.requests occurring := by
  obtain ⟨next, reaction, front, handled, rest⟩ := of_deliverFront returned
  obtain ⟨delivered, occurring, scheduled, asked⟩ := scheduleAll_asks rest
  exact ⟨next, reaction, occurring, front, handled, delivered, scheduled, asked⟩

/-- A delivery leaves one interrupt fewer that is due, at the same time. -/
theorem deliverFront_due (isDue : machine.isDue = true)
    (returned : machine.deliverFront handlers = .ok after)
    : after.due.length + 1 = machine.due.length ∧ after.totalTicks = machine.totalTicks := by
  obtain ⟨next, reaction, front, _, rest⟩ := of_deliverFront returned
  rw [isDue_of_front? front, decide_eq_true_iff] at isDue
  obtain ⟨same, ticks⟩ := scheduleAll_due rest
  rw [same, pulled_reacted_due front isDue]
  exact ⟨rfl, ticks⟩

-----------------------------------------------------------------------------------------
-- The loop
-----------------------------------------------------------------------------------------

theorem fire_of
    (loop
      : deliverDue handlers machine.pending.items.length
          { machine with interrupt.inHandler := true }
        = .ok after)
    : machine.fire handlers = .ok { after with interrupt.inHandler := false } :=
  bind_ok loop _

/-- What every delivery of a due interrupt keeps, the loop keeps, and it leaves none due, by
induction on the fuel.
-/
theorem deliverDue_keeps {property : Simulation δ σ → Prop}
    (kept
      : ∀ machine after,
        property machine → isDue machine = true → deliverFront handlers machine = .ok after
        → property after)
    {fuel : Nat} (holds : property machine) (isDue : machine.isDue = true)
    (returned : machine.deliverDue handlers fuel = .ok after)
    : property after ∧ after.NoneDue ∧ after.totalTicks = machine.totalTicks := by
  induction fuel generalizing machine with
  | zero => exact nomatch returned
  | succ fuel ih =>
      obtain ⟨called, first, returned⟩ := of_bind_ok returned
      have holds := kept _ _ holds isDue first
      have ticks := (deliverFront_due isDue first).2
      split at returned
      · rename_i again
        rw [← ticks]
        exact ih holds again returned
      · rename_i quiet
        injection returned with same
        subst same
        exact ⟨holds, noneDue_of_isDue (Bool.not_eq_true _ ▸ quiet), ticks⟩

-----------------------------------------------------------------------------------------
-- Termination
-----------------------------------------------------------------------------------------

/-- No handler loops forever. -/
def HandlersEnd (handlers : Handlers δ σ) : Prop :=
  ∀ device machine, handlers device machine ≠ .error .endless

/-- Schedule always ends, with an interrupt more or an assertion, by cases on the part that stops.
-/
theorem schedule_ends
    : machine.schedule toCall fromNow type ≠ .error (.fault .endless) := by
  intro stopped
  rcases of_bind_error stopped with sum | ⟨when, _, stopped⟩
  · unfold addTicks at sum
    split at sum <;> exact nomatch sum
  · rcases of_bind_error stopped with positive | ⟨_, _, stopped⟩
    · exact nomatch of_require_error positive
    · rcases of_bind_error stopped with inserted | ⟨_, _, stopped⟩
      · obtain ⟨cause, inserted, same⟩ := of_mapError_error inserted
        injection same with same
        subst same
        unfold SortedList.insert at inserted
        split at inserted <;> exact nomatch inserted
      · exact nomatch stopped

/-- A finite list of requests ends, by induction on it. -/
theorem scheduleAll_ends : machine.scheduleAll requests ≠ .error (.fault .endless) := by
  induction requests generalizing machine with
  | nil => exact nofun
  | cons request rest ih =>
      intro stopped
      rcases of_bind_error stopped with first | ⟨middle, _, others⟩
      · exact schedule_ends first
      · exact ih others

/-- To deliver the front ends when the handler does, by cases on the part that stops. -/
theorem deliverFront_ends (ends : HandlersEnd handlers)
    : machine.deliverFront handlers ≠ .error (.fault .endless) := by
  intro stopped
  rcases of_bind_error stopped with removed | ⟨⟨next, _⟩, _, stopped⟩
  · obtain ⟨cause, removed, same⟩ := of_mapError_error removed
    injection same with same
    subst same
    unfold SortedList.removeFront at removed
    split at removed <;> exact nomatch removed
  · rcases of_bind_error stopped with handled | ⟨reaction, _, stopped⟩
    · obtain ⟨cause, handled, same⟩ := of_mapError_error handled
      injection same with same
      subst same
      exact ends _ _ handled
    · rcases of_bind_error stopped with asked | ⟨called, _, stopped⟩
      · rcases of_bind_error asked with inHandler | ⟨_, _, returned⟩
        · exact nomatch of_require_error inHandler
        · exact nomatch returned
      · exact scheduleAll_ends stopped

/-- The loop ends, since every turn leaves one interrupt fewer that is due, by induction on
the fuel.
-/
theorem deliverDue_ends (ends : HandlersEnd handlers) {fuel : Nat}
    (enough : machine.due.length ≤ fuel) (isDue : machine.isDue = true)
    : machine.deliverDue handlers fuel ≠ .error (.fault .endless) := by
  induction fuel generalizing machine with
  | zero =>
      have some := due_pos isDue
      omega
  | succ fuel ih =>
      intro stopped
      rcases of_bind_error stopped with first | ⟨called, first, stopped⟩
      · exact deliverFront_ends ends first
      · have fewer := (deliverFront_due isDue first).1
        split at stopped
        · exact ih (by omega) ‹_› stopped
        · exact nomatch stopped

end Nachos.Machine.Simulation
