import Nachos.Pthreads.Conservation

/-! The controller starts the first consumer when the worker queue is long, and never removes
it. Before that nothing reaches the output queue.
-/

namespace Nachos.Pthreads.Pipeline

/-- The consumer on which the controller works. -/
def ControllerPc.concerns : ControllerPc → Option Nat
  | .starting id | .cancelling id | .requesting id | .removing id => some id
  | _ => none

/-- The consumer that the controller removes. -/
def ControllerPc.removes : ControllerPc → Option Nat
  | .cancelling id | .requesting id | .removing id => some id
  | _ => none

/-- The controller has not started any consumer yet. -/
structure State.Unstaffed (state : State) : Prop where
  created : state.created = []
  consumers : state.consumers = []
  controller : state.controller.concerns = none
  outputQueue : state.outputQueue.items = []
  writer : ∀ item, state.writer ≠ .writing item
  output : state.output = []
  refused : state.refused = []

/-- Nobody asked the consumer to end, and it did not. -/
structure Consumer.Kept (consumer : Consumer) : Prop where
  isCancel : consumer.isCancel = false
  requested : consumer.requested = false
  running : consumer.pc ≠ .ended

/-- The first consumer is there to stay. -/
inductive State.Staffed (state : State) : Prop where
  | intro {first : Consumer} {others : List Consumer} {rest : List Nat}
      (created : state.created = first :: others) (consumers : state.consumers = 0 :: rest)
      (later : ∀ id ∈ rest, 0 < id) (kept : first.Kept)
      (removes : ∀ id, state.controller.removes = some id → 0 < id ∧ rest ≠ [])

-----------------------------------------------------------------------------------------
-- The decision of the controller
-----------------------------------------------------------------------------------------

/-- Where there is no consumer the controller cancels none, by cases on the thresholds. -/
theorem State.scale_concerns_of_nil (currentSize : Nat) : (scale [] currentSize).concerns = none := by
  unfold scale
  split
  · rfl
  · rw [if_neg (fun both => Nat.not_lt_zero _ both.2)]
    rfl

/-- The consumer that is to be removed is not the first one. -/
theorem State.scale_removes {rest : List Nat} {currentSize id : Nat}
    (later : ∀ id ∈ rest, 0 < id) (removes : (scale (0 :: rest) currentSize).removes = some id)
    : 0 < id ∧ rest ≠ [] := by
  unfold scale at removes
  split at removes
  · cases removes
  · split at removes
    · rename_i low
      have more : rest ≠ [] := by
        rintro rfl
        exact absurd low.2 (Nat.lt_irrefl 1)
      rw [List.getLast?_cons_of_ne_nil more] at removes
      split at removes
      · cases removes
      · rename_i last
        cases removes
        exact ⟨later _ (List.mem_of_getLast? last), more⟩
    · cases removes

-----------------------------------------------------------------------------------------
-- Without consumers
-----------------------------------------------------------------------------------------

namespace State

variable {input : Nat → Fields} {state after : State}

theorem Unstaffed.consumerStep {id : Nat} (unstaffed : state.Unstaffed)
    : state.consumerStep id = none := by
  rw [State.consumerStep, unstaffed.created]
  rfl

theorem Unstaffed.cancellationStep {id : Nat} (unstaffed : state.Unstaffed)
    : state.cancellationStep id = none := by
  rw [State.cancellationStep, unstaffed.created]
  rfl

/-- The writer finds nothing to write. -/
theorem Unstaffed.writerStep {accepted : Bool} (unstaffed : state.Unstaffed)
    (step : state.writerStep accepted = some after)
    : after.Unstaffed := by
  obtain ⟨created, consumers, controller, outputQueue, writer, output, refused⟩ := unstaffed
  unfold State.writerStep at step
  split at step
  · cases step
    refine ⟨created, consumers, controller, outputQueue, fun item => ?_, output, refused⟩
    dsimp only
    split <;> nofun
  · cases step
    refine ⟨created, consumers, controller, outputQueue, fun item => ?_, output, refused⟩
    dsimp only
    split <;> nofun
  · rw [BoundedQueue.dequeue_eq_none.mpr outputQueue] at step
    cases step
  · rename_i item writes
    exact absurd writes (writer item)
  · cases step
    exact ⟨created, consumers, controller, outputQueue, fun _ => nofun, output, refused⟩
  · cases step
  · cases step

/-- The controller goes on without consumers, or adds the first one. -/
theorem Unstaffed.controllerStep (unstaffed : state.Unstaffed)
    (step : state.controllerStep = some after)
    : after.Unstaffed ∧ state.controller ≠ .adding
      ∨ after.Staffed ∧ state.controller = .adding := by
  obtain ⟨created, consumers, controller, outputQueue, writer, output, refused⟩ := unstaffed
  unfold State.controllerStep at step
  split at step
  · rename_i stands
    cases step
    exact .inl ⟨⟨created, consumers, rfl, outputQueue, writer, output, refused⟩, by simp [stands]⟩
  · rename_i stands
    cases step
    exact .inl ⟨⟨created, consumers, rfl, outputQueue, writer, output, refused⟩, by simp [stands]⟩
  · rename_i currentSize stands
    cases step
    refine .inl ⟨⟨created, consumers, ?_, outputQueue, writer, output, refused⟩, by simp [stands]⟩
    rw [consumers]
    exact scale_concerns_of_nil currentSize
  · rename_i stands
    cases step
    refine .inr ⟨@State.Staffed.intro _ ⟨false, true, false, .created⟩ [] [] ?_ ?_
      (fun _ member => absurd member List.not_mem_nil) ⟨rfl, rfl, nofun⟩
      (fun _ removes => by cases removes), stands⟩
    · rw [created]
      rfl
    · rw [created, consumers]
      rfl
  all_goals
    rename_i stands
    rw [stands] at controller
    cases controller

-----------------------------------------------------------------------------------------
-- With consumers
-----------------------------------------------------------------------------------------

/-- A change of one consumer keeps the first one if it does not ask it to end. -/
theorem Staffed.setConsumer (staffed : state.Staffed) {id : Nat} {old : Consumer}
    (place : state.created[id]? = some old) (new : Consumer) (own : id = 0 → old.Kept → new.Kept)
    {controller : ControllerPc}
    (removes : ∀ other, controller.removes = some other → state.controller.removes = some other)
    : ({ state.setConsumer id new with controller } : State).Staffed := by
  obtain @⟨first, others, rest, created, consumers, later, kept, target⟩ := staffed
  cases id with
  | zero =>
      rw [created] at place
      cases place
      refine @State.Staffed.intro _ new others rest ?_ consumers later (own rfl kept)
        (fun other removed => target other (removes other removed))
      change state.created.set 0 new = _
      rw [created]
      rfl
  | succ id =>
      refine @State.Staffed.intro _ first (others.set id new) rest ?_ consumers later kept
        (fun other removed => target other (removes other removed))
      change state.created.set (id + 1) new = _
      rw [created]
      rfl

/-- The step of a consumer that nobody asked to end changes only where its thread is. -/
theorem consumerStep_kept {id : Nat} (step : state.consumerStep id = some after)
    : ∃ old new,
        state.created[id]? = some old
        ∧ after.created = state.created.set id new
        ∧ (old.Kept → new.Kept) := by
  unfold consumerStep at step
  split at step
  · cases step
  rename_i consumer place
  refine ⟨consumer, ?_⟩
  split at step
  · cases step
  · cases step
  · cases step
    refine ⟨_, place, rfl, fun kept => ⟨kept.isCancel, kept.requested, ?_⟩⟩
    simp [kept.isCancel]
  · cases step
    exact ⟨_, place, rfl, fun kept => ⟨kept.isCancel, kept.requested, nofun⟩⟩
  · obtain ⟨_, _, rfl⟩ := Option.map_eq_some_iff.mp step
    exact ⟨_, place, rfl, fun kept => ⟨kept.isCancel, kept.requested, nofun⟩⟩
  · split at step <;> cases step
    · obtain ⟨inside, rfl⟩ := List.getElem?_eq_some_iff.mp place
      exact ⟨_, place, (List.set_getElem_self inside).symm, fun kept => kept⟩
    · exact ⟨_, place, rfl, fun kept => ⟨kept.isCancel, kept.requested, nofun⟩⟩
  · obtain ⟨_, _, rfl⟩ := Option.map_eq_some_iff.mp step
    exact ⟨_, place, rfl, fun kept => ⟨kept.isCancel, kept.requested, nofun⟩⟩
  · cases step
    exact ⟨_, place, rfl, fun kept => ⟨kept.isCancel, kept.requested, nofun⟩⟩

/-- A step of a consumer keeps the staff, since it keeps its own flags. -/
theorem Staffed.consumerStep {id : Nat} (staffed : state.Staffed)
    (step : state.consumerStep id = some after)
    : after.Staffed := by
  obtain ⟨old, new, place, created, own⟩ := consumerStep_kept step
  obtain ⟨_, _, _, _, rfl⟩ := consumerStep_frame step
  obtain ⟨changed, consumers, later, kept, target⟩ :=
    @Staffed.setConsumer _ staffed id old place new (fun _ => own) state.controller
      (fun _ removes => removes)
  exact .intro (created.trans changed) consumers later kept target

/-- A consumer that nobody asked to end is not ended by a request. -/
theorem Staffed.cancellationStep {id : Nat} (staffed : state.Staffed)
    (step : state.cancellationStep id = some after)
    : after.Staffed := by
  unfold State.cancellationStep at step
  split at step
  · cases step
  · rename_i consumer place
    split at step <;> cases step
    rename_i honoured
    simp only [Bool.and_eq_true] at honoured
    exact staffed.setConsumer place _
      (fun _ kept => Bool.noConfusion (kept.requested.symm.trans honoured.1.1))
      (fun _ removes => removes)

/-- The controller asks only later consumers to end. -/
theorem Staffed.controllerStep (staffed : state.Staffed)
    (step : state.controllerStep = some after)
    : after.Staffed := by
  have ⟨created, consumers, later, kept, target⟩ := staffed
  have positive {id : Nat} (stands : state.controller.removes = some id) : id ≠ 0 :=
    Nat.ne_of_gt (target id stands).1
  unfold State.controllerStep at step
  split at step
  · cases step
    exact .intro created consumers later kept (fun _ removes => by cases removes)
  · cases step
    exact .intro created consumers later kept (fun _ removes => by cases removes)
  · cases step
    refine .intro created consumers later kept (fun id removes => ?_)
    dsimp only at removes
    rw [consumers] at removes
    exact scale_removes later removes
  · cases step
    refine .intro (congrArg (· ++ _) created) (congrArg (· ++ _) consumers)
      (fun id member => ?_) kept (fun _ removes => by cases removes)
    rcases List.mem_append.mp member with old | fresh
    · exact later id old
    · rw [List.mem_singleton.mp fresh, created]
      exact Nat.zero_lt_succ _
  · obtain ⟨consumer, place, rfl⟩ := Option.map_eq_some_iff.mp step
    refine staffed.setConsumer place { consumer with pc := .testing }
      (fun _ kept => ⟨kept.isCancel, kept.requested, fun ended => ?_⟩) (fun _ removes => ?_)
    · cases ended
    · cases removes
  · rename_i id stands
    obtain ⟨consumer, place, rfl⟩ := Option.map_eq_some_iff.mp step
    have removes : state.controller.removes = some id := stands ▸ rfl
    exact staffed.setConsumer place _ (fun first => absurd first (positive removes))
      (fun _ same => same ▸ removes)
  · rename_i id stands
    obtain ⟨consumer, place, rfl⟩ := Option.map_eq_some_iff.mp step
    have removes : state.controller.removes = some id := stands ▸ rfl
    exact staffed.setConsumer place _ (fun first => absurd first (positive removes))
      (fun _ same => same ▸ removes)
  · rename_i id stands
    cases step
    have more := (target id (stands ▸ rfl)).2
    refine .intro created (congrArg List.dropLast consumers |>.trans
      (List.dropLast_cons_of_ne_nil more)) (fun other member => ?_) kept
      (fun _ removes => by cases removes)
    exact later other (List.mem_of_mem_dropLast member)

end State

-----------------------------------------------------------------------------------------
-- Runs
-----------------------------------------------------------------------------------------

/-- Until the controller adds the first consumer there is none; from then on it stays. -/
theorem Step.staffing {input : Nat → Fields} {state after : State} {action : Action}
    (step : Step input state action after) (staffing : state.Unstaffed ∨ state.Staffed)
    : after.Unstaffed ∨ after.Staffed := by
  have runs := (step_iff.mp step).2
  rcases staffing with unstaffed | staffed
  · have ⟨created, consumers, controller, outputQueue, writer, output, refused⟩ := unstaffed
    cases action with
    | reader =>
        obtain ⟨_, _, _, _, rfl⟩ := State.readerStep_frame runs
        exact .inl ⟨created, consumers, controller, outputQueue, writer, output, refused⟩
    | producer index =>
        obtain ⟨_, _, _, _, rfl, _⟩ := State.producerStep_frame runs
        exact .inl ⟨created, consumers, controller, outputQueue, writer, output, refused⟩
    | consumer id => cases unstaffed.consumerStep.symm.trans runs
    | cancellation id => cases unstaffed.cancellationStep.symm.trans runs
    | controller => exact (unstaffed.controllerStep runs).imp And.left And.left
    | writer accepted => exact .inl (unstaffed.writerStep runs)
    | main =>
        obtain ⟨_, _, rfl⟩ := State.mainStep_frame runs
        exact .inl ⟨created, consumers, controller, outputQueue, writer, output, refused⟩
  · have ⟨created, consumers, later, kept, removes⟩ := staffed
    refine .inr ?_
    cases action with
    | reader =>
        obtain ⟨_, _, _, _, rfl⟩ := State.readerStep_frame runs
        exact .intro created consumers later kept removes
    | producer index =>
        obtain ⟨_, _, _, _, rfl, _⟩ := State.producerStep_frame runs
        exact .intro created consumers later kept removes
    | consumer id => exact staffed.consumerStep runs
    | cancellation id => exact staffed.cancellationStep runs
    | controller => exact staffed.controllerStep runs
    | writer accepted =>
        obtain ⟨_, _, _, _, _, _, rfl⟩ := State.writerStep_frame runs
        exact .intro created consumers later kept removes
    | main =>
        obtain ⟨_, _, rfl⟩ := State.mainStep_frame runs
        exact .intro created consumers later kept removes

theorem unstaffed_initial (expectedLines : Nat) (isOpen : Bool)
    : (initial expectedLines isOpen).Unstaffed :=
  ⟨rfl, rfl, rfl, rfl, fun _ => nofun, rfl, rfl⟩

theorem Reachable.staffing {input : Nat → Fields} {expectedLines : Nat} {isOpen : Bool}
    {state : State} (reachable : Reachable input expectedLines isOpen state)
    : state.Unstaffed ∨ state.Staffed :=
  @Runs.Reachable.invariant _ _ _ _ _ (fun state => state.Unstaffed ∨ state.Staffed) reachable
    (.inl (unstaffed_initial _ _)) (fun _ _ _ staffing step => step.staffing staffing)

end Nachos.Pthreads.Pipeline
