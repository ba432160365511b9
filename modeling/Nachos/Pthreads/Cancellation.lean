import Nachos.Pthreads.Pipeline

/-! A request to cancel a consumer cannot end its thread while it has an item in its hand. -/

namespace Nachos.Pthreads.Pipeline

/-- The thread is outside the part of its loop that disables cancellation. -/
def ConsumerPc.isIdle : ConsumerPc → Bool
  | .created | .testing | .disabling | .ended => true
  | _ => false

/-- A thread with an item in its hand has disabled cancellation, and the controller starts
threads that have not begun.
-/
structure State.Guarded (state : State) : Prop where
  idle : ∀ consumer ∈ state.created, consumer.enabled = true → consumer.pc.isIdle = true
  fresh
    : ∀ id consumer, state.controller = .starting id → state.created[id]? = some consumer
      → consumer.pc = .created

namespace State

variable {input : Nat → Fields} {state after : State}

/-- A thread that has begun may go on as long as it has no item while it can be cancelled. -/
theorem Guarded.setConsumer (guarded : state.Guarded) {id : Nat} {old : Consumer}
    (place : state.created[id]? = some old) (begun : old.pc ≠ .created) (consumer : Consumer)
    (own : consumer.enabled = true → consumer.pc.isIdle = true)
    : (state.setConsumer id consumer).Guarded where
  idle other member enabled := by
    rcases List.mem_or_eq_of_mem_set member with before | rfl
    · exact guarded.idle other before enabled
    · exact own enabled
  fresh starts other starting there := by
    by_cases same : id = starts
    · subst same
      exact absurd (guarded.fresh id old starting place) begun
    · exact guarded.fresh starts other starting ((List.getElem?_set_ne same).symm.trans there)

theorem Guarded.congr (guarded : state.Guarded) (created : after.created = state.created)
    (controller : after.controller = state.controller)
    : after.Guarded where
  idle := created ▸ guarded.idle
  fresh := created ▸ controller ▸ guarded.fresh

/-- A thread disables cancellation before it takes an item, and enables it once it has none. -/
theorem consumerStep_guarded {id : Nat} (step : state.consumerStep id = some after)
    (guarded : state.Guarded)
    : after.Guarded := by
  unfold consumerStep at step
  split at step
  · cases step
  rename_i consumer place
  have kept := guarded.idle consumer (List.mem_of_getElem? place)
  have begun {pc : ConsumerPc} (stands : consumer.pc = pc) (other : pc ≠ .created)
      : consumer.pc ≠ .created := stands ▸ other
  have disabled {pc : ConsumerPc} (stands : consumer.pc = pc) (busy : pc.isIdle = false)
      (enabled : consumer.enabled = true)
      : False := by
    have idle := kept enabled
    rw [stands, busy] at idle
    cases idle
  split at step
  · cases step
  · cases step
  · rename_i stands
    cases step
    refine guarded.setConsumer place (begun stands nofun) _ (fun _ => ?_)
    dsimp only
    split <;> rfl
  · rename_i stands
    cases step
    exact guarded.setConsumer place (begun stands nofun) _ nofun
  · rename_i stands
    obtain ⟨_, _, rfl⟩ := Option.map_eq_some_iff.mp step
    exact (guarded.setConsumer place (begun stands nofun) { consumer with pc := .transforming _ }
      (fun enabled => (disabled stands rfl enabled).elim)).congr rfl rfl
  · rename_i stands
    split at step <;> cases step
    · exact guarded.congr rfl rfl
    · exact guarded.setConsumer place (begun stands nofun) _
        (fun enabled => (disabled stands rfl enabled).elim)
  · rename_i stands
    obtain ⟨_, _, rfl⟩ := Option.map_eq_some_iff.mp step
    exact (guarded.setConsumer place (begun stands nofun) { consumer with pc := .deleting _ }
      (fun enabled => (disabled stands rfl enabled).elim)).congr rfl rfl
  · rename_i stands
    cases step
    exact guarded.setConsumer place (begun stands nofun) _ (fun _ => rfl)

/-- A step of `cancel` keeps the guard, by cases on its place. -/
theorem cancellationStep_guarded {id : Nat} (step : state.cancellationStep id = some after)
    (guarded : state.Guarded)
    : after.Guarded := by
  unfold cancellationStep at step
  split at step
  · cases step
  · rename_i consumer place
    split at step <;> cases step
    rename_i honoured
    simp only [Bool.and_eq_true, decide_eq_true_eq] at honoured
    exact guarded.setConsumer place honoured.2 _ (fun _ => rfl)

/-- The flags of a consumer say nothing about where its thread is. -/
theorem Guarded.setFlags (guarded : state.Guarded) {id : Nat} {old : Consumer}
    (place : state.created[id]? = some old) (isCancel requested : Bool)
    {controller : ControllerPc} (other : ∀ id, controller ≠ .starting id) {consumer : Consumer}
    (changed : consumer = { old with isCancel, requested })
    : ({ state.setConsumer id consumer with controller } : State).Guarded where
  idle other member enabled := by
    subst changed
    rcases List.mem_or_eq_of_mem_set member with before | rfl
    · exact guarded.idle other before enabled
    · exact guarded.idle old (List.mem_of_getElem? place) enabled
  fresh starts _ starting := absurd starting (other starts)

/-- A step of the controller keeps the guard: it starts a consumer only where none is, by cases on
its place.
-/
theorem controllerStep_guarded (step : state.controllerStep = some after)
    (guarded : state.Guarded)
    : after.Guarded := by
  have turn {controller : ControllerPc} (other : ∀ id, controller ≠ .starting id)
      : ({ state with controller } : State).Guarded :=
    ⟨guarded.idle, fun starts _ starting => absurd starting (other starts)⟩
  unfold controllerStep at step
  split at step
  · cases step
    exact turn nofun
  · cases step
    exact turn nofun
  · cases step
    refine turn (fun id => ?_)
    unfold scale
    split
    · nofun
    · split
      · split <;> nofun
      · nofun
  · cases step
    refine ⟨fun consumer member enabled => ?_, fun id consumer starts there => ?_⟩
    · rcases List.mem_append.mp member with before | fresh
      · exact guarded.idle consumer before enabled
      · rw [List.mem_singleton.mp fresh]
        rfl
    · cases starts
      have last : consumer = ⟨false, true, false, .created⟩ := by simpa using there.symm
      exact last ▸ rfl
  · rename_i id starts
    obtain ⟨consumer, place, rfl⟩ := Option.map_eq_some_iff.mp step
    refine ⟨fun other member enabled => ?_, fun _ _ starting => by cases starting⟩
    rcases List.mem_or_eq_of_mem_set member with before | rfl
    · exact guarded.idle other before enabled
    · rfl
  · obtain ⟨consumer, place, rfl⟩ := Option.map_eq_some_iff.mp step
    exact guarded.setFlags place true consumer.requested (fun _ same => by cases same) rfl
  · obtain ⟨consumer, place, rfl⟩ := Option.map_eq_some_iff.mp step
    exact guarded.setFlags place consumer.isCancel true (fun _ same => by cases same) rfl
  · cases step
    exact ⟨guarded.idle, fun _ _ starting => by cases starting⟩

end State

/-- No step of any thread lets a request end a thread that has an item in its hand. -/
theorem Step.guarded {input : Nat → Fields} {state after : State} {action : Action}
    (step : Step input state action after) (guarded : state.Guarded)
    : after.Guarded := by
  have runs := (step_iff.mp step).2
  cases action with
  | reader =>
      obtain ⟨_, _, _, _, rfl⟩ := State.readerStep_frame runs
      exact guarded.congr rfl rfl
  | producer index =>
      obtain ⟨_, _, _, _, rfl, _⟩ := State.producerStep_frame runs
      exact guarded.congr rfl rfl
  | consumer id => exact State.consumerStep_guarded runs guarded
  | cancellation id => exact State.cancellationStep_guarded runs guarded
  | controller => exact State.controllerStep_guarded runs guarded
  | writer accepted =>
      obtain ⟨_, _, _, _, _, _, rfl⟩ := State.writerStep_frame runs
      exact guarded.congr rfl rfl
  | main =>
      obtain ⟨_, _, rfl⟩ := State.mainStep_frame runs
      exact guarded.congr rfl rfl

theorem guarded_initial (expectedLines : Nat) (isOpen : Bool)
    : (initial expectedLines isOpen).Guarded where
  idle _ member := absurd member List.not_mem_nil
  fresh _ _ starting := by cases starting

end Nachos.Pthreads.Pipeline
