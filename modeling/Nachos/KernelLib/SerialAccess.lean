import Nachos.KernelLib.SynchDevice

/-! The lock lets one thread at a time use the device, so that calls have the effect of running
one after the other, in the order in which they acquire the lock.
-/

namespace Nachos.SynchDevice
open Outcome

variable {ι κ ρ ω δ ε μ : Type} {driver : Driver κ ρ ω δ ε}
  {state after : State ι κ ρ ω δ}

-----------------------------------------------------------------------------------------
-- Invariants of a device
-----------------------------------------------------------------------------------------

/-- What holds of the device and the value of the semaphore before the rest of the
instructions of the thread that has the lock (none, if no thread has it), and the effect of
requests on a memory of the device, which interrupts leave alone.
-/
structure Protocol (driver : Driver κ ρ ω δ ε)
    (invariant : δ → Int → List (Instruction ρ) → Prop) (memory : δ → μ)
    (effect : ρ → μ → ω × μ)
    : Prop where
  begin
    : ∀ {device value call},
      driver.valid call → invariant device value []
      → invariant device value (driver.script call)
  request
    : ∀ {device value request rest},
      invariant device value (.request request :: rest)
      → ∃ next,
          driver.request request device = .ok ((effect request (memory device)).1, next)
          ∧ memory next = (effect request (memory device)).2
          ∧ invariant next value rest
  p
    : ∀ {device value rest},
      invariant device value (.p :: rest) → value ≠ 0 → invariant device (value - 1) rest
  callBack
    : ∀ {device value rest} surroundings,
      invariant device value rest → driver.pending device
      → ∃ signals next,
          driver.callBack surroundings device = .ok (signals, next)
          ∧ memory next = memory device
          ∧ invariant next (if signals then value + 1 else value) rest

/-- The instructions that a thread still has under the lock. -/
def Progress.rest (driver : Driver κ ρ ω δ ε) : Progress κ ρ ω → List (Instruction ρ)
  | .outside | .acquiring _ | .releasing _ _ => []
  | .acquired call => driver.script call
  | .inside _ rest _ => rest

/-- The call of a thread that has the lock. -/
def Progress.holding : Progress κ ρ ω → Option κ
  | .outside | .acquiring _ => none
  | .acquired call | .inside call _ _ | .releasing call _ => some call

/-- The call of a thread that has made no request yet. -/
def Progress.entering : Progress κ ρ ω → Option κ
  | .acquiring call | .acquired call => some call
  | .outside | .inside _ _ _ | .releasing _ _ => none

/-- What a thread that has the lock has done with the memory, and what it got back. -/
def Progress.Did (driver : Driver κ ρ ω δ ε) (effect : ρ → μ → ω × μ) (before now : μ)
    : Progress κ ρ ω → Prop
  | .outside | .acquiring _ => True
  | .acquired _ => now = before
  | .inside call rest outputs =>
      ∃ done,
        requests (driver.script call) = done ++ requests rest
        ∧ execute effect done before = (outputs, now)
  | .releasing call outputs =>
      execute effect (requests (driver.script call)) before = (outputs, now)

/-- What one thread that has the lock, or none, means for the state. -/
structure Holds (driver : Driver κ ρ ω δ ε)
    (invariant : δ → Int → List (Instruction ρ) → Prop) (memory : δ → μ)
    (effect : ρ → μ → ω × μ) (start : μ) (current : Option ι) (state : State ι κ ρ ω δ)
    : Prop where
  only : ∀ t, (state.threads t).holding ≠ none ↔ current = some t
  lock : state.lock.value = if current = none then 1 else 0
  holder
    : ∀ t call rest outputs, state.threads t = .inside call rest outputs
      → state.lockHolder = some t
  valid : ∀ t call, (state.threads t).entering = some call → driver.valid call
  device
    : invariant state.device state.waitFor.value
        (current.elim [] (fun t => (state.threads t).rest driver))
  /-- The calls that returned ran one after the other. -/
  served
    : ∃ before,
        serial driver.script effect (state.returned.map Prod.fst) start
          = (state.returned, before)
        ∧ (current = none → memory state.device = before)
        ∧ ∀ t, current = some t
          → (state.threads t).Did driver effect before (memory state.device)
  ordered
    : state.acquired
      = state.returned.map Prod.fst
        ++ (current.bind (fun t => (state.threads t).holding)).toList

variable {invariant : δ → Int → List (Instruction ρ) → Prop} {memory : δ → μ}
  {effect : ρ → μ → ω × μ} {start : μ} {current : Option ι}

/-- The invariant holds before the first call: nobody has the lock and nothing was requested. -/
theorem initial_holds {device : δ} (holds : invariant device 0 [])
    : Holds driver invariant memory effect (memory device) none
        (initial device : State ι κ ρ ω δ) where
  only _ := ⟨fun absurd => (absurd rfl).elim, nofun⟩
  lock := rfl
  holder _ _ _ _ inside := nomatch inside
  valid _ _ entering := nomatch entering
  device := holds
  served := ⟨memory device, rfl, fun _ => rfl, nofun⟩
  ordered := rfl

-----------------------------------------------------------------------------------------
-- Steps
-----------------------------------------------------------------------------------------

/-- A thread that has not got the lock does something else. -/
theorem Holds.bystander [DecidableEq ι]
    (holds : Holds driver invariant memory effect start current state) {t : ι}
    {progress : Progress κ ρ ω} (before : (state.threads t).holding = none)
    (now : progress.holding = none)
    (valid : ∀ call, progress.entering = some call → driver.valid call)
    : Holds driver invariant memory effect start current
        { state with threads := Function.update state.threads t progress } := by
  have other {holder : ι} (has : current = some holder) : holder ≠ t := by
    rintro rfl
    exact (holds.only holder).mpr has before
  have kept {holder : ι} (has : current = some holder)
      : Function.update state.threads t progress holder = state.threads holder :=
    Function.update_of_ne (other has) ..
  refine {
    only := ?_
    lock := holds.lock
    holder := ?_
    valid := ?_
    device := ?_
    served := ?_
    ordered := ?_
  }
  · exact (Function.forall_update_iff state.threads
      (fun thread own => own.holding ≠ none ↔ current = some thread)).mpr
      ⟨⟨fun has => absurd now has, fun has => absurd rfl (other has)⟩,
        fun thread _ => holds.only thread⟩
  · refine (Function.forall_update_iff state.threads
      (fun thread own => ∀ call rest outputs, own = .inside call rest outputs
        → state.lockHolder = some thread)).mpr
      ⟨fun call rest outputs inside => ?_, fun thread _ => holds.holder thread⟩
    rw [inside] at now
    exact nomatch now
  · exact (Function.forall_update_iff state.threads
      (fun _ own => ∀ call, own.entering = some call → driver.valid call)).mpr
      ⟨valid, fun thread _ => holds.valid thread⟩
  · have device := holds.device
    cases has : current with
    | none => rwa [has] at device
    | some holder =>
        rw [has, Option.elim_some, ← kept has] at device
        exact device
  · obtain ⟨memoryBefore, ran, free, did⟩ := holds.served
    refine ⟨memoryBefore, ran, free, fun holder has => ?_⟩
    change (Function.update state.threads t progress holder).Did _ _ _ _
    rw [kept has]
    exact did holder has
  · have ordered := holds.ordered
    cases has : current with
    | none => rwa [has] at ordered
    | some holder =>
        rw [has, Option.bind_some, ← kept has] at ordered
        exact ordered

/-- No other thread has the lock. -/
theorem Holds.alone {t thread : ι}
    (holds : Holds driver invariant memory effect start (some t) state) (apart : thread ≠ t)
    : (state.threads thread).holding = none := by
  by_contra has
  exact apart (Option.some.inj ((holds.only thread).mp has)).symm

/-- The thread that has the lock goes on in its call. -/
theorem Holds.proceed [DecidableEq ι] {t : ι}
    (holds : Holds driver invariant memory effect start (some t) state)
    {progress : Progress κ ρ ω} {lockHolder : Option ι} {waitFor : Semaphore ι} {device : δ}
    (same : progress.holding = (state.threads t).holding)
    (entered : progress.entering = none)
    (holder
      : ∀ call rest outputs, progress = .inside call rest outputs → lockHolder = some t)
    (kept : invariant device waitFor.value (progress.rest driver))
    (did
      : ∀ before, (state.threads t).Did driver effect before (memory state.device)
        → progress.Did driver effect before (memory device))
    : Holds driver invariant memory effect start (some t)
        {
          state with
          lockHolder
          waitFor
          device
          threads := Function.update state.threads t progress
        } := by
  have some : (state.threads t).holding ≠ none := (holds.only t).mpr rfl
  refine {
    only := ?_
    lock := holds.lock
    holder := ?_
    valid := ?_
    device := ?_
    served := ?_
    ordered := ?_
  }
  · exact (Function.forall_update_iff state.threads
      (fun thread own => own.holding ≠ none ↔ Option.some t = Option.some thread)).mpr
      ⟨⟨fun _ => rfl, fun _ => same ▸ some⟩, fun thread _ => holds.only thread⟩
  · refine (Function.forall_update_iff state.threads
      (fun thread own => ∀ call rest outputs, own = .inside call rest outputs
        → lockHolder = Option.some thread)).mpr
      ⟨holder, fun thread apart call rest outputs inside => ?_⟩
    have idle := holds.alone apart
    rw [inside] at idle
    exact nomatch idle
  · exact (Function.forall_update_iff state.threads
      (fun _ own => ∀ call, own.entering = Option.some call → driver.valid call)).mpr
      ⟨fun call entering => (nomatch entered.symm.trans entering),
        fun thread _ => holds.valid thread⟩
  · change invariant device waitFor.value
      ((Function.update state.threads t progress t).rest driver)
    rwa [Function.update_self]
  · obtain ⟨before, ran, _, progressed⟩ := holds.served
    refine ⟨before, ran, nofun, ?_⟩
    rintro _ ⟨⟩
    change (Function.update state.threads t progress t).Did _ _ _ _
    rw [Function.update_self]
    exact did before (progressed t rfl)
  · have ordered := holds.ordered
    rw [Option.bind_some] at ordered ⊢
    change state.acquired
      = _ ++ (Function.update state.threads t progress t).holding.toList
    rw [Function.update_self, same]
    exact ordered

/-- A thread gets the lock when no other has it. -/
theorem Holds.acquire [DecidableEq ι]
    (protocol : Protocol driver invariant memory effect)
    (holds : Holds driver invariant memory effect start none state) {t : ι} {call : κ}
    (acquiring : state.threads t = .acquiring call) (queue : List ι)
    : Holds driver invariant memory effect start (some t)
        {
          state with
          lock := { value := state.lock.value - 1, queue }
          threads := Function.update state.threads t (.acquired call)
          acquired := state.acquired ++ [call]
        } := by
  have idle (thread : ι) : (state.threads thread).holding = none := by
    by_contra has
    exact nomatch (holds.only thread).mp has
  have valid : driver.valid call := holds.valid t call (by rw [acquiring]; rfl)
  obtain ⟨before, ran, free, _⟩ := holds.served
  refine {
    only := ?_
    lock := ?_
    holder := ?_
    valid := ?_
    device := ?_
    served := ⟨before, ran, nofun, ?_⟩
    ordered := ?_
  }
  · exact (Function.forall_update_iff state.threads
      (fun thread own => own.holding ≠ none ↔ some t = some thread)).mpr
      ⟨⟨fun _ => rfl, fun _ => Option.some_ne_none _⟩,
        fun thread apart => ⟨fun has => absurd (idle thread) has,
          fun has => absurd (Option.some.inj has).symm apart⟩⟩
  · change state.lock.value - 1 = _
    rw [holds.lock]
    rfl
  · exact (Function.forall_update_iff state.threads
      (fun thread own => ∀ call rest outputs, own = .inside call rest outputs
        → state.lockHolder = some thread)).mpr
      ⟨nofun, fun thread _ => holds.holder thread⟩
  · exact (Function.forall_update_iff state.threads
      (fun _ own => ∀ call, own.entering = some call → driver.valid call)).mpr
      ⟨fun other entering => Option.some.inj entering ▸ valid,
        fun thread _ => holds.valid thread⟩
  · change invariant _ _ ((Function.update state.threads t (.acquired call) t).rest driver)
    rw [Function.update_self]
    exact protocol.begin valid holds.device
  · rintro _ ⟨⟩
    change (Function.update state.threads t (.acquired call) t).Did _ _ _ _
    rw [Function.update_self]
    exact free rfl
  · have ordered := holds.ordered
    rw [Option.bind_none, Option.toList_none, List.append_nil] at ordered
    rw [Option.bind_some]
    change state.acquired ++ [call]
      = _ ++ (Function.update state.threads t (.acquired call) t).holding.toList
    rw [Function.update_self, ordered]
    rfl

/-- The thread that has the lock returns. -/
theorem Holds.release [DecidableEq ι] {t : ι}
    (holds : Holds driver invariant memory effect start (some t) state) {call : κ}
    {outputs : List ω} (releasing : state.threads t = .releasing call outputs)
    (queue : List ι)
    : Holds driver invariant memory effect start none
        {
          state with
          lock := { value := state.lock.value + 1, queue }
          threads := Function.update state.threads t .outside
          returned := state.returned ++ [(call, outputs)]
        } := by
  obtain ⟨before, ran, _, progressed⟩ := holds.served
  have did := progressed t rfl
  rw [releasing] at did
  have again : (serial driver.script effect (state.returned.map Prod.fst) start).2 = before := by
    rw [ran]
  refine {
    only := ?_
    lock := ?_
    holder := ?_
    valid := ?_
    device := ?_
    served := ⟨memory state.device, ?_, fun _ => rfl, nofun⟩
    ordered := ?_
  }
  · exact (Function.forall_update_iff state.threads
      (fun thread own => own.holding ≠ none ↔ none = some thread)).mpr
      ⟨⟨fun has => absurd rfl has, nofun⟩,
        fun thread apart => ⟨fun has => absurd (holds.alone apart) has, nofun⟩⟩
  · change state.lock.value + 1 = _
    rw [holds.lock]
    rfl
  · refine (Function.forall_update_iff state.threads
      (fun thread own => ∀ call rest outputs, own = .inside call rest outputs
        → state.lockHolder = some thread)).mpr
      ⟨nofun, fun thread apart other rest values inside => ?_⟩
    have outside := holds.alone apart
    rw [inside] at outside
    exact nomatch outside
  · exact (Function.forall_update_iff state.threads
      (fun _ own => ∀ call, own.entering = some call → driver.valid call)).mpr
      ⟨nofun, fun thread _ => holds.valid thread⟩
  · have device := holds.device
    rw [Option.elim_some, releasing] at device
    exact device
  · change serial driver.script effect ((state.returned ++ [(call, outputs)]).map Prod.fst) start
      = _
    rw [List.map_append, List.map_singleton, serial_snoc, again, did, ran]
  · have ordered := holds.ordered
    rw [Option.bind_some, releasing] at ordered
    change state.acquired = (state.returned ++ [(call, outputs)]).map Prod.fst ++ []
    rw [ordered, List.map_append, List.append_nil]
    rfl

/-- An interrupt changes the device and the semaphore. -/
theorem Holds.interrupt (holds : Holds driver invariant memory effect start current state)
    {device : δ} {waitFor : Semaphore ι} (same : memory device = memory state.device)
    (kept
      : invariant device waitFor.value
          (current.elim [] (fun t => (state.threads t).rest driver)))
    : Holds driver invariant memory effect start current { state with device, waitFor } where
  only := holds.only
  lock := holds.lock
  holder := holds.holder
  valid := holds.valid
  device := kept
  served := by
    obtain ⟨before, ran, free, did⟩ := holds.served
    exact ⟨before, ran, fun none => same.trans (free none), fun t has => same ▸ did t has⟩
  ordered := holds.ordered

/-- Threads that go to sleep stay where they are. -/
theorem Holds.sleep (holds : Holds driver invariant memory effect start current state)
    (lockQueue waitQueue : List ι)
    : Holds driver invariant memory effect start current
        {
          state with
          lock := { state.lock with queue := lockQueue }
          waitFor := { state.waitFor with queue := waitQueue }
        } where
  only := holds.only
  lock := holds.lock
  holder := holds.holder
  valid := holds.valid
  device := holds.device
  served := holds.served
  ordered := holds.ordered

-----------------------------------------------------------------------------------------
-- Runs
-----------------------------------------------------------------------------------------

/-- A thread that is awake goes on without a fault, by cases on where it is. -/
theorem Holds.advance [DecidableEq ι] (protocol : Protocol driver invariant memory effect)
    (holds : Holds driver invariant memory effect start current state) {t : ι}
    (lockAwake : t ∉ state.lock.queue) (awake : t ∉ state.waitFor.queue)
    : ∃ after, driver.advance t state = .ok after
        ∧ ∃ next, Holds driver invariant memory effect start next after := by
  have mine (has : (state.threads t).holding ≠ none) : current = some t := (holds.only t).mp has
  unfold Driver.advance
  cases where_ : state.threads t with
  | outside => exact ⟨_, rfl, _, holds⟩
  | acquiring call =>
      dsimp only
      by_cases taken : state.lock.value = 0
      · rw [bind_ok (Semaphore.p_zero taken lockAwake)]
        exact ⟨_, rfl, _, holds.sleep _ state.waitFor.queue⟩
      · rw [bind_ok (Semaphore.p_of_ne taken)]
        have free : current = none := by
          by_contra held
          rw [holds.lock, if_neg held] at taken
          exact taken rfl
        subst free
        exact ⟨_, rfl, _, holds.acquire protocol where_ _⟩
  | acquired call =>
      obtain rfl := mine (by rw [where_]; exact Option.some_ne_none _)
      refine ⟨_, rfl, _, holds.proceed (by rw [where_]; rfl) rfl (fun _ _ _ _ => rfl) ?_ ?_⟩
      · have device := holds.device
        rw [Option.elim_some, where_] at device
        exact device
      · intro before did
        rw [where_] at did
        exact ⟨[], rfl, by rw [execute, did]⟩
  | inside call rest outputs =>
      obtain rfl := mine (by rw [where_]; exact Option.some_ne_none _)
      have device := holds.device
      rw [Option.elim_some, where_] at device
      have holder := holds.holder t call rest outputs where_
      cases rest with
      | nil =>
          dsimp only
          rw [bind_ok (require_of holder _)]
          refine ⟨_, rfl, _, holds.proceed (by rw [where_]; rfl) rfl ?_ device ?_⟩
          · rintro _ _ _ ⟨⟩
          intro before did
          rw [where_] at did
          obtain ⟨done, all, ran⟩ := did
          change requests (driver.script call) = done ++ [] at all
          rw [List.append_nil] at all
          change execute effect (requests (driver.script call)) before = _
          rw [all]
          exact ran
      | cons instruction rest =>
          cases instruction with
          | request request =>
              dsimp only
              obtain ⟨next, served, moved, kept⟩ := protocol.request device
              rw [bind_ok served]
              refine ⟨_, rfl, _,
                holds.proceed (by rw [where_]; rfl) rfl (fun _ _ _ _ => holder) kept ?_⟩
              intro before did
              rw [where_] at did
              obtain ⟨done, all, ran⟩ := did
              refine ⟨done ++ [request], ?_, ?_⟩
              · rw [all, requests_request, List.append_assoc]
                rfl
              · rw [execute_snoc, ran, moved]
          | p =>
              dsimp only
              by_cases zero : state.waitFor.value = 0
              · rw [bind_ok (Semaphore.p_zero zero awake)]
                exact ⟨_, rfl, _, holds.sleep state.lock.queue _⟩
              · rw [bind_ok (Semaphore.p_of_ne zero)]
                refine ⟨_, rfl, _,
                  holds.proceed (by rw [where_]; rfl) rfl (fun _ _ _ _ => holder)
                    (protocol.p device zero) ?_⟩
                intro before did
                rw [where_] at did
                exact did
  | releasing call outputs =>
      obtain rfl := mine (by rw [where_]; exact Option.some_ne_none _)
      exact ⟨_, rfl, _, holds.release where_ _⟩

/-- Every legal action returns, and leaves one thread at most that has the lock. -/
theorem Holds.perform [DecidableEq ι] (protocol : Protocol driver invariant memory effect)
    (holds : Holds driver invariant memory effect start current state) {action : Action ι κ ε}
    (legal : driver.Legal state action)
    : ∃ after, driver.perform state action = .ok after
        ∧ ∃ next, Holds driver invariant memory effect start next after := by
  cases action with
  | begin t call =>
      obtain ⟨outside, valid⟩ := legal
      refine ⟨_, rfl, _, holds.bystander (by rw [outside]; rfl) rfl ?_⟩
      rintro _ ⟨⟩
      exact valid
  | advance t => exact holds.advance protocol legal.2.1 legal.2.2
  | interrupt surroundings =>
      obtain ⟨signals, device, handled, same, kept⟩ :=
        protocol.callBack surroundings holds.device legal
      refine ⟨_, bind_ok handled _, current, holds.interrupt same ?_⟩
      cases signals <;> exact kept

/-- In every state that a run reaches at most one thread has the lock, and the calls have had
the effect of running one after the other, by induction on the run.
-/
theorem Protocol.holds_of_reachable [DecidableEq ι]
    (protocol : Protocol driver invariant memory effect) {device : δ}
    (initially : invariant device 0 [])
    (reachable : Runs.Reachable (@Driver.Step ι κ ρ ω δ ε _ driver) (initial device) state)
    : ∃ current, Holds driver invariant memory effect (memory device) current state := by
  refine @Runs.Reachable.invariant _ _ _ _ _
    (fun middle =>
      ∃ current, Holds driver invariant memory effect (memory device) current middle)
    reachable ⟨none, initial_holds initially⟩ ?_
  rintro before action after ⟨current, holds⟩ ⟨legal, performed⟩
  obtain ⟨_, returned, kept⟩ := holds.perform protocol legal
  rw [performed] at returned
  obtain rfl := Except.ok.inj returned
  exact kept

end Nachos.SynchDevice
