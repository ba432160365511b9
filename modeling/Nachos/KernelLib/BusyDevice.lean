import Nachos.KernelLib.SerialAccess

/-! Devices that serve one request at a time and interrupt when it is done, used by calls that
wait for the interrupt after every request.
-/

namespace Nachos.SynchDevice
open Outcome

/-- A device on a medium. The numbers of requests and of interrupts so far are kept for
reference only.
-/
structure BusyDevice (σ : Type) where
  busy : Bool
  medium : σ
  /-- Interrupts that are scheduled. -/
  scheduled : Nat
  requested : Nat
  completed : Nat

namespace BusyDevice

variable {σ ω : Type}

def new (medium : σ) : BusyDevice σ :=
  { busy := false, medium, scheduled := 0, requested := 0, completed := 0 }

/-- A request that the device accepts has its effect at once, and schedules an interrupt. -/
def serve (accepted : Prop) [Decidable accepted] (effect : σ → ω × σ) (device : BusyDevice σ)
    : Except Fault (ω × BusyDevice σ) := do
  require (device.busy = false) .assertion
  require accepted .assertion
  let served := effect device.medium
  return (served.1,
    {
      busy := true
      medium := served.2
      scheduled := device.scheduled + 1
      requested := device.requested + 1
      completed := device.completed
    })

/-- The interrupt, which signals the semaphore. -/
def callBack (device : BusyDevice σ) : Bool × BusyDevice σ :=
  (true,
    {
      device with
      busy := false
      scheduled := device.scheduled - 1
      completed := device.completed + 1
    })

/-- An idle device serves what it accepts. -/
theorem serve_of {accepted : Prop} [Decidable accepted] {device : BusyDevice σ}
    (idle : device.busy = false) (holds : accepted) (effect : σ → ω × σ)
    : device.serve accepted effect
      = .ok ((effect device.medium).1,
          {
            busy := true
            medium := (effect device.medium).2
            scheduled := device.scheduled + 1
            requested := device.requested + 1
            completed := device.completed
          }) := by
  rw [serve, bind_ok (require_of idle _), bind_ok (require_of holds _)]
  rfl

end BusyDevice

variable {κ ρ ω σ : Type}

/-- Every request is accepted, and followed by a wait. -/
inductive Alternates (accepts : ρ → Prop) : List (Instruction ρ) → Prop
  | nil : Alternates accepts []
  | cons {request : ρ} {rest : List (Instruction ρ)} (accepted : accepts request)
      (others : Alternates accepts rest)
      : Alternates accepts (.request request :: .p :: rest)

/-- Before a request nothing is under way. After it either the device is busy or the semaphore
tells that it is done.
-/
inductive InStep (accepts : ρ → Prop)
    : BusyDevice σ → Int → List (Instruction ρ) → Prop
  | idle {medium : σ} {requests : Nat} {rest : List (Instruction ρ)}
      (alternates : Alternates accepts rest)
      : InStep accepts
          { busy := false, medium, scheduled := 0, requested := requests, completed := requests }
          0 rest
  | busy {medium : σ} {completed : Nat} {rest : List (Instruction ρ)}
      (alternates : Alternates accepts rest)
      : InStep accepts
          { busy := true, medium, scheduled := 1, requested := completed + 1, completed }
          0 (.p :: rest)
  | done {medium : σ} {requests : Nat} {rest : List (Instruction ρ)}
      (alternates : Alternates accepts rest)
      : InStep accepts
          { busy := false, medium, scheduled := 0, requested := requests, completed := requests }
          1 (.p :: rest)

/-- A driver of such a device. -/
structure Drives (driver : Driver κ ρ ω (BusyDevice σ) Unit) (accepts : ρ → Prop)
    (effect : ρ → σ → ω × σ)
    : Prop where
  script : ∀ {call}, driver.valid call → Alternates accepts (driver.script call)
  request
    : ∀ {request device}, accepts request → device.busy = false
      → driver.request request device = device.serve True (effect request)
  pending : ∀ {device}, driver.pending device → 0 < device.scheduled
  callBack
    : ∀ {surroundings device}, driver.callBack surroundings device = .ok device.callBack

variable {driver : Driver κ ρ ω (BusyDevice σ) Unit} {accepts : ρ → Prop}
  {effect : ρ → σ → ω × σ}

/-- Requests and interrupts stay in step. -/
theorem Drives.protocol (drives : Drives driver accepts effect)
    : Protocol driver (InStep accepts) BusyDevice.medium effect where
  begin := by
    rintro device value call valid (_ | _ | _)
    exact .idle (drives.script valid)
  request := by
    intro device value request rest inStep
    cases inStep with
    | idle alternates =>
        cases alternates with
        | cons accepted others =>
            exact ⟨_, drives.request accepted rfl, rfl, .busy others⟩
  p := by
    intro device value rest inStep available
    cases inStep with
    | idle alternates => exact nomatch alternates
    | busy => exact absurd rfl available
    | done alternates => exact .idle alternates
  callBack := by
    intro device value rest surroundings inStep pending
    have scheduled := drives.pending pending
    refine ⟨true, _, drives.callBack, rfl, ?_⟩
    cases inStep with
    | idle => exact absurd scheduled (Nat.lt_irrefl _)
    | busy alternates => exact .done alternates
    | done => exact absurd scheduled (Nat.lt_irrefl _)

theorem InStep.of_nil {device : BusyDevice σ} {value : Int}
    (inStep : InStep accepts device value [])
    : value = 0 ∧ device.completed = device.requested := by
  cases inStep with
  | idle => exact ⟨rfl, rfl⟩

theorem InStep.value_le {device : BusyDevice σ} {value : Int} {rest : List (Instruction ρ)}
    (inStep : InStep accepts device value rest)
    : 0 ≤ value ∧ value ≤ 1 := by
  cases inStep <;> exact ⟨by decide, by decide⟩

/-- Where no request is under way the semaphore is zero. -/
theorem InStep.of_alternates {device : BusyDevice σ} {value : Int}
    {rest : List (Instruction ρ)} (inStep : InStep accepts device value rest)
    (alternates : Alternates accepts rest)
    : value = 0 := by
  cases inStep with
  | idle => rfl
  | busy => rfl
  | done => exact nomatch alternates

-----------------------------------------------------------------------------------------
-- States of a run
-----------------------------------------------------------------------------------------

variable {ι : Type} {state : State ι κ ρ ω (BusyDevice σ)} {start : σ} {current : Option ι}

/-- While the lock is free the semaphore is zero. -/
theorem Drives.value_of_free (drives : Drives driver accepts effect)
    (holds : Holds driver (InStep accepts) BusyDevice.medium effect start current state)
    (free : state.lock.value ≠ 0 ∨ state.lockHolder = none)
    : state.waitFor.value = 0 := by
  have device := holds.device
  cases has : current with
  | none =>
      rw [has] at device
      exact device.of_nil.1
  | some t =>
      have unheld : state.lockHolder = none := by
        rcases free with available | unheld
        · rw [holds.lock, has] at available
          exact absurd rfl available
        · exact unheld
      rw [has, Option.elim_some] at device
      cases where_ : state.threads t with
      | outside | acquiring call | releasing call outputs =>
          rw [where_] at device
          exact device.of_nil.1
      | acquired call =>
          rw [where_] at device
          exact device.of_alternates
            (drives.script (holds.valid t call (by rw [where_]; rfl)))
      | inside call rest outputs =>
          have held := holds.holder t call rest outputs where_
          rw [unheld] at held
          exact nomatch held

/-- A call returns after the interrupts of all requests. -/
theorem completed_of_releasing
    (holds : Holds driver (InStep accepts) BusyDevice.medium effect start current state)
    {t : ι} {call : κ} {outputs : List ω} (releasing : state.threads t = .releasing call outputs)
    : state.device.completed = state.device.requested := by
  have device := holds.device
  have mine : current = some t := by
    refine (holds.only t).mp ?_
    rw [releasing]
    exact Option.some_ne_none _
  rw [mine, Option.elim_some, releasing] at device
  exact device.of_nil.2

end Nachos.SynchDevice
