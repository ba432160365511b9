import Nachos.KernelLib.SortedList
import Nachos.Lib.CInt
import Nachos.Lib.Outcome
import Nachos.Lib.Runs
import Nachos.Threads.Kernel

/-! The simulation of interrupts: the clock, the pending interrupts, and the loop that calls
the handlers that are due.
-/

namespace Nachos.Machine
open Threads (IntStatus MachineStatus)
open Outcome

inductive IntType where
  | timerInt
  | diskInt
  | consoleWriteInt
  | consoleReadInt
  | networkSendInt
  | networkRecvInt
  deriving DecidableEq

/-- Why the simulation stops: a fault, or signed arithmetic past the range of `int`. -/
inductive Crash where
  | fault (cause : Fault)
  | overflow
  deriving DecidableEq

/-- A `PendingInterrupt`, for devices `δ`. Objects are numbered in the order of `new`. -/
structure PendingInterrupt (δ : Type) where
  callOnInterrupt : δ
  when : Int
  type : IntType
  address : Nat
  deriving DecidableEq

section Compare

variable {δ : Type}

def pendingCompare (x y : PendingInterrupt δ) : Int :=
  if x.when < y.when then -1 else if x.when > y.when then 1 else 0

theorem pendingCompare_neg (x y : PendingInterrupt δ)
    : pendingCompare x y < 0 ↔ x.when < y.when := by
  unfold pendingCompare
  split_ifs <;> omega

theorem pendingCompare_nonpos (x y : PendingInterrupt δ)
    : pendingCompare x y ≤ 0 ↔ x.when ≤ y.when := by
  unfold pendingCompare
  split_ifs <;> omega

instance : SignOrder (@pendingCompare δ) where
  reverse above := by
    rw [pendingCompare_neg] at above
    rw [pendingCompare_nonpos]
    omega
  trans first second := by
    rw [pendingCompare_nonpos] at *
    omega

end Compare

structure Statistics where
  totalTicks : Int
  idleTicks : Int
  systemTicks : Int
  userTicks : Int
  deriving DecidableEq

/-- What the machine holds. The rest of the kernel is in `others`. The last two fields are
kept for reference only: all interrupts in the order in which they were scheduled, and those
delivered with the clock at that time.
-/
structure Simulation (δ σ : Type) where
  interrupt : Threads.Interrupt
  pending : SortedList (@pendingCompare δ)
  stats : Statistics
  others : σ
  halted : Bool
  scheduled : List (PendingInterrupt δ)
  delivered : List (PendingInterrupt δ × Int)

/-- The arguments of `Schedule`. -/
structure Request (δ : Type) where
  toCall : δ
  fromNow : Int
  type : IntType

/-- What a handler does: it changes the rest of the kernel, schedules interrupts, and may ask
for a context switch.
-/
structure Reaction (δ σ : Type) where
  others : σ
  requests : List (Request δ)
  yieldOnReturn : Bool

/-- The `CallBack` of every device. -/
abbrev Handlers (δ σ : Type) := δ → Simulation δ σ → Except Fault (Reaction δ σ)

namespace Simulation

variable {δ σ : Type}

-----------------------------------------------------------------------------------------
-- Scheduling
-----------------------------------------------------------------------------------------

def systemTick : Int := 10

def userTick : Int := 1

/-- Addition of `int` numbers of ticks. -/
def addTicks (left right : Int) : Except Crash Int :=
  if CInt.InRange (left + right) then .ok (left + right) else .error .overflow

def totalTicks (machine : Simulation δ σ) : Int := machine.stats.totalTicks

/-- Whether the first pending interrupt is due. -/
def isDue (machine : Simulation δ σ) : Bool :=
  match machine.pending.front? with
  | none => false
  | some next => next.when ≤ machine.totalTicks

/-- `new PendingInterrupt`. -/
def newInterrupt (toCall : δ) (when : Int) (type : IntType) (machine : Simulation δ σ)
    : PendingInterrupt δ :=
  { callOnInterrupt := toCall, when, type, address := machine.scheduled.length }

variable [DecidableEq δ]

def schedule (toCall : δ) (fromNow : Int) (type : IntType) (machine : Simulation δ σ)
    : Except Crash (Simulation δ σ) := do
  let when ← addTicks machine.totalTicks fromNow
  let toOccur := machine.newInterrupt toCall when type
  require (0 < fromNow) (.fault .assertion)
  let pending ← (machine.pending.insert toOccur).mapError .fault
  return { machine with pending, scheduled := machine.scheduled ++ [toOccur] }

/-- The requests of a handler, one after the other. -/
def scheduleAll : List (Request δ) → Simulation δ σ → Except Crash (Simulation δ σ)
  | [], machine => .ok machine
  | request :: rest, machine => do
      let scheduled ← machine.schedule request.toCall request.fromNow request.type
      scheduleAll rest scheduled

-----------------------------------------------------------------------------------------
-- Delivery
-----------------------------------------------------------------------------------------

/-- `YieldOnReturn`, if the handler calls it. -/
def yieldOnReturn (asked : Bool) (machine : Simulation δ σ)
    : Except Crash (Simulation δ σ) := do
  require (asked = true → machine.interrupt.inHandler = true) (.fault .assertion)
  return {
    machine with interrupt.yieldOnReturn := machine.interrupt.yieldOnReturn || asked
  }

/-- The machine after its first pending interrupt was taken off the list. -/
def pulled (next : PendingInterrupt δ) (machine : Simulation δ σ) : Simulation δ σ :=
  {
    machine with
    pending := machine.pending.rest
    delivered := machine.delivered ++ [(next, machine.totalTicks)]
  }

/-- Take the first interrupt off the list and call its handler. -/
def deliverFront (handlers : Handlers δ σ) (machine : Simulation δ σ)
    : Except Crash (Simulation δ σ) := do
  let (next, _) ← machine.pending.removeFront.mapError .fault
  let reaction ← (handlers next.callOnInterrupt (machine.pulled next)).mapError .fault
  let called := { machine.pulled next with others := reaction.others }
  let asked ← called.yieldOnReturn reaction.yieldOnReturn
  asked.scheduleAll reaction.requests

/-- The loop of `CheckIfDue`. -/
def deliverDue (handlers : Handlers δ σ)
    : Nat → Simulation δ σ → Except Crash (Simulation δ σ)
  | 0, _ => .error (.fault .endless)
  | fuel + 1, machine => do
      let called ← machine.deliverFront handlers
      if called.isDue then deliverDue handlers fuel called else return called

/-- Advance the clock to the next interrupt if it lies in the future. -/
def advanceTo (when : Int) (machine : Simulation δ σ) : Simulation δ σ :=
  if when > machine.totalTicks then
    {
      machine with
      stats.idleTicks := machine.stats.idleTicks + (when - machine.totalTicks)
      stats.totalTicks := when
    }
  else machine

/-- Call the handlers that are due, with fuel for the interrupts that are pending. -/
def fire (handlers : Handlers δ σ) (machine : Simulation δ σ)
    : Except Crash (Simulation δ σ) := do
  let entered := { machine with interrupt.inHandler := true }
  let called ← entered.deliverDue handlers entered.pending.items.length
  return { called with interrupt.inHandler := false }

def checkIfDue (handlers : Handlers δ σ) (advanceClock : Bool) (machine : Simulation δ σ)
    : Except Crash (Bool × Simulation δ σ) := do
  require (machine.interrupt.level = .intOff) (.fault .assertion)
  match machine.pending.front? with
  | none => return (false, machine)
  | some next =>
      if next.when > machine.totalTicks ∧ advanceClock = false then return (false, machine)
      else
        let fired ← (machine.advanceTo next.when).fire handlers
        return (true, fired)

-----------------------------------------------------------------------------------------
-- Time
-----------------------------------------------------------------------------------------

/-- The clock of `OneTick`. -/
def tick (machine : Simulation δ σ) : Except Crash (Simulation δ σ) :=
  if machine.interrupt.status = .systemMode then do
    let totalTicks ← addTicks machine.totalTicks systemTick
    let systemTicks := machine.stats.systemTicks + systemTick
    return {
      machine with stats.totalTicks := totalTicks, stats.systemTicks := systemTicks
    }
  else do
    let totalTicks ← addTicks machine.totalTicks userTick
    let userTicks := machine.stats.userTicks + userTick
    return { machine with stats.totalTicks := totalTicks, stats.userTicks := userTicks }

def changeLevel (now : IntStatus) (machine : Simulation δ σ) : Simulation δ σ :=
  { machine with interrupt.level := now }

/-- `OneTick` up to `Yield`, in which other threads go on. Its last assignment is a later
`setStatus`.
-/
def oneTick (handlers : Handlers δ σ) (machine : Simulation δ σ)
    : Except Crash (Simulation δ σ) := do
  let ticked ← machine.tick
  let (_, checked) ← (ticked.changeLevel .intOff).checkIfDue handlers false
  let handled := checked.changeLevel .intOn
  if handled.interrupt.yieldOnReturn then
    return {
      handled with interrupt.yieldOnReturn := false, interrupt.status := .systemMode
    }
  else return handled

def setLevel (handlers : Handlers δ σ) (now : IntStatus) (machine : Simulation δ σ)
    : Except Crash (Simulation δ σ) := do
  require (now = .intOff ∨ machine.interrupt.inHandler = false) (.fault .assertion)
  let changed := machine.changeLevel now
  if now = .intOn ∧ machine.interrupt.level = .intOff then changed.oneTick handlers
  else return changed

/-- `Idle`, which halts the machine when no interrupt is pending. -/
def idle (handlers : Handlers δ σ) (machine : Simulation δ σ)
    : Except Crash (Simulation δ σ) := do
  let idling := { machine with interrupt.status := .idleMode }
  let (fired, checked) ← idling.checkIfDue handlers true
  if fired then return { checked with interrupt.status := .systemMode }
  else return { checked with halted := true }

-----------------------------------------------------------------------------------------
-- Runs
-----------------------------------------------------------------------------------------

/-- What devices and the kernel ask of the simulation, and what they do beside it. -/
inductive Operation (δ σ : Type) where
  | schedule (toCall : δ) (fromNow : Int) (type : IntType)
  | setLevel (now : IntStatus)
  | oneTick
  | idle
  | setStatus (status : MachineStatus)
  /-- The rest of the kernel works. -/
  | proceed (others : σ)

def perform (handlers : Handlers δ σ) (operation : Operation δ σ)
    (machine : Simulation δ σ)
    : Except Crash (Simulation δ σ) :=
  match operation with
  | .schedule toCall fromNow type => machine.schedule toCall fromNow type
  | .setLevel now => machine.setLevel handlers now
  | .oneTick => machine.oneTick handlers
  | .idle => machine.idle handlers
  | .setStatus status => .ok { machine with interrupt.status := status }
  | .proceed others => .ok { machine with others }

/-- An operation that returns, on a machine that has not halted. -/
def Step (handlers : Handlers δ σ) (machine : Simulation δ σ) (operation : Operation δ σ)
    (after : Simulation δ σ)
    : Prop :=
  machine.halted = false ∧ machine.perform handlers operation = .ok after

/-- The constructors of `Interrupt` and `Statistics`. -/
def initial (others : σ) : Simulation δ σ where
  interrupt :=
    { level := .intOff, inHandler := false, yieldOnReturn := false, status := .systemMode }
  pending := .empty
  stats := { totalTicks := 0, idleTicks := 0, systemTicks := 0, userTicks := 0 }
  others := others
  halted := false
  scheduled := []
  delivered := []

end Simulation

end Nachos.Machine
