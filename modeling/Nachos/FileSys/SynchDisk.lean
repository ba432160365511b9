import Nachos.FileSys.Disk
import Nachos.KernelLib.BusyDevice

/-! `SynchDisk` over the simulated disk: concurrent reads and writes of sectors are serialized
by a lock, and wait for the interrupt of the disk. Latencies are left open.
-/

namespace Nachos.FileSys
open SynchDevice Routines

/-- A request of a thread to the disk, with its data for a write. -/
inductive DiskRequest where
  | read (sectorNumber : Int)
  | write (sectorNumber : Int) (data : Sector)

/-- A call of `SynchDisk`. -/
inductive SectorCall where
  | readSector (sectorNumber : Int)
  | writeSector (sectorNumber : Int) (data : Sector)

namespace SynchDisk

/-- `Disk::ReadRequest`: the data is read at once. -/
def readRequest (sectorNumber : Int) (disk : BusyDevice Disk)
    : Except Fault (Option Sector × BusyDevice Disk) :=
  disk.serve (IsSector sectorNumber) (fun contents => (some (contents sectorNumber), contents))

/-- `Disk::WriteRequest`. -/
def writeRequest (sectorNumber : Int) (data : Sector) (disk : BusyDevice Disk)
    : Except Fault (Option Sector × BusyDevice Disk) :=
  disk.serve (IsSector sectorNumber)
    (fun contents => (none, Function.update contents sectorNumber data))

/-- `ReadSector` and `WriteSector` under the lock, and `Disk::CallBack`, which signals. -/
def synchDisk : Driver SectorCall DiskRequest (Option Sector) (BusyDevice Disk) Unit where
  valid
    | .readSector sectorNumber | .writeSector sectorNumber _ => IsSector sectorNumber
  script
    | .readSector sectorNumber => [.request (.read sectorNumber), .p]
    | .writeSector sectorNumber data => [.request (.write sectorNumber data), .p]
  request
    | .read sectorNumber => readRequest sectorNumber
    | .write sectorNumber data => writeRequest sectorNumber data
  pending disk := 0 < disk.scheduled
  callBack _ disk := .ok disk.callBack

instance : DecidablePred synchDisk.valid
  | .readSector sectorNumber | .writeSector sectorNumber _ =>
      inferInstanceAs (Decidable (IsSector sectorNumber))

instance : DecidablePred synchDisk.pending :=
  fun disk => inferInstanceAs (Decidable (0 < disk.scheduled))

-----------------------------------------------------------------------------------------
-- Effects of requests
-----------------------------------------------------------------------------------------

/-- The value and the contents of the disk after a request. -/
def effect : DiskRequest → Disk → Option Sector × Disk
  | .read sectorNumber, contents => (some (contents sectorNumber), contents)
  | .write sectorNumber data, contents => (none, Function.update contents sectorNumber data)

def accepts : DiskRequest → Prop
  | .read sectorNumber | .write sectorNumber _ => IsSector sectorNumber

-----------------------------------------------------------------------------------------
-- Serial calls
-----------------------------------------------------------------------------------------

/-- What the last write among the calls left in a sector. -/
def latestWrite (sectorNumber : Int) (initially : Sector) (calls : List SectorCall) : Sector :=
  calls.foldl
    (fun sector call =>
      match call with
      | .readSector _ => sector
      | .writeSector other data => if other = sectorNumber then data else sector)
    initially

/-- Calls made one after the other leave the latest write in every sector, by induction on
them.
-/
theorem serial_contents (calls : List SectorCall) (contents : Disk) (sectorNumber : Int)
    : (serial synchDisk.script effect calls contents).2 sectorNumber
      = latestWrite sectorNumber (contents sectorNumber) calls := by
  induction calls generalizing contents with
  | nil => rfl
  | cons call rest ih =>
      refine (ih _).trans ?_
      cases call with
      | readSector other => rfl
      | writeSector other data =>
          change latestWrite _ (Function.update contents other data sectorNumber) rest
            = latestWrite _ (if other = sectorNumber then data else contents sectorNumber) rest
          by_cases same : other = sectorNumber
          · rw [if_pos same, same, Function.update_self]
          · rw [if_neg same, Function.update_of_ne (Ne.symm same)]

/-- Each call makes one request, and each accepted request to the idle disk has its effect, by
cases on them.
-/
theorem drives : Drives synchDisk accepts effect where
  script := by
    intro call valid
    cases call <;> exact .cons valid .nil
  request := by
    intro request device accepted idle
    cases request with
    | read sectorNumber =>
        have isSector : IsSector sectorNumber := accepted
        exact (BusyDevice.serve_of idle isSector (effect (.read sectorNumber))).trans
          (BusyDevice.serve_of idle trivial _).symm
    | write sectorNumber data =>
        have isSector : IsSector sectorNumber := accepted
        exact (BusyDevice.serve_of idle isSector (effect (.write sectorNumber data))).trans
          (BusyDevice.serve_of idle trivial _).symm
  pending := id
  callBack := rfl

variable {ι : Type} [DecidableEq ι]

/-- Calls of `SynchDisk` by any threads: no assertion fails, the semaphore counts at most one
interrupt and none while the lock is free, calls return after the interrupts of all requests,
and they read what the calls that had the lock before them wrote last.
-/
theorem synchDisk_serializes (contents : Disk)
    (state : State ι SectorCall DiskRequest (Option Sector) (BusyDevice Disk))
    (reachable : Runs.Reachable synchDisk.Step (initial (BusyDevice.new contents)) state)
    : (∀ action, synchDisk.Legal state action
        → ∃ after, synchDisk.perform state action = .ok after)
      ∧ (0 ≤ state.waitFor.value ∧ state.waitFor.value ≤ 1)
      ∧ (state.lock.value ≠ 0 ∨ state.lockHolder = none → state.waitFor.value = 0)
      ∧ (∀ t call outputs, state.threads t = .releasing call outputs
        → state.device.completed = state.device.requested)
      ∧ state.returned.map Prod.fst <+: state.acquired
      ∧ ∀ before sectorNumber outputs later,
          state.returned = before ++ (.readSector sectorNumber, outputs) :: later
          → outputs
            = [some
                (latestWrite sectorNumber (contents sectorNumber) (before.map Prod.fst))] := by
  obtain ⟨current, holds⟩ :=
    drives.protocol.holds_of_reachable (InStep.idle Alternates.nil) reachable
  refine ⟨?_, holds.device.value_le, ?_, ?_, ⟨_, holds.ordered.symm⟩, ?_⟩
  · intro action legal
    obtain ⟨after, performed, _⟩ := holds.perform drives.protocol legal
    exact ⟨after, performed⟩
  · exact drives.value_of_free holds
  · exact fun _ _ _ releasing => completed_of_releasing holds releasing
  · intro before sectorNumber outputs later split
    obtain ⟨_, ran, _⟩ := holds.served
    have ran := congrArg Prod.fst ran
    rw [split] at ran
    rw [outputs_of_serial ran]
    change [some ((serial synchDisk.script effect _ _).2 sectorNumber)] = _
    rw [serial_contents]

/-- One thread writes a sector, and its interrupt comes before it waits. Another thread, which
waits for the lock, then reads the sector.
-/
theorem synchDisk_serializes_two_calls
    : let data : Sector := .ofBuffer (fun _ => 7)
      ∃ state : State Bool SectorCall DiskRequest (Option Sector) (BusyDevice Disk),
        state.returned = [(.writeSector 3 data, [none]), (.readSector 3, [some data])]
        ∧ state.returned.map Prod.fst <+: state.acquired := by
  intro data
  let contents : Disk := fun _ => .ofBuffer (fun _ => 0)
  let actions : List (Action Bool SectorCall Unit) :=
    [.begin false (.writeSector 3 data), .advance false, .begin true (.readSector 3),
      .advance true, .advance false, .advance false, .interrupt (), .advance false,
      .advance false, .advance false, .advance true, .advance true, .advance true,
      .interrupt (), .advance true, .advance true, .advance true]
  have reachable :=
    @Runs.Reachable.of_follow _ _ _ _ _ _ synchDisk.next
      (fun _ _ _ => synchDisk.step_of_next) actions (.refl (initial (BusyDevice.new contents)))
      rfl
  exact ⟨_, rfl, (synchDisk_serializes contents _ reachable).2.2.2.2.1⟩

end SynchDisk

end Nachos.FileSys
