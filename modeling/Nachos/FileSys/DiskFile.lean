import Nachos.FileSys.Disk
import Nachos.Lib.Outcome
import Nachos.Lib.Runs

/-! The disk in a file of the host: a magic number and behind it the sectors, which the requests
of the simulated device read and write.
-/

namespace Nachos.FileSys

open Bytes Outcome

theorem Sector.ofBuffer_bytes (data : Sector) : Sector.ofBuffer data.bytes = data := by
  apply Vector.ext
  intro index inside
  rw [Sector.ofBuffer, Vector.getElem_ofFn, Sector.bytes, Vector.getElem?_eq_getElem inside,
    Option.getD_some]

theorem Sector.ofBuffer_congr {left right : Buffer}
    (same : ∀ index < sectorSize, left index = right index)
    : Sector.ofBuffer left = Sector.ofBuffer right := by
  apply Vector.ext
  intro index inside
  rw [Sector.ofBuffer, Sector.ofBuffer, Vector.getElem_ofFn, Vector.getElem_ofFn]
  exact same index inside

-----------------------------------------------------------------------------------------
-- Files of the host
-----------------------------------------------------------------------------------------

/-- A file of the host. Bytes that were never written are zero. -/
structure HostFile where
  bytes : Buffer
  length : Nat
  hole : ∀ offset, length ≤ offset → bytes offset = 0

namespace HostFile

/-- A file just created. -/
def empty : HostFile := { bytes := fun _ => 0, length := 0, hole := fun _ _ => rfl }

/-- `Lseek` and `Read`, which asserts that all bytes are there. -/
def read (offset nBytes : Nat) (file : HostFile) : Except Fault Buffer := do
  require (offset + nBytes ≤ file.length) .assertion
  return fun index => file.bytes (offset + index)

/-- `Lseek` and `WriteFile`. -/
def write (offset : Nat) (source : Buffer) (nBytes : Nat) (file : HostFile) : HostFile where
  bytes := blit file.bytes offset source nBytes
  length := max file.length (offset + nBytes)
  hole := fun place outside => by
    rw [blit_outside _ _ (by omega)]
    exact file.hole place (by omega)

end HostFile

-----------------------------------------------------------------------------------------
-- The device
-----------------------------------------------------------------------------------------

def magicNumber : Int := 0x456789ab

def magicSize : Nat := 4

def diskSize : Nat := magicSize + numSectors * sectorSize

/-- A `Disk` with its file. -/
structure DiskDevice where
  file : HostFile
  active : Bool

namespace DiskDevice

/-- The constructor, with the file that the host has under the name of the disk, if any. -/
def new (found : Option HostFile) : Except Fault DiskDevice :=
  match found with
  | some file => do
      let magicNum ← file.read 0 magicSize
      require (intAt magicNum 0 = magicNumber) .assertion
      return { file, active := false }
  | none =>
      let marked := HostFile.empty.write 0 (fun index => intByte magicNumber index) magicSize
      return { file := marked.write (diskSize - 4) (fun index => intByte 0 index) 4, active := false }

/-- The place of a sector in the file. -/
def place (sectorNumber : Int) : Nat := sectorSize * sectorNumber.toNat + magicSize

def readRequest (sectorNumber : Int) (device : DiskDevice)
    : Except Fault (Sector × DiskDevice) := do
  require (device.active = false) .assertion
  require (IsSector sectorNumber) .assertion
  let data ← device.file.read (place sectorNumber) sectorSize
  return (Sector.ofBuffer data, { device with active := true })

def writeRequest (sectorNumber : Int) (data : Sector) (device : DiskDevice)
    : Except Fault DiskDevice := do
  require (device.active = false) .assertion
  require (IsSector sectorNumber) .assertion
  return {
    file := device.file.write (place sectorNumber) data.bytes sectorSize
    active := true
  }

/-- The interrupt, before it goes on to `SynchDisk`. -/
def callBack (device : DiskDevice) : DiskDevice := { device with active := false }

/-- The sectors in the file. -/
def sectors (device : DiskDevice) : Disk :=
  fun sectorNumber =>
    Sector.ofBuffer (fun index => device.file.bytes (place sectorNumber + index))

-----------------------------------------------------------------------------------------
-- Sectors in the file
-----------------------------------------------------------------------------------------

/-- A file that is a disk: the magic number is there, and all sectors are inside. -/
structure IsDisk (device : DiskDevice) : Prop where
  magic : ∀ index < magicSize, device.file.bytes index = intByte magicNumber index
  whole : diskSize ≤ device.file.length

variable {device after : DiskDevice} {sectorNumber other : Int} {data : Sector}

theorem place_inside (isSector : IsSector sectorNumber)
    : place sectorNumber + sectorSize ≤ diskSize := by
  obtain ⟨nonneg, small⟩ := isSector
  unfold place diskSize
  rw [numSectors_eq, sectorSize_eq, magicSize] at *
  omega

/-- Different sectors have different places. -/
theorem place_apart (isSector : IsSector sectorNumber) (isOther : IsSector other)
    (apart : other ≠ sectorNumber) {index : Nat} (inside : index < sectorSize)
    : place other + index < place sectorNumber
      ∨ place sectorNumber + sectorSize ≤ place other + index := by
  have different : other.toNat ≠ sectorNumber.toNat := by
    have low := isSector.1
    have lowOther := isOther.1
    omega
  unfold place
  rw [sectorSize_eq] at *
  omega

/-- A new disk has zeros in all sectors. -/
theorem new_none
    : ∃ device, new none = .ok device ∧ device.active = false ∧ device.IsDisk
      ∧ ∀ sectorNumber, IsSector sectorNumber
        → device.sectors sectorNumber = Sector.ofBuffer (fun _ => 0) := by
  refine ⟨_, rfl, rfl, ⟨fun index small => ?_, ?_⟩, fun sectorNumber isSector => ?_⟩
  · unfold magicSize at small
    refine (blit_outside _ _ (.inl ?_)).trans (blit_inside _ _ (Nat.zero_le _) ?_)
    · rw [diskSize, magicSize, numSectors_eq, sectorSize_eq]
      omega
    · unfold magicSize
      omega
  · exact (Nat.le_of_eq (by decide)).trans (Nat.le_max_right _ _)
  · refine Sector.ofBuffer_congr (fun index inside => ?_)
    have low : magicSize ≤ place sectorNumber + index := by
      unfold place
      omega
    have zero : ∀ byte, intByte 0 byte = 0 := fun byte => by
      unfold intByte wordByte
      simp [CInt.unsigned]
    change blit (blit _ 0 _ magicSize) (diskSize - 4) _ 4 _ = 0
    by_cases last : diskSize - 4 ≤ place sectorNumber + index
        ∧ place sectorNumber + index < diskSize - 4 + 4
    · rw [blit_inside _ _ last.1 last.2]
      exact zero _
    · rw [blit_outside _ _ (by omega), blit_outside _ _ (.inr (by omega))]
      rfl

/-- The next kernel finds the disk as it is. -/
theorem IsDisk.new_some (isDisk : device.IsDisk)
    : new (some device.file) = .ok { device with active := false } := by
  have inside : 0 + magicSize ≤ device.file.length :=
    Nat.le_trans (by decide) isDisk.whole
  have magic : intAt (fun index => device.file.bytes (0 + index)) 0 = magicNumber := by
    refine intAt_eq_of_bytes (by decide) (fun index small => ?_)
    rw [Nat.zero_add, Nat.zero_add]
    exact isDisk.magic index small
  have read : device.file.read 0 magicSize = .ok (fun index => device.file.bytes (0 + index)) :=
    bind_ok (require_of inside _) _
  rw [new, bind_ok read, bind_ok (require_of magic _)]
  rfl

/-- A request to an idle disk reads the sector from its place in the host's file. -/
theorem IsDisk.readRequest (isDisk : device.IsDisk) (idle : device.active = false)
    (isSector : IsSector sectorNumber)
    : device.readRequest sectorNumber
      = .ok (device.sectors sectorNumber, { device with active := true }) := by
  have inside : place sectorNumber + sectorSize ≤ device.file.length :=
    (place_inside isSector).trans isDisk.whole
  rw [DiskDevice.readRequest, bind_ok (require_of idle _), bind_ok (require_of isSector _),
    HostFile.read, bind_ok (require_of inside _)]
  rfl

/-- A write changes its sector and no other. -/
theorem IsDisk.writeRequest (isDisk : device.IsDisk) (idle : device.active = false)
    (isSector : IsSector sectorNumber) (data : Sector)
    : ∃ after, device.writeRequest sectorNumber data = .ok after ∧ after.active = true
      ∧ after.IsDisk ∧ after.sectors sectorNumber = data
      ∧ ∀ other, IsSector other → other ≠ sectorNumber
        → after.sectors other = device.sectors other := by
  refine ⟨
    {
      file := device.file.write (place sectorNumber) data.bytes sectorSize
      active := true
    }, ?_, rfl, ⟨fun index small => ?_, ?_⟩, ?_, fun other isOther apart => ?_⟩
  · rw [DiskDevice.writeRequest, bind_ok (require_of idle _), bind_ok (require_of isSector _)]
    rfl
  · refine (blit_outside _ _ (.inl ?_)).trans (isDisk.magic index small)
    unfold place
    omega
  · exact isDisk.whole.trans (Nat.le_max_left _ _)
  · refine (Sector.ofBuffer_congr (fun index inside => ?_)).trans (Sector.ofBuffer_bytes data)
    exact (blit_inside _ _ (Nat.le_add_right _ _) (by omega)).trans
      (congrArg data.bytes (Nat.add_sub_cancel_left _ _))
  · refine Sector.ofBuffer_congr (fun index inside => ?_)
    exact blit_outside _ _ (place_apart isSector isOther apart inside)

-----------------------------------------------------------------------------------------
-- Runs
-----------------------------------------------------------------------------------------

/-- What happens to a disk. -/
inductive Event where
  | read (sectorNumber : Int) (data : Sector)
  | write (sectorNumber : Int) (data : Sector)
  | interrupt
  /-- The kernel ends, perhaps in the middle of a request, and another one starts. -/
  | reboot

inductive Step : DiskDevice → Event → DiskDevice → Prop
  | read {device after : DiskDevice} {sectorNumber : Int} {data : Sector}
      (requested : device.readRequest sectorNumber = .ok (data, after))
      : Step device (.read sectorNumber data) after
  | write {device after : DiskDevice} {sectorNumber : Int} {data : Sector}
      (requested : device.writeRequest sectorNumber data = .ok after)
      : Step device (.write sectorNumber data) after
  | interrupt {device : DiskDevice} (pending : device.active = true)
      : Step device .interrupt device.callBack
  | reboot {device after : DiskDevice} (opened : new (some device.file) = .ok after)
      : Step device .reboot after

/-- The same on sectors by number, as the file system uses them. -/
inductive Serves : Disk → Event → Disk → Prop
  | read {disk : Disk} {sectorNumber : Int} {data : Sector}
      (ran : (readSector sectorNumber).run disk = (.ok data, disk))
      : Serves disk (.read sectorNumber data) disk
  | write {disk after : Disk} {sectorNumber : Int} {data : Sector}
      (ran : (writeSector sectorNumber data).run disk = (.ok (), after))
      : Serves disk (.write sectorNumber data) after
  | interrupt {disk : Disk} : Serves disk .interrupt disk
  | reboot {disk : Disk} : Serves disk .reboot disk

/-- The file holds the sectors of the disk. -/
structure Stores (device : DiskDevice) (disk : Disk) : Prop where
  isDisk : device.IsDisk
  same : ∀ sectorNumber, IsSector sectorNumber → device.sectors sectorNumber = disk sectorNumber

/-- A request that is too early or off the disk is refused. -/
theorem refused (stuck : ¬ (device.active = false ∧ IsSector sectorNumber)) (data : Sector)
    : device.readRequest sectorNumber = .error .assertion
      ∧ device.writeRequest sectorNumber data = .error .assertion := by
  by_cases idle : device.active = false
  · have off : ¬ IsSector sectorNumber := fun isSector => stuck ⟨idle, isSector⟩
    rw [DiskDevice.readRequest, DiskDevice.writeRequest, bind_ok (require_of idle _),
      bind_ok (require_of idle _), require, if_neg off]
    exact ⟨rfl, rfl⟩
  · rw [DiskDevice.readRequest, DiskDevice.writeRequest, require, if_neg idle]
    exact ⟨rfl, rfl⟩

/-- A request that the disk accepts. -/
theorem accepted_of_readRequest (requested : device.readRequest sectorNumber = .ok (data, after))
    : device.active = false ∧ IsSector sectorNumber := by
  by_contra stuck
  cases (refused stuck data).1.symm.trans requested

theorem accepted_of_writeRequest (requested : device.writeRequest sectorNumber data = .ok after)
    : device.active = false ∧ IsSector sectorNumber := by
  by_contra stuck
  cases (refused stuck data).2.symm.trans requested

/-- One event does to the file what it does to the sectors, by cases on the event. -/
theorem Stores.step {disk : Disk} {event : Event} (stores : device.Stores disk)
    (step : Step device event after)
    : ∃ next, Serves disk event next ∧ after.Stores next := by
  have isDisk := stores.isDisk
  cases step with
  | read requested =>
      obtain ⟨idle, isSector⟩ := accepted_of_readRequest requested
      obtain ⟨rfl, rfl⟩ :=
        Prod.mk.inj (Except.ok.inj ((isDisk.readRequest idle isSector).symm.trans requested))
      refine ⟨disk, .read ?_, ⟨isDisk.magic, isDisk.whole⟩, stores.same⟩
      rw [stores.same _ isSector, run_readSector isSector]
  | @write _ sectorNumber data requested =>
      obtain ⟨idle, isSector⟩ := accepted_of_writeRequest requested
      obtain ⟨after', written, -, isDisk', here, others⟩ :=
        isDisk.writeRequest idle isSector data
      obtain rfl := Except.ok.inj (written.symm.trans requested)
      refine ⟨_, .write (run_writeSector isSector data disk), isDisk', fun other isOther => ?_⟩
      by_cases same : other = sectorNumber
      · rw [same, here, Function.update_self]
      · rw [others other isOther same, Function.update_of_ne same]
        exact stores.same other isOther
  | interrupt => exact ⟨disk, .interrupt, ⟨isDisk.magic, isDisk.whole⟩, stores.same⟩
  | reboot opened =>
      obtain rfl := Except.ok.inj (isDisk.new_some.symm.trans opened)
      exact ⟨disk, .reboot, ⟨isDisk.magic, isDisk.whole⟩, stores.same⟩

/-- The file of the host is a disk for good: from its creation on, through every sequence of
requests, interrupts and new kernels, every read gives the bytes last written to its sector, or
zeros. A request is refused exactly when one is under way or its sector is off the disk, and
every new kernel finds the magic number.
-/
theorem file_is_disk
    : ∃ start, new none = .ok start
      ∧ ∀ trace device, Runs.Run Step start trace device
        → (∃ disk, Runs.Run Serves (fun _ => Sector.ofBuffer (fun _ => 0)) trace disk
            ∧ ∀ sectorNumber, IsSector sectorNumber
              → device.sectors sectorNumber = disk sectorNumber)
          ∧ (∀ sectorNumber data, device.active = false ∧ IsSector sectorNumber
            → (∃ after, Step device (.read sectorNumber (device.sectors sectorNumber)) after)
              ∧ ∃ after, Step device (.write sectorNumber data) after)
          ∧ (∀ sectorNumber data, ¬ (device.active = false ∧ IsSector sectorNumber)
            → device.readRequest sectorNumber = .error .assertion
              ∧ device.writeRequest sectorNumber data = .error .assertion)
          ∧ ∃ after, Step device .reboot after := by
  obtain ⟨start, created, -, isDisk, zeros⟩ := new_none
  have initial : start.Stores (fun _ => Sector.ofBuffer (fun _ => 0)) := ⟨isDisk, zeros⟩
  refine ⟨start, created, fun trace device run => ?_⟩
  obtain ⟨disk, served, stores⟩ :=
    run.simulate initial (fun state event after image related step => related.step step)
  refine ⟨⟨disk, served, stores.same⟩, fun sectorNumber data accepted => ?_,
    fun sectorNumber data stuck => refused stuck data, _, .reboot stores.isDisk.new_some⟩
  obtain ⟨after, written, -⟩ := stores.isDisk.writeRequest accepted.1 accepted.2 data
  exact ⟨⟨_, .read (stores.isDisk.readRequest accepted.1 accepted.2)⟩, after, .write written⟩

end DiskDevice

end Nachos.FileSys
