import Mathlib.Algebra.Order.Group.Unbundled.Int
import Mathlib.Order.Bounds.Basic
import Nachos.Lib.CInt
import Nachos.Lib.Runs

/-! The time that requests to the simulated disk take: the seek, the rotation to the sector and
the transfer, or the transfer from the track buffer alone.
-/

namespace Nachos.Machine

-----------------------------------------------------------------------------------------
-- Rotations
-----------------------------------------------------------------------------------------

section Rotations

variable {period : Int}

/-- The first number from a start on with a given remainder. -/
theorem isLeast_emod_eq (positive : 0 < period) (start other : Int)
    : IsLeast { number | start ≤ number ∧ number % period = other % period }
        (start + (other - start) % period) := by
  have nonneg := Int.emod_nonneg (other - start) positive.ne'
  refine ⟨⟨by omega, ?_⟩, fun number ⟨reached, same⟩ => ?_⟩
  · rw [Int.add_emod_emod]
    exact congrArg (· % period) (by omega)
  · -- The way to any such number has the remainder of the way to the first.
    have way : (other - start) % period = (number - start) % period :=
      (Int.emod_sub_cancel_right start).mpr same.symm
    have turns := Int.mul_ediv_add_emod (number - start) period
    have whole : 0 ≤ period * ((number - start) / period) :=
      mul_nonneg positive.le (Int.ediv_nonneg (by omega) positive.le)
    rw [way]
    linarith

end Rotations

def sectorsPerTrack : Int := 32

def numTracks : Int := 16384

def numSectors : Int := sectorsPerTrack * numTracks

/-- The time in which the disk rotates by one sector. -/
def rotationTime : Int := 500

/-- The time in which the head moves by one track. -/
def seekTime : Int := 500

/-- A request for a sector, with the time at which it is made. -/
structure DiskRequest where
  totalTicks : Int
  newSector : Int
  writing : Bool

/-- The members of a `Disk` that the latency depends on. -/
structure Disk where
  lastSector : Int
  bufferInit : Int

namespace Disk

/-- The constructor. -/
def initial : Disk where
  lastSector := 0
  bufferInit := 0

/-- How many sectors pass between two positions. -/
def moduloDiff (toSector fromSector : Int) : Int :=
  let toOffset := toSector.tmod sectorsPerTrack
  let fromOffset := fromSector.tmod sectorsPerTrack
  (toOffset - fromOffset + sectorsPerTrack).tmod sectorsPerTrack

section Requests

variable (disk : Disk) (request : DiskRequest)

/-- The first result of `TimeToSeek`. -/
def seek : Int :=
  |request.newSector.tdiv sectorsPerTrack - disk.lastSector.tdiv sectorsPerTrack| * seekTime

/-- The second result of `TimeToSeek`: the time to the next sector boundary after the seek. -/
def rotation : Int :=
  let remainder := (CInt.wrap (request.totalTicks + disk.seek request)).tmod rotationTime
  if remainder > 0 then rotationTime - remainder else 0

def timeAfter : Int :=
  CInt.wrap (request.totalTicks + disk.seek request + disk.rotation request)

/-- The test for the track buffer. -/
def Buffered : Prop :=
  request.writing = false
  ∧ disk.seek request = 0
  ∧ (disk.timeAfter request - disk.bufferInit).tdiv rotationTime
    > moduloDiff request.newSector (disk.bufferInit.tdiv rotationTime)

instance : Decidable (disk.Buffered request) :=
  inferInstanceAs (Decidable (_ ∧ _))

def computeLatency : Int :=
  if disk.Buffered request then rotationTime
  else
    disk.seek request
      + (disk.rotation request
        + moduloDiff request.newSector ((disk.timeAfter request).tdiv rotationTime) * rotationTime)
      + rotationTime

def updateLast : Disk where
  lastSector := request.newSector
  bufferInit := if disk.seek request ≠ 0 then disk.timeAfter request else disk.bufferInit

end Requests

-----------------------------------------------------------------------------------------
-- Sectors under the head
-----------------------------------------------------------------------------------------

/-- A sector of any track begins to pass under the head. -/
def Begins (sector instant : Int) : Prop :=
  instant % rotationTime = 0
  ∧ (instant / rotationTime) % sectorsPerTrack = sector % sectorsPerTrack

/-- The first sector boundary that is not before an instant. -/
def boundary (instant : Int) : Int := instant + (0 - instant) % rotationTime

theorem boundary_isLeast (instant : Int)
    : IsLeast { other | instant ≤ other ∧ other % rotationTime = 0 } (boundary instant) :=
  isLeast_emod_eq (by decide) instant 0

/-- From a sector boundary on, a sector begins to pass after as many others as lie between. -/
theorem begins_isLeast {start : Int} (boundary : start % rotationTime = 0) (sector : Int)
    : IsLeast { instant | start ≤ instant ∧ Begins sector instant }
        (start + (sector - start / rotationTime) % sectorsPerTrack * rotationTime) := by
  obtain ⟨⟨later, same⟩, first⟩ :=
    isLeast_emod_eq (by decide : 0 < sectorsPerTrack) (start / rotationTime) sector
  simp only [rotationTime] at boundary later same first
  refine ⟨⟨?_, ?_, ?_⟩, fun instant ⟨reached, aligned, under⟩ => ?_⟩
  · rw [rotationTime]
    omega
  · rw [rotationTime]
    omega
  · rw [rotationTime, ← same]
    exact congrArg (· % sectorsPerTrack) (by omega)
  · rw [rotationTime] at aligned under ⊢
    have reached : start ≤ instant := reached
    have turns := first ⟨by omega, under⟩
    omega

/-- What holds of a disk at any time. -/
structure Sound (disk : Disk) : Prop where
  sector : 0 ≤ disk.lastSector ∧ disk.lastSector < numSectors
  nonneg : 0 ≤ disk.bufferInit
  aligned : disk.bufferInit % rotationTime = 0

/-- A request for a sector that the disk has, at which the clock does not overflow. -/
structure Legal (disk : Disk) (request : DiskRequest) : Prop where
  ticks : 0 ≤ request.totalTicks
  sector : 0 ≤ request.newSector ∧ request.newSector < numSectors
  fits : boundary (request.totalTicks + disk.seek request) < 2147483648

variable {disk : Disk} {request : DiskRequest}

theorem initial_sound : initial.Sound where
  sector := by decide
  nonneg := le_rfl
  aligned := rfl

theorem seek_nonneg (disk : Disk) (request : DiskRequest) : 0 ≤ disk.seek request :=
  mul_nonneg (abs_nonneg _) (by decide)

theorem moduloDiff_eq {toSector fromSector : Int} (target : 0 ≤ toSector)
    (current : 0 ≤ fromSector)
    : moduloDiff toSector fromSector = (toSector - fromSector) % sectorsPerTrack := by
  rw [moduloDiff, Int.tmod_eq_emod_of_nonneg target, Int.tmod_eq_emod_of_nonneg current,
    sectorsPerTrack, Int.tmod_eq_emod_of_nonneg (by omega)]
  omega

/-- Seek and rotation end at the first sector boundary that is not before the end of the seek. -/
theorem Legal.rotated (legal : disk.Legal request)
    : request.totalTicks + disk.seek request + disk.rotation request
      = boundary (request.totalTicks + disk.seek request) := by
  have nonneg := disk.seek_nonneg request
  have ticks := legal.ticks
  have fits := legal.fits
  rw [rotation, boundary]
  rw [boundary] at fits
  have ended : 0 ≤ request.totalTicks + disk.seek request := by omega
  generalize request.totalTicks + disk.seek request = ending at *
  have wait := Int.emod_nonneg (0 - ending) (by decide : rotationTime ≠ 0)
  rw [CInt.wrap_of_lt ended (by omega), Int.tmod_eq_emod_of_nonneg ended]
  by_cases within : ending % rotationTime > 0
  · rw [if_pos within]
    simp only [rotationTime] at *
    omega
  · rw [if_neg within]
    simp only [rotationTime] at *
    omega

theorem Legal.timeAfter_eq (legal : disk.Legal request)
    : disk.timeAfter request = boundary (request.totalTicks + disk.seek request) := by
  have reached : _ ≤ _ := (boundary_isLeast (request.totalTicks + disk.seek request)).1.1
  have nonneg := disk.seek_nonneg request
  have ticks := legal.ticks
  rw [timeAfter, legal.rotated, CInt.wrap_of_lt (by omega) legal.fits]

/-- A legal request keeps the disk sound: the track buffer was filled at a boundary of a sector. -/
theorem Sound.updateLast (sound : disk.Sound) (legal : disk.Legal request)
    : (disk.updateLast request).Sound := by
  obtain ⟨⟨reached, aligned⟩, _⟩ :=
    boundary_isLeast (request.totalTicks + disk.seek request)
  have nonneg := disk.seek_nonneg request
  have ticks := legal.ticks
  refine ⟨legal.sector, ?_, ?_⟩ <;> simp only [Disk.updateLast] <;> split
  · rw [legal.timeAfter_eq]
    omega
  · exact sound.nonneg
  · rw [legal.timeAfter_eq]
    exact aligned
  · exact sound.aligned

-----------------------------------------------------------------------------------------
-- Latency
-----------------------------------------------------------------------------------------

/-- The disk turns as the latency of a request says: the transfer starts at the first instant
after the seek at which the sector begins to pass under the head; or it is from the track buffer,
which has been loaded while the whole sector passed.
-/
structure Consistent (disk : Disk) (request : DiskRequest) : Prop where
  lasts : rotationTime ≤ disk.computeLatency request
  turns
    : ¬disk.Buffered request
      → IsLeast
          {
            instant |
            request.totalTicks + disk.seek request ≤ instant
            ∧ Begins request.newSector instant
          }
          (request.totalTicks + disk.computeLatency request - rotationTime)
  loaded
    : disk.Buffered request
      → request.writing = false
        ∧ request.newSector.tdiv sectorsPerTrack = disk.lastSector.tdiv sectorsPerTrack
        ∧ ∃ start next,
            IsLeast { other | request.totalTicks ≤ other ∧ other % rotationTime = 0 } next
            ∧ disk.bufferInit ≤ start
            ∧ Begins request.newSector start
            ∧ start + rotationTime ≤ next

theorem track_of_seek (still : disk.seek request = 0)
    : request.newSector.tdiv sectorsPerTrack = disk.lastSector.tdiv sectorsPerTrack := by
  rcases mul_eq_zero.mp still with same | never
  · exact Int.sub_eq_zero.mp (abs_eq_zero.mp same)
  · exact absurd never (by decide)

/-- From the beginning of the track buffer on, the sector begins to pass before the last whole
sector has passed.
-/
theorem Sound.loaded (sound : disk.Sound) (legal : disk.Legal request)
    (buffered : disk.Buffered request)
    : ∃ start next,
        IsLeast { other | request.totalTicks ≤ other ∧ other % rotationTime = 0 } next
        ∧ disk.bufferInit ≤ start
        ∧ Begins request.newSector start
        ∧ start + rotationTime ≤ next := by
  obtain ⟨_, still, passed⟩ := buffered
  have turned : 0 ≤ disk.bufferInit.tdiv rotationTime :=
    Int.tdiv_nonneg sound.nonneg (by decide)
  rw [legal.timeAfter_eq, still, Int.add_zero, moduloDiff_eq legal.sector.1 turned,
    Int.tdiv_eq_ediv_of_nonneg sound.nonneg] at passed
  have least := boundary_isLeast request.totalTicks
  obtain ⟨⟨later, begins⟩, _⟩ := begins_isLeast sound.aligned request.newSector
  refine ⟨_, _, least, later, begins, ?_⟩
  have between := Int.emod_nonneg (request.newSector - disk.bufferInit / rotationTime)
    (by decide : sectorsPerTrack ≠ 0)
  generalize (request.newSector - disk.bufferInit / rotationTime) % sectorsPerTrack = sectors
    at *
  -- A quotient above a number that is not negative is that of a positive difference.
  have ahead : 0 ≤ boundary request.totalTicks - disk.bufferInit := by
    by_contra behind
    have negative : 0 ≤ (disk.bufferInit - boundary request.totalTicks).tdiv rotationTime :=
      Int.tdiv_nonneg (by omega) (by decide)
    rw [← Int.neg_sub, Int.neg_tdiv] at passed
    omega
  rw [Int.tdiv_eq_ediv_of_nonneg ahead] at passed
  rw [rotationTime] at *
  omega

/-- The latency of a legal request is consistent on a sound disk, from the least boundary after the
seek.
-/
theorem Sound.consistent (sound : disk.Sound) (legal : disk.Legal request)
    : disk.Consistent request := by
  have nonneg := disk.seek_nonneg request
  have ticks := legal.ticks
  obtain ⟨⟨reached, aligned⟩, least⟩ :=
    boundary_isLeast (request.totalTicks + disk.seek request)
  have turned : 0 ≤ (boundary (request.totalTicks + disk.seek request)).tdiv rotationTime :=
    Int.tdiv_nonneg (by omega) (by decide)
  have latency
      : ¬disk.Buffered request
        → request.totalTicks + disk.computeLatency request - rotationTime
          = boundary (request.totalTicks + disk.seek request)
            + (request.newSector
                - boundary (request.totalTicks + disk.seek request) / rotationTime)
              % sectorsPerTrack * rotationTime := by
    intro unbuffered
    have rotated := legal.rotated
    rw [computeLatency, if_neg unbuffered, legal.timeAfter_eq,
      moduloDiff_eq legal.sector.1 turned, Int.tdiv_eq_ediv_of_nonneg (by omega)]
    omega
  refine ⟨?_, fun unbuffered => ?_, fun buffered => ?_⟩
  · by_cases buffered : disk.Buffered request
    · rw [computeLatency, if_pos buffered]
    · have starts := latency buffered
      have between := Int.emod_nonneg
        (request.newSector - boundary (request.totalTicks + disk.seek request) / rotationTime)
        (by decide : sectorsPerTrack ≠ 0)
      have reached : request.totalTicks + disk.seek request ≤ _ := reached
      rw [rotationTime] at *
      omega
  · rw [latency unbuffered]
    obtain ⟨⟨later, begins⟩, first⟩ := begins_isLeast aligned request.newSector
    refine ⟨⟨le_trans reached later, begins⟩, fun instant ⟨ended, under⟩ => ?_⟩
    exact first ⟨least ⟨ended, under.1⟩, under⟩
  · exact ⟨buffered.1, track_of_seek buffered.2.1, sound.loaded legal buffered⟩

/-- A request, after which the disk keeps track of the sector. -/
def Step (disk : Disk) (request : DiskRequest) (after : Disk) : Prop :=
  disk.Legal request ∧ after = disk.updateLast request

/-- After any requests the disk turns as the latency of the next request says. -/
theorem latency_consistent {requests : List DiskRequest}
    (run : Runs.Run Step initial requests disk) (legal : disk.Legal request)
    : disk.Consistent request := by
  have sound : disk.Sound :=
    run.invariant initial_sound (by
      rintro disk request after sound ⟨legal, rfl⟩
      exact sound.updateLast legal)
  exact sound.consistent legal

/-- A sector of the next track is written, and later the one after it is read from the track
buffer, which has been loaded since 500.
-/
theorem latency_consistent_of_next_sector
    : let written : DiskRequest := { totalTicks := 0, newSector := 40, writing := true }
      let read : DiskRequest := { totalTicks := 5000, newSector := 41, writing := false }
      (initial.updateLast written).Consistent read
      ∧ (initial.updateLast written).Buffered read
      ∧ initial.computeLatency written = 500 + 7 * 500 + 500 := by
  intro written read
  have first : Runs.Run Step initial [written] (initial.updateLast written) :=
    .snoc (.nil _) ⟨⟨by decide, by decide, by decide⟩, rfl⟩
  exact ⟨latency_consistent first ⟨by decide, by decide, by decide⟩, by decide, by decide⟩

end Disk

end Nachos.Machine
