import Nachos.FileSys.Layout

/-! Formatting any disk gives a layout with the two files of the file system and an empty
directory.
-/

namespace Nachos.FileSys

open Bytes Routines

namespace Layout

/-- The layout that formatting makes: nothing but the two files is marked. -/
structure Formatted (layout : Layout) (disk : Disk) : Prop where
  sound : layout.Sound
  onDisk : layout.OnDisk disk
  empty : layout.directory = Directory.new numDirEntries
  takes
    : Bitmap.Takes (Bitmap.new numSectors) layout.freeMap
        (layout.footprint .freeMap ++ layout.footprint .directory)

/-- The layout of two files without directory entries. -/
def blank (freeMap : Bitmap numSectors) (mapHdr dirHdr : FileHeader) : Layout :=
  {
    freeMap
    directory := Directory.new numDirEntries
    header := fun owner => if owner = .directory then dirHdr else mapHdr
  }

theorem not_active_blank {freeMap : Bitmap numSectors} {mapHdr dirHdr : FileHeader}
    (slot : Fin numDirEntries)
    : ¬(blank freeMap mapHdr dirHdr).Active (.file slot) := by
  have unused : (Directory.new numDirEntries).entry slot = DirectoryEntry.empty :=
    Directory.entry_new slot
  simp only [Active, blank, unused, DirectoryEntry.empty, Bool.false_eq_true, not_false_iff]

/-- A blank layout is sound when its two files have sectors of their own. -/
theorem sound_blank {start freeMap : Bitmap numSectors} {mapHdr dirHdr : FileHeader}
    (mapValid : mapHdr.WellFormed) (mapSize : mapHdr.size = freeMapFileSize)
    (dirValid : dirHdr.WellFormed) (dirSize : dirHdr.size = directoryFileSize)
    (takes
      : Bitmap.Takes start freeMap
          (FileHeader.footprint freeMapSector mapHdr
            ++ FileHeader.footprint directorySector dirHdr))
    : (blank freeMap mapHdr dirHdr).Sound := by
  obtain ⟨mapDistinct, dirDistinct, apart⟩ := List.nodup_append.mp takes.distinct
  have inside : ∀ owner, (blank freeMap mapHdr dirHdr).Active owner
      → ∀ s ∈ (blank freeMap mapHdr dirHdr).footprint owner,
          s ∈ FileHeader.footprint freeMapSector mapHdr
            ++ FileHeader.footprint directorySector dirHdr := by
    intro owner active s member
    cases owner with
    | freeMap => exact List.mem_append_left _ member
    | directory => exact List.mem_append_right _ member
    | file slot => exact absurd active (not_active_blank slot)
  refine {
    valid := ?_
    mapSize := mapSize
    dirSize := dirSize
    distinct := ?_
    apart := ?_
    inside := fun owner active s member => takes.inside s (inside owner active s member)
    marked := ?_
    keys := fun slot _ active _ _ => absurd active (not_active_blank slot)
    fits := ?_
  }
  · intro owner active
    cases owner with
    | freeMap => exact mapValid
    | directory => exact dirValid
    | file slot => exact absurd active (not_active_blank slot)
  · intro owner active
    cases owner with
    | freeMap => exact mapDistinct
    | directory => exact dirDistinct
    | file slot => exact absurd active (not_active_blank slot)
  · intro owner other active otherActive different s inLeft inRight
    cases owner with
    | file slot => exact not_active_blank slot active
    | freeMap =>
        cases other with
        | freeMap => exact different rfl
        | directory => exact apart s inLeft s inRight rfl
        | file slot => exact not_active_blank slot otherActive
    | directory =>
        cases other with
        | freeMap => exact apart s inRight s inLeft rfl
        | directory => exact different rfl
        | file slot => exact not_active_blank slot otherActive
  · intro owner active s member
    have taken := inside owner active s member
    change freeMap.testBit s.toNat = true
    rw [takes.bits, Int.toNat_of_nonneg (takes.inside s taken).1]
    simp only [taken, decide_true, Bool.true_or]
  · intro slot
    have unused : (Directory.new numDirEntries).entry slot = DirectoryEntry.empty :=
      Directory.entry_new slot
    simp only [blank, unused, DirectoryEntry.empty]
    decide

/-- Marking the two well-known sectors and allocating the two files never fails on a bitmap
with all its bits clear.
-/
theorem reserve {start : Bitmap numSectors} (clear : ∀ which, start.testBit which = false)
    (room : start.numClear = numSectors)
    : ∃ mapMarked bothMarked mapHdr mapTaken dirHdr freeMap,
        start.mark freeMapSector = .ok mapMarked
        ∧ mapMarked.mark directorySector = .ok bothMarked
        ∧ FileHeader.allocate bothMarked freeMapFileSize = .ok (true, mapHdr, mapTaken)
        ∧ FileHeader.allocate mapTaken directoryFileSize = .ok (true, dirHdr, freeMap)
        ∧ mapHdr.WellFormed
        ∧ mapHdr.size = freeMapFileSize
        ∧ dirHdr.WellFormed
        ∧ dirHdr.size = directoryFileSize
        ∧ Bitmap.Takes start freeMap
            (FileHeader.footprint freeMapSector mapHdr
              ++ FileHeader.footprint directorySector dirHdr) := by
  have first : Bitmap.Takes start (start.markBit 0) [freeMapSector] :=
    Bitmap.takes_mark (by decide) (clear 0)
  have second : Bitmap.Takes (start.markBit 0) ((start.markBit 0).markBit 1) [directorySector] :=
    Bitmap.takes_mark (by decide) (by rw [first.bits, clear]; rfl)
  have firstCount := first.count
  have secondCount := second.count
  rw [List.length_singleton] at firstCount secondCount
  obtain ⟨⟨mapFits, mapHdr, mapTaken⟩, mapAllocated, mapAnswer⟩ :=
    @FileHeader.allocate_of_nonneg numSectors ((start.markBit 0).markBit 1) freeMapFileSize
      (by decide) (by decide) (by decide)
  have mapNeeds : FileHeader.sectorsNeeded freeMapFileSize = 530 := by decide
  have total : start.numClear = 524288 := room
  obtain rfl : mapFits = true := mapAnswer.success_iff.mpr (by omega)
  have mapTakes : Bitmap.Takes _ mapTaken (mapHdr.chain ++ mapHdr.sectors) :=
    mapAnswer.takes rfl
  have mapCount := mapTakes.count
  have mapSize : mapHdr.size = freeMapFileSize := mapAnswer.size rfl
  have mapValid : mapHdr.WellFormed := mapAnswer.valid rfl
  have mapLength := mapValid.sectorsNeeded_eq
  rw [mapSize, mapNeeds] at mapLength
  obtain ⟨⟨dirFits, dirHdr, freeMap⟩, dirAllocated, dirAnswer⟩ :=
    @FileHeader.allocate_of_nonneg numSectors mapTaken directoryFileSize
      (by decide) (by decide) (by decide)
  have dirNeeds : FileHeader.sectorsNeeded directoryFileSize = 2 := by decide
  obtain rfl : dirFits = true := dirAnswer.success_iff.mpr (by
    rw [List.length_append] at mapCount
    omega)
  refine ⟨_, _, mapHdr, mapTaken, dirHdr, freeMap, start.mark_of_inside (by decide),
    (start.markBit 0).mark_of_inside (by decide), mapAllocated, dirAllocated,
    mapValid, mapSize, dirAnswer.valid rfl, dirAnswer.size rfl, ?_⟩
  have all := ((first.append second).append mapTakes).append (dirAnswer.takes rfl)
  refine all.perm ?_
  -- The sector of the directory's header was taken before the files' own sectors.
  have moved : ([directorySector] ++ (mapHdr.chain ++ mapHdr.sectors)).Perm
      ((mapHdr.chain ++ mapHdr.sectors) ++ [directorySector]) :=
    List.perm_append_comm
  have swapped := (moved.append_right (dirHdr.chain ++ dirHdr.sectors)).cons freeMapSector
  simpa only [FileHeader.footprint, List.cons_append, List.append_assoc, List.nil_append]
    using swapped

/-- Formatting never fails, whatever the disk held before. -/
theorem run_format (mapAddress dirAddress : FileSystem.Addresses) (disk : Disk)
    : ∃ (layout : Layout) (after : Disk),
        (FileSystem.format mapAddress dirAddress).run disk = (.ok layout.files, after)
        ∧ layout.Formatted after := by
  obtain ⟨mapMarked, bothMarked, mapHdr, mapTaken, dirHdr, freeMap, firstMark, secondMark,
    mapAllocated, dirAllocated, mapValid, mapSize, dirValid, dirSize, takes⟩ :=
    reserve Bitmap.testBit_new Bitmap.numClear_new
  let layout := blank freeMap mapHdr dirHdr
  have sound : layout.Sound := sound_blank mapValid mapSize dirValid dirSize takes
  have mapActive := layout.active_freeMap
  have dirActive := layout.active_directory
  obtain ⟨headed, mapRun, mapStored, mapFrame⟩ :=
    @FileHeader.run_writeBack mapAddress disk freeMapSector mapHdr mapValid
      (sound.heads_inside mapActive) (sound.heads_nodup mapActive)
  obtain ⟨bothHeaded, dirRun, dirStored, dirFrame⟩ :=
    @FileHeader.run_writeBack dirAddress headed directorySector dirHdr dirValid
      (sound.heads_inside dirActive) (sound.heads_nodup dirActive)
  have mapStays : mapHdr.StoredAt bothHeaded freeMapSector := by
    refine mapStored.congr (fun s head => dirFrame s (fun again => ?_))
    exact Owner.noConfusion (sound.owner_unique mapActive dirActive (mem_heads_footprint head)
      (mem_heads_footprint again))
  obtain ⟨mapped, bitsRun, bitsFrame, bitsHold⟩ := @Bitmap.run_writeBack _
    layout.files.freeMapFile freeMap (sound.usable mapActive) sound.mapWhole.ge bothHeaded
  obtain ⟨after, tableRun, tableFrame, tableHolds⟩ := @Directory.run_writeBack _
    layout.files.directoryFile (Directory.new numDirEntries) (sound.usable dirActive)
    sound.dirWhole mapped
  have headsStay {owner : Owner} (active : layout.Active owner)
      : ∀ s ∈ layout.heads owner, after s = bothHeaded s := by
    intro s head
    rw [tableFrame s (sound.heads_not_data active dirActive head),
      bitsFrame s (sound.heads_not_data active mapActive head)]
  refine ⟨layout, after, ?_, sound, ⟨?_, ?_, tableHolds⟩, rfl, takes⟩
  · rw [FileSystem.format, firstMark, Routine.run_bind_ok (Routine.run_lift _ _), secondMark,
      Routine.run_bind_ok (Routine.run_lift _ _), mapAllocated,
      Routine.run_bind_ok (Routine.run_lift _ _)]
    simp only
    rw [Routine.run_bind_ok (Routine.run_assert_of rfl _ _), dirAllocated,
      Routine.run_bind_ok (Routine.run_lift _ _)]
    simp only
    rw [Routine.run_bind_ok (Routine.run_assert_of rfl _ _), Routine.run_bind_ok mapRun,
      Routine.run_bind_ok dirRun, Routine.run_bind_ok (sound.run_openDisk mapStays dirStored),
      Routine.run_bind_ok bitsRun, Routine.run_bind_ok tableRun, Routine.run_pure]
  · intro owner active
    cases owner with
    | freeMap => exact mapStays.congr (headsStay mapActive)
    | directory => exact dirStored.congr (headsStay dirActive)
    | file slot => exact absurd active (not_active_blank slot)
  · refine bitsHold.congr mapValid sound.mapWhole.ge (fun s data => tableFrame s ?_)
    exact sound.data_not_data mapActive dirActive (by simp) data

end Layout

end Nachos.FileSys
