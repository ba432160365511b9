import Nachos.FileSys.Leaks

/-! Transfers through open files, and which sectors they can reach after the file behind
them was removed.
-/

namespace Nachos.FileSys

open Bytes Routines

/-- The sectors of the file whose first header stands in `sector`, from its headers on disk. -/
def FileSystem.footprintAt (sector : Int) : DiskRoutine (List Int) := do
  let hdr ← FileHeader.fetchFrom sector
  return hdr.footprint sector

theorem Layout.OnDisk.run_footprintAt {layout : Layout} {disk : Disk}
    (onDisk : layout.OnDisk disk) (sound : layout.Sound) {owner : Owner}
    (active : layout.Active owner)
    : (FileSystem.footprintAt (layout.sector owner)).run disk
      = (.ok (layout.footprint owner), disk) := by
  rw [FileSystem.footprintAt, Routine.run_bind_ok (onDisk.run_fetchFrom sound active),
    Routine.run_pure]
  rfl

namespace World

variable {world : World} {layout : Layout}

theorem fileOf_of_found {number : Nat} {handle : Handle}
    (found : world.handles[number]? = some handle) (kept : handle.deleted = false)
    (deleted : Fault)
    : world.fileOf number deleted = .ok handle.file := by
  simp [fileOf, found, kept]

/-- A write through a handle, by the bytes of the file before and after. -/
theorem perform_writeAt {number : Nat} {handle : Handle}
    (found : world.handles[number]? = some handle) (kept : handle.deleted = false)
    (usable : handle.file.hdr.Usable) (source : Buffer) {numBytes position : Int}
    (nonneg : 0 ≤ position)
    (fits : position < handle.file.hdr.size → position + numBytes < 2147483648)
    : ∃ disk,
        (perform (.writeAt number source numBytes position)).run world
          = (.ok (.bytesWritten (transferCount handle.file.hdr.size numBytes position)),
            { world with disk })
        ∧ (∀ s ∉ handle.file.hdr.sectors, disk s = world.disk s)
        ∧ ∀ offset : Nat, (offset : Int) < handle.file.hdr.size
            → fileByte disk handle.file.hdr offset
              = if position ≤ offset
                    ∧ offset
                      < position + transferCount handle.file.hdr.size numBytes position then
                  source (offset - position.toNat)
                else fileByte world.disk handle.file.hdr offset := by
  obtain ⟨disk, written, frame, contents⟩ :=
    OpenFile.run_writeAt usable source nonneg fits world.disk
  refine ⟨disk, ?_, frame, contents⟩
  rw [perform, Routine.run_bind_ok (Routine.run_get world), fileOf_of_found found kept,
    Routine.run_bind_ok (Routine.run_lift _ _), Routine.run_bind_ok (run_onDisk_ok written),
    Routine.run_pure]

/-- The sectors of a handle belong to its own file, if that is still there, or to no file. -/
theorem Consistent.not_foreign (consistent : world.Consistent layout) {number : Nat}
    {handle : Handle} (found : world.handles[number]? = some handle)
    (notOvertaken : handle.status ≠ .overtaken) {owner : Owner} (active : layout.Active owner)
    (foreign
      : ∀ slot, owner = .file slot → handle.status = .live
        → (layout.directory.entry slot).key ≠ handle.key)
    {s : Int} (owned : s ∈ layout.footprint owner)
    : s ∉ handle.file.hdr.sectors := by
  intro data
  have fits := consistent.handles handle (List.mem_of_getElem? found)
  unfold Handle.Fits at fits
  cases status : handle.status with
  | live =>
      simp only [status] at fits
      obtain ⟨slot, own, key, same⟩ := fits
      rw [same] at data
      have mine := consistent.sound.owner_unique active own owned
        (Layout.mem_sectors_footprint data)
      exact foreign slot mine status key
  | removed =>
      simp only [status] at fits
      have marked := consistent.sound.marked owner active s owned
      rw [fits.2 s data] at marked
      exact Bool.false_ne_true marked
  | overtaken => exact notOvertaken status

/-- A write through an open file whose file was not removed, or after whose removal no file
was created, changes no sector of the free-map file, of the directory file, or of the file
of another directory entry, whatever is asked for and also when it stops on a fault.
-/
theorem write_spares_others (mapAddress dirAddress : FileSystem.Addresses) (disk : Disk)
    : ∃ start,
        formatted mapAddress dirAddress disk = .ok start
        ∧ ∀ world, Runs.Reachable (Step Cautious) start world
          → ∀ operation number handle,
              operation.written = some number
              → world.handles[number]? = some handle
              → handle.status ≠ .overtaken
              → ∃ directory,
                  (world.files.fetchDirectory.run world.disk).1 = .ok directory
                  ∧ ∀ sector,
                      sector = freeMapSector ∨ sector = directorySector
                        ∨ (∃ slot,
                            (directory.entry slot).inUse = true
                            ∧ (directory.entry slot).sector = sector
                            ∧ ¬(handle.status = .live
                              ∧ (directory.entry slot).key = handle.key))
                      → ∃ sectors,
                          ((FileSystem.footprintAt sector).run world.disk).1 = .ok sectors
                          ∧ ∀ s ∈ sectors,
                              ((perform operation).run world).2.disk s = world.disk s := by
  obtain ⟨start, first, isStart, _, consistent, _⟩ :=
    formatted_spec mapAddress dirAddress disk
  refine ⟨start, isStart, fun world reachable operation number handle written found alive => ?_⟩
  obtain ⟨layout, kept⟩ := consistent.reachable (fun _ _ cautious => cautious) reachable
  have fetched := kept.onDisk.run_fetchDirectory kept.sound
  rw [← kept.files] at fetched
  refine ⟨layout.directory, congrArg Prod.fst fetched, fun sector belongs => ?_⟩
  have used : operation.used = some number := by
    cases operation <;> first | exact written | cases written
  have touches := touches_perform world used (fun other _ again =>
    (kept.usable again (Option.some.inj (found.symm.trans again) ▸ alive)).valid)
  have sectors : world.writtenSectors operation = handle.file.hdr.sectors := by
    simp only [writtenSectors, written, Option.bind_some, found]
  rw [sectors] at touches
  have spared : ∀ owner, layout.Active owner
      → (∀ slot, owner = .file slot → handle.status = .live
          → (layout.directory.entry slot).key ≠ handle.key)
      → ∃ sectors,
          ((FileSystem.footprintAt (layout.sector owner)).run world.disk).1 = .ok sectors
          ∧ ∀ s ∈ sectors, ((perform operation).run world).2.disk s = world.disk s := by
    intro owner active foreign
    refine ⟨layout.footprint owner, congrArg Prod.fst (kept.onDisk.run_footprintAt kept.sound active),
      fun s owned => touches.disk s (kept.not_foreign found alive active foreign owned)⟩
  rcases belongs with rfl | rfl | ⟨slot, inUse, rfl, foreign⟩
  · exact spared .freeMap layout.active_freeMap (fun _ same => Owner.noConfusion same)
  · exact spared .directory layout.active_directory (fun _ same => Owner.noConfusion same)
  · refine spared (.file slot) inUse (fun own same live key => ?_)
    obtain rfl := Owner.file.inj same
    exact foreign ⟨live, key⟩

-----------------------------------------------------------------------------------------
-- A stale handle
-----------------------------------------------------------------------------------------

/-- The names of the two files of the example below. -/
def firstName : Buffer := ofList [97]

def secondName : Buffer := ofList [98]

/-- The steps of the example below: a file of one sector is opened and written, removed, and
another file of one sector is created. The open file keeps the headers of the first, and the
second has the same ones.
-/
theorem reuse_of_removed {start : World} (consistent : start.Consistent layout)
    (isFormatted : layout.Formatted start.disk) (noHandles : start.handles = [])
    : ∃ created opened written removed reused handle slot next,
        (perform (.create (fun _ => 0) firstName 128)).run start
          = (.ok (.success true), created)
        ∧ (perform (.openAsOpenFile firstName)).run created = (.ok (.opened true), opened)
        ∧ (perform (.writeAt 0 (ofList [1]) 1 0)).run opened
          = (.ok (.bytesWritten 1), written)
        ∧ (perform (.remove firstName)).run written = (.ok (.success true), removed)
        ∧ (perform (.create (fun _ => 0) secondName 128)).run removed
          = (.ok (.success true), reused)
        ∧ reused.Consistent next
        ∧ next.directory.findIndex secondName = some slot
        ∧ reused.handles[0]? = some handle
        ∧ handle.deleted = false
        ∧ handle.file.hdr = next.header (.file slot)
        ∧ handle.file.hdr.size = 128
        ∧ fileByte reused.disk handle.file.hdr 0 = 1 := by
  obtain ⟨slot, sector, hdr, taken, disk, created, first⟩ := create_of_unused consistent
    isFormatted.unused (fun _ => 0) firstName (show (0 : Int) ≤ 128 by decide) (by decide)
    (by rw [isFormatted.numClear]; decide)
  have createdKept := consistent.created first
  have entered := first.creation.findIndex_created consistent.sound
  rcases perform_open createdKept firstName with ⟨absent, _⟩ | ⟨own, found, opened⟩
  · rw [entered] at absent
    cases absent
  obtain rfl := Option.some.inj (entered.symm.trans found)
  have openedKept := createdKept.opened entered
  let middle := layout.created slot firstName sector hdr taken
  let handle := newHandle middle firstName slot
  have header : handle.file.hdr = hdr :=
    @Layout.Creation.header_created_self layout slot firstName sector hdr taken
  have size : hdr.size = 128 := first.size
  have single : hdr.chain = [] := by
    rw [first.creation.valid.chain_eq_nil_iff, size]
    decide
  have active : middle.Active (.file slot) := (Directory.findIndex_eq_some entered).1
  have usable : handle.file.hdr.Usable := createdKept.sound.usable active
  let holder : World :=
    { disk, files := start.files, handles := start.handles.map Handle.overtake ++ [handle] }
  have foundHandle : holder.handles[0]? = some handle := by
    simp only [holder, noHandles]
    rfl
  obtain ⟨filled, written, frame, contents⟩ := @perform_writeAt holder 0 handle foundHandle rfl
    usable (ofList [1]) 1 0 (le_refl 0) (fun _ => by decide)
  have moved : transferCount handle.file.hdr.size 1 0 = 1 := by
    rw [header, size]
    decide
  rw [moved] at written contents
  have touches : Touches holder handle.file.hdr.sectors { holder with disk := filled } :=
    ⟨rfl, (Touches.refl holder []).handles, frame⟩
  have writtenKept := @Consistent.touched holder _ middle openedKept _ touches
    (.inr ⟨handle, List.mem_of_getElem? foundHandle, HandleStatus.noConfusion, rfl⟩)
  rcases perform_remove writtenKept firstName with ⟨absent, _⟩ | ⟨own, freeMap, cut, removed, gone⟩
  · rw [entered] at absent
    cases absent
  obtain rfl := Option.some.inj (entered.symm.trans gone.removal.found)
  have removedKept := writtenKept.removed gone
  have restored : freeMap = layout.freeMap :=
    gone.removal.freeMap_of_created first.creation single
  have unused : ∀ other, ((middle.removed slot freeMap).directory.entry other).inUse = false := by
    intro other
    rw [← Bool.not_eq_true]
    intro used
    obtain ⟨apart, old⟩ := Layout.Removal.active_removed_iff.mp
      (show (middle.removed slot freeMap).Active (.file other) from used)
    have before := (Layout.Creation.active_created_of_ne apart).mp old
    rw [Layout.Active, isFormatted.unused] at before
    cases before
  have room : 1 + FileHeader.sectorsNeeded 128 ≤ (middle.removed slot freeMap).freeMap.numClear := by
    change _ ≤ ((freeMap.numClear : Nat) : Int)
    rw [restored, isFormatted.numClear]
    decide
  obtain ⟨newSlot, newSector, newHdr, newMap, reusedDisk, reused, second⟩ :=
    create_of_unused removedKept unused (fun _ => 0) secondName (show (0 : Int) ≤ 128 by decide)
      (by decide) room
  have sameHdr : hdr = newHdr := first.header_eq second restored.symm
  refine ⟨_, _, _, _, _, (handle.expire (nameKey firstName)).overtake, newSlot, _, created, opened,
    written, removed, reused, removedKept.created second,
    second.creation.findIndex_created removedKept.sound, ?_, ?_, ?_, ?_, ?_⟩
  · simp only [holder, noHandles]
    rfl
  · simp [handle, newHandle]
  · simp only [Handle.file_overtake, Handle.file_expire, header, sameHdr]
    exact Layout.Creation.header_created_self.symm
  · simp only [Handle.file_overtake, Handle.file_expire, header, size]
  · -- The byte survives: neither `remove` nor `create` writes to data sectors of files.
    have cutSame : ∀ s ∈ handle.file.hdr.sectors, cut s = filled s :=
      fun s data => gone.data_kept createdKept.sound active data
    have reusedSame : ∀ s ∈ handle.file.hdr.sectors, reusedDisk s = cut s := by
      intro s data
      rw [header, sameHdr] at data
      exact second.data_kept removedKept.sound data
    have inside : ((0 : Nat) : Int) < handle.file.hdr.size := by
      rw [header, size]
      decide
    rw [Handle.file_overtake, Handle.file_expire, fileByte_congr usable.valid reusedSame inside,
      fileByte_congr usable.valid cutSame inside, contents 0 inside, if_pos (by decide)]
    rfl

/-- A program that keeps a file open while it is removed writes into the file that is
created next.
-/
theorem stale_write_hits_other_file
    : ∃ start created opened written removed reused overwritten,
        formatted (fun _ => 0) (fun _ => 0) (fun _ => Vector.replicate _ 0) = .ok start
        ∧ (perform (.create (fun _ => 0) firstName 128)).run start
          = (.ok (.success true), created)
        ∧ (perform (.openAsOpenFile firstName)).run created = (.ok (.opened true), opened)
        ∧ (perform (.writeAt 0 (ofList [1]) 1 0)).run opened
          = (.ok (.bytesWritten 1), written)
        ∧ (perform (.remove firstName)).run written = (.ok (.success true), removed)
        ∧ (perform (.create (fun _ => 0) secondName 128)).run removed
          = (.ok (.success true), reused)
        ∧ (perform (.writeAt 0 (ofList [2]) 1 0)).run reused
          = (.ok (.bytesWritten 1), overwritten)
        ∧ ∃ directory slot sectors s,
            (reused.files.fetchDirectory.run reused.disk).1 = .ok directory
            ∧ directory.findIndex secondName = some slot
            ∧ ((FileSystem.footprintAt (directory.entry slot).sector).run reused.disk).1
              = .ok sectors
            ∧ s ∈ sectors
            ∧ overwritten.disk s ≠ reused.disk s := by
  obtain ⟨start, layout, isStart, noHandles, consistent, isFormatted⟩ :=
    formatted_spec (fun _ => 0) (fun _ => 0) (fun _ => Vector.replicate _ 0)
  obtain ⟨created, opened, written, removed, reused, handle, slot, next, firstStep, secondStep,
    thirdStep, fourthStep, fifthStep, kept, found, foundHandle, open_, same, size, byte⟩ :=
    reuse_of_removed consistent isFormatted noHandles
  have active : next.Active (.file slot) := (Directory.findIndex_eq_some found).1
  have usable : handle.file.hdr.Usable := same ▸ kept.sound.usable active
  obtain ⟨disk, sixthStep, _, contents⟩ := perform_writeAt foundHandle open_ usable (ofList [2])
    (le_refl 0) (fun _ => show (0 : Int) + 1 < 2147483648 by decide)
  have moved : transferCount handle.file.hdr.size 1 0 = 1 := by
    rw [size]
    decide
  rw [moved] at sixthStep contents
  have fetched := kept.onDisk.run_fetchDirectory kept.sound
  rw [← kept.files] at fetched
  refine ⟨start, created, opened, written, removed, reused, _, isStart, firstStep, secondStep,
    thirdStep, fourthStep, fifthStep, sixthStep, next.directory, slot, _,
    handle.file.hdr.sectors.getD 0 (-1), congrArg Prod.fst fetched, found,
    congrArg Prod.fst (kept.onDisk.run_footprintAt kept.sound active), ?_, ?_⟩
  · have member := usable.valid.sector_mem (le_refl 0) (by rw [size]; decide)
    rw [same] at member ⊢
    exact Layout.mem_sectors_footprint member
  · intro unchanged
    have now := contents 0 (by rw [size]; decide)
    rw [if_pos (by decide)] at now
    have before : fileByte disk handle.file.hdr 0 = fileByte reused.disk handle.file.hdr 0 := by
      exact congrArg (fun sector : Sector => sector.bytes 0) unchanged
    rw [now, byte] at before
    exact absurd before (by decide)

end World

end Nachos.FileSys
