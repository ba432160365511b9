import Nachos.FileSys.Handles
import Nachos.FileSys.NamedFiles

/-! Operations on the disk give the answers that the same operations on byte arrays by name
give, as long as programs use open files whose file is still there.
-/

namespace Nachos.FileSys

open Bytes Routines

-----------------------------------------------------------------------------------------
-- The bytes of a file
-----------------------------------------------------------------------------------------

/-- All bytes of the file with the given header. -/
def fileBytes (disk : Disk) (hdr : FileHeader) : List Byte :=
  (List.range hdr.size.toNat).map (fileByte disk hdr)

section FileBytes

variable {disk other : Disk} {hdr : FileHeader}

theorem length_fileBytes (valid : hdr.WellFormed)
    : ((fileBytes disk hdr).length : Int) = hdr.size := by
  rw [fileBytes, List.length_map, List.length_range, Int.toNat_of_nonneg valid.size_nonneg]

theorem getD_fileBytes {offset : Nat} (inside : (offset : Int) < hdr.size)
    : (fileBytes disk hdr).getD offset 0 = fileByte disk hdr offset := by
  have small : offset < hdr.size.toNat := by omega
  simp [fileBytes, small]

theorem fileBytes_congr (valid : hdr.WellFormed) (same : ∀ s ∈ hdr.sectors, other s = disk s)
    : fileBytes other hdr = fileBytes disk hdr := by
  refine List.map_congr_left (fun offset member => ?_)
  have small := List.mem_range.mp member
  exact fileByte_congr valid same (by omega)

/-- The bytes after a write, given the bytes one by one. -/
theorem fileBytes_overwrite {source : Buffer} {position count : Int}
    (bytes
      : ∀ offset : Nat, (offset : Int) < hdr.size
        → fileByte other hdr offset
          = if position ≤ offset ∧ offset < position + count then
              source (offset - position.toNat)
            else fileByte disk hdr offset)
    : fileBytes other hdr
      = NamedFiles.overwrite (fileBytes disk hdr) source position count := by
  refine List.ext_getElem (by simp [fileBytes]) (fun offset inside _ => ?_)
  simp only [fileBytes, List.length_map, List.length_range] at inside
  simp only [NamedFiles.overwrite, fileBytes, List.getElem_mapIdx, List.getElem_map,
    List.getElem_range]
  exact bytes offset (by omega)

/-- A request never moves bytes beyond the end of the file. -/
theorem transferCount_inside {size numBytes position : Int}
    (inside : 0 < transferCount size numBytes position)
    : position + transferCount size numBytes position ≤ size := by
  unfold transferCount at *
  split at inside
  · exact absurd inside (lt_irrefl 0)
  · omega

/-- What a read copies, in terms of the bytes of the file. -/
theorem copied_fileBytes (into : Buffer) {numBytes position : Int} (nonneg : 0 ≤ position)
    : NamedFiles.copied (fileBytes disk hdr) into position
        (transferCount hdr.size numBytes position)
      = blit into 0 (fun offset => fileByte disk hdr (position.toNat + offset))
          (transferCount hdr.size numBytes position).toNat := by
  refine blit_congr _ _ (fun offset small => getD_fileBytes ?_)
  have reach := @transferCount_inside hdr.size numBytes position (by omega)
  omega

end FileBytes

theorem OpenFile.run_read_of_readAt {file : OpenFile} {into buf : Buffer}
    {numBytes count : Int} {disk after : Disk}
    (read
      : (file.readAt into 0 numBytes file.seekPosition).run disk = (.ok (count, buf), after))
    : (file.read into numBytes).run disk
      = (.ok (count, buf, file.seek (CInt.wrap (file.seekPosition + count))), after) := by
  rw [OpenFile.read, Routine.run_bind_ok read, Routine.run_pure]

theorem OpenFile.run_write_of_writeAt {file : OpenFile} {source : Buffer}
    {numBytes count : Int} {disk after : Disk}
    (written
      : (file.writeAt source numBytes file.seekPosition).run disk = (.ok count, after))
    : (file.write source numBytes).run disk
      = (.ok (count, file.seek (CInt.wrap (file.seekPosition + count))), after) := by
  rw [OpenFile.write, Routine.run_bind_ok written, Routine.run_pure]

-----------------------------------------------------------------------------------------
-- Representation
-----------------------------------------------------------------------------------------

/-- What a program can tell of an open file. -/
def Handle.view (handle : Handle) : OpenName :=
  {
    key := handle.key
    position := handle.file.seekPosition
    status := handle.status
    deleted := handle.deleted
  }

theorem Handle.view_overtake (handle : Handle) : handle.overtake.view = handle.view.overtake := by
  by_cases gone : handle.status = .removed <;>
    simp [Handle.overtake, OpenName.overtake, view, gone]

theorem Handle.view_expire (key : List Byte) (handle : Handle)
    : (handle.expire key).view = handle.view.expire key := by
  by_cases expired : handle.status = .live ∧ handle.key = key <;>
    simp [Handle.expire, OpenName.expire, view, expired]

/-- The slots without a file. -/
def Directory.unused {tableSize : Nat} (directory : Directory tableSize)
    : Finset (Fin tableSize) :=
  Finset.univ.filter (fun slot => (directory.entry slot).inUse = false)

/-- The named byte arrays that a world with a given layout stands for. -/
structure World.Represents (world : World) (layout : Layout) (files : NamedFiles) : Prop where
  present
    : ∀ slot, layout.Active (.file slot)
      → files.contents (layout.directory.entry slot).key
        = some (fileBytes world.disk (layout.header (.file slot)))
  absent
    : ∀ key,
      (∀ slot, layout.Active (.file slot) → (layout.directory.entry slot).key ≠ key)
      → files.contents key = none
  slots : files.slots = layout.directory.unused.card
  sectors : files.sectors = layout.freeMap.numClear
  handles : files.handles = world.handles.map Handle.view
  positions : ∀ handle ∈ world.handles, CInt.InRange handle.file.seekPosition

namespace Directory

variable {tableSize : Nat} {directory : Directory tableSize} {slot : Fin tableSize}

theorem mem_unused : slot ∈ directory.unused ↔ (directory.entry slot).inUse = false := by
  simp [unused]

theorem freeIndex_ne_none_iff : directory.freeIndex ≠ none ↔ 0 < directory.unused.card := by
  rw [ne_eq, freeIndex_eq_none_iff, Finset.card_pos, not_forall]
  simp only [Bool.not_eq_true]
  exact ⟨fun ⟨slot, free⟩ => ⟨slot, mem_unused.mpr free⟩,
    fun ⟨slot, free⟩ => ⟨slot, mem_unused.mp free⟩⟩

/-- Filling a free slot. -/
theorem unused_put_used {entry : DirectoryEntry} (used : entry.inUse = true)
    : (directory.put slot entry).unused = directory.unused.erase slot := by
  ext other
  rw [Finset.mem_erase, mem_unused, mem_unused]
  by_cases same : other = slot
  · simp [same, entry_put_self, used]
  · simp [entry_put_of_ne _ same, same]

/-- Emptying a slot. -/
theorem unused_put_free {entry : DirectoryEntry} (free : entry.inUse = false)
    : (directory.put slot entry).unused = insert slot directory.unused := by
  ext other
  rw [Finset.mem_insert, mem_unused, mem_unused]
  by_cases same : other = slot
  · simp [same, entry_put_self, free]
  · simp [entry_put_of_ne _ same, same]

end Directory

namespace World

variable {world after : World} {layout : Layout} {files : NamedFiles}

namespace Represents

/-- The bytes of the name that a slot holds, by the two outcomes of the search. -/
theorem contents_of_none (represents : world.Represents layout files) {name : Buffer}
    (absent : layout.directory.findIndex name = none)
    : files.contents (nameKey name) = none :=
  represents.absent _ ((Directory.findIndex_eq_none_iff _ _).mp absent)

theorem contents_of_some (represents : world.Represents layout files) {name : Buffer}
    {slot : Fin numDirEntries} (found : layout.directory.findIndex name = some slot)
    : files.contents (nameKey name)
      = some (fileBytes world.disk (layout.header (.file slot))) := by
  obtain ⟨active, key⟩ := Directory.findIndex_eq_some found
  rw [← key]
  exact represents.present slot active

/-- The two conditions for creation agree. -/
theorem room_iff (represents : world.Represents layout files) (name : Buffer) (size : Int)
    : files.Room name size ↔ layout.CanCreate name size := by
  have space : 1 + FileHeader.sectorsNeeded size ≤ files.sectors
      ↔ 1 + FileHeader.sectorsNeeded size ≤ layout.freeMap.numClear := by
    rw [represents.sectors]
  have slots : 0 < files.slots ↔ layout.directory.freeIndex ≠ none := by
    rw [represents.slots, Directory.freeIndex_ne_none_iff]
  have absent : files.contents (nameKey name) = none
      ↔ layout.directory.findIndex name = none := by
    cases found : layout.directory.findIndex name with
    | none => simp [represents.contents_of_none found]
    | some slot => simp [represents.contents_of_some found]
  rw [NamedFiles.Room, absent, slots, space]
  exact ⟨fun ⟨new, slot, fits⟩ => ⟨new, slot, fits⟩, fun can => ⟨can.absent, can.slot, can.space⟩⟩

/-- A live open file, through the files it stands for. -/
theorem reads (represents : world.Represents layout files)
    (consistent : world.Consistent layout) {number : Nat} {handle : Handle}
    (found : world.handles[number]? = some handle) (kept : handle.deleted = false)
    (live : handle.status = .live)
    : files.Reads number handle.view (fileBytes world.disk handle.file.hdr) where
  found := by rw [represents.handles, List.getElem?_map, found, Option.map_some]
  kept := kept
  live := live
  contents := by
    have fits := consistent.handles handle (List.mem_of_getElem? found)
    simp only [Handle.Fits, live] at fits
    obtain ⟨slot, active, key, same⟩ := fits
    have present := represents.present slot active
    rw [key, ← same] at present
    exact present

end Represents

-----------------------------------------------------------------------------------------
-- Effects
-----------------------------------------------------------------------------------------

/-- Creating a file adds one name with some bytes. -/
theorem Represents.created (represents : world.Represents layout files)
    (sound : layout.Sound) {name : Buffer} {size sector : Int} {slot : Fin numDirEntries}
    {hdr : FileHeader} {freeMap : Bitmap numSectors} {disk : Disk} (nonneg : 0 ≤ size)
    (created : layout.Created world.disk name size slot sector hdr freeMap disk)
    : Represents { world with disk, handles := world.handles.map Handle.overtake }
        (layout.created slot name sector hdr freeMap)
        {
          contents := files.write (nameKey name) (fileBytes disk hdr)
          slots := files.slots - 1
          sectors := files.sectors - (1 + FileHeader.sectorsNeeded size).toNat
          handles := files.handles.map OpenName.overtake
        } where
  present := by
    intro other active
    by_cases new : other = slot
    · rw [new, Layout.Creation.entry_created_self, DirectoryEntry.key_taken,
        Layout.Creation.header_created_self]
      exact Function.update_self ..
    · have apart : Owner.file other ≠ .file slot := by simpa using new
      have old := (Layout.Creation.active_created_of_ne apart).mp active
      have unnamed := (Directory.findIndex_eq_none_iff _ _).mp created.creation.absent other old
      rw [Layout.Creation.entry_created_of_ne new, Layout.Creation.header_created_of_ne apart]
      refine (Function.update_of_ne unnamed ..).trans ((represents.present other old).trans ?_)
      exact congrArg some (fileBytes_congr (sound.valid _ old) (fun s data =>
        created.spared sound old (Layout.mem_sectors_footprint data))).symm
  absent := by
    intro key unused
    have here := unused slot Layout.Creation.active_created_self
    rw [Layout.Creation.entry_created_self, DirectoryEntry.key_taken] at here
    refine (Function.update_of_ne here.symm ..).trans (represents.absent key ?_)
    intro other active
    have apart := created.creation.ne_of_active active
    have slots : other ≠ slot := fun same => apart (same ▸ rfl)
    have named := unused other ((Layout.Creation.active_created_of_ne apart).mpr active)
    rwa [Layout.Creation.entry_created_of_ne slots] at named
  slots := by
    have filled : (layout.created slot name sector hdr freeMap).directory.unused
        = layout.directory.unused.erase slot := Directory.unused_put_used rfl
    have free : slot ∈ layout.directory.unused := Directory.mem_unused.mpr created.creation.free
    rw [filled, Finset.card_erase_of_mem free, ← represents.slots]
  sectors := by
    have taken := created.creation.takes.count
    have needed := created.creation.valid.sectorsNeeded_eq
    rw [created.size, FileHeader.allocatedSize_of_nonneg nonneg] at needed
    simp only [FileHeader.footprint, List.length_append, List.length_cons] at taken
    have before := represents.sectors
    change files.sectors - _ = freeMap.numClear
    omega
  handles := by
    simp only [represents.handles, List.map_map, Function.comp_def, Handle.view_overtake]
  positions := by
    intro handle member
    obtain ⟨old, was, rfl⟩ := List.mem_map.mp member
    rw [Handle.file_overtake]
    exact represents.positions old was

/-- Removing a file removes its name. -/
theorem Represents.removed (represents : world.Represents layout files)
    (sound : layout.Sound) {name : Buffer} {slot : Fin numDirEntries}
    {freeMap : Bitmap numSectors} {disk : Disk}
    (removed : layout.Removed world.disk name slot freeMap disk)
    : Represents
        { world with disk, handles := world.handles.map (Handle.expire (nameKey name)) }
        (layout.removed slot freeMap)
        {
          contents := Function.update files.contents (nameKey name) none
          slots := files.slots + 1
          sectors :=
            files.sectors
              + (1 + ((fileBytes world.disk (layout.header (.file slot))).length + 127) / 128)
          handles := files.handles.map (OpenName.expire (nameKey name))
        } where
  present := by
    intro other active
    obtain ⟨apart, old⟩ := Layout.Removal.active_removed_iff.mp active
    have slotKey := (Directory.findIndex_eq_some removed.removal.found).2
    have unnamed : (layout.directory.entry other).key ≠ nameKey name := by
      intro named
      exact apart (congrArg Owner.file
        (sound.keys other slot old removed.removal.active (named.trans slotKey.symm)))
    rw [Layout.Removal.key_removed]
    refine (Function.update_of_ne unnamed ..).trans ((represents.present other old).trans ?_)
    exact congrArg some (fileBytes_congr (sound.valid _ old)
      (fun s data => removed.data_kept sound old data)).symm
  absent := by
    intro key unused
    by_cases named : key = nameKey name
    · rw [named]
      exact Function.update_self ..
    · refine (Function.update_of_ne named ..).trans (represents.absent key ?_)
      intro other active same
      have slotKey := (Directory.findIndex_eq_some removed.removal.found).2
      have apart : Owner.file other ≠ .file slot := by
        intro equal
        rw [Owner.file.inj equal, slotKey] at same
        exact named same.symm
      refine unused other (Layout.Removal.active_removed_iff.mpr ⟨apart, active⟩) ?_
      rw [Layout.Removal.key_removed, same]
  slots := by
    have emptied : (layout.removed slot freeMap).directory.unused
        = insert slot layout.directory.unused := Directory.unused_put_free rfl
    have used : slot ∉ layout.directory.unused := by
      rw [Directory.mem_unused, Bool.not_eq_false]
      exact removed.removal.active
    rw [emptied, Finset.card_insert_of_notMem used, ← represents.slots]
  sectors := by
    have active := removed.removal.active
    have distinct : (layout.released slot).Nodup := by
      have swapped := (sound.distinct _ active).perm List.perm_append_comm
      refine swapped.sublist (List.Sublist.append_left ?_ _)
      exact List.singleton_sublist.mpr (List.mem_cons_self ..)
    have freed := removed.removal.releases.numClear distinct
      (fun s member => sound.inside _ active s (Layout.mem_released_footprint member))
      (fun s member => sound.marked _ active s (Layout.mem_released_footprint member))
    have length := @length_fileBytes world.disk _ (sound.valid _ active)
    have sectors := (sound.valid _ active).sectors_length
    simp only [Layout.released, List.length_append, List.length_singleton] at freed
    rw [sectorSize_eq] at sectors
    have before := represents.sectors
    change files.sectors + _ = freeMap.numClear
    omega
  handles := by
    simp only [represents.handles, List.map_map, Function.comp_def, Handle.view_expire]
  positions := by
    intro handle member
    obtain ⟨old, was, rfl⟩ := List.mem_map.mp member
    rw [Handle.file_expire]
    exact represents.positions old was

/-- Changing one open file in the same way on both sides. -/
theorem Represents.modified (represents : world.Represents layout files) (number : Nat)
    {change : Handle → Handle} {seen : OpenName → OpenName}
    (agree : ∀ handle, (change handle).view = seen handle.view)
    (fits : ∀ handle ∈ world.handles, CInt.InRange (change handle).file.seekPosition)
    : Represents { world with handles := world.handles.modify number change } layout
        { files with handles := files.handles.modify number seen } where
  present := represents.present
  absent := represents.absent
  slots := represents.slots
  sectors := represents.sectors
  handles := by
    refine List.ext_getElem? (fun other => ?_)
    simp only [represents.handles, List.getElem?_modify, List.getElem?_map]
    by_cases here : number = other
    · simp [here, Function.comp_def, agree]
    · simp [here]
  positions := by
    intro handle member
    obtain ⟨other, found⟩ := List.mem_iff_getElem?.mp member
    rw [List.getElem?_modify] at found
    obtain ⟨old, was, rfl⟩ := Option.map_eq_some_iff.mp found
    have member := List.mem_of_getElem? was
    by_cases here : number = other
    · simp only [if_pos here]
      exact fits old member
    · simp only [if_neg here]
      exact represents.positions old member

/-- Moving an open file to another position. -/
theorem Represents.moved (represents : world.Represents layout files) (number : Nat)
    {file : OpenFile} {position : Int} (there : file.seekPosition = position)
    (fits : CInt.InRange position)
    : Represents
        {
          world with
          handles := world.handles.modify number (fun found => { found with file })
        }
        layout { files with handles := files.setPosition number position } := by
  refine represents.modified number (fun handle => ?_) (fun _ _ => there ▸ fits)
  simp only [Handle.view, there]

/-- Writing data sectors of a live file changes the bytes under its name. -/
theorem Represents.written (represents : world.Represents layout files)
    (consistent : world.Consistent layout) {number : Nat} {handle : Handle}
    (found : world.handles[number]? = some handle) (live : handle.status = .live) {disk : Disk}
    (frame : ∀ s ∉ handle.file.hdr.sectors, disk s = world.disk s)
    : Represents { world with disk } layout
        { files with contents := files.write handle.key (fileBytes disk handle.file.hdr) } := by
  have fits := consistent.handles handle (List.mem_of_getElem? found)
  simp only [Handle.Fits, live] at fits
  obtain ⟨slot, active, key, same⟩ := fits
  refine {
    present := ?_
    absent := ?_
    slots := represents.slots
    sectors := represents.sectors
    handles := represents.handles
    positions := represents.positions
  }
  · intro other otherActive
    by_cases mine : other = slot
    · rw [mine, key, same]
      exact Function.update_self ..
    · have apart : Owner.file other ≠ .file slot := by simpa using mine
      have unnamed : (layout.directory.entry other).key ≠ handle.key := fun named =>
        mine (consistent.sound.keys other slot otherActive active (named.trans key.symm))
      refine (Function.update_of_ne unnamed ..).trans
        ((represents.present other otherActive).trans ?_)
      refine congrArg some (fileBytes_congr (consistent.sound.valid _ otherActive)
        (fun s data => frame s ?_)).symm
      rw [same]
      exact consistent.sound.data_not_data otherActive active apart data
  · intro other unused
    have named : other ≠ handle.key := fun equal => unused slot active (key.trans equal.symm)
    exact (Function.update_of_ne named ..).trans (represents.absent other unused)

/-- Opening a file adds an open file at its start. -/
theorem Represents.opened (represents : world.Represents layout files) (name : Buffer)
    (slot : Fin numDirEntries)
    : Represents { world with handles := world.handles ++ [newHandle layout name slot] } layout
        {
          files with
          handles :=
            files.handles
              ++ [{ key := nameKey name, position := 0, status := .live, deleted := false }]
        } where
  present := represents.present
  absent := represents.absent
  slots := represents.slots
  sectors := represents.sectors
  handles := by
    simp only [represents.handles, List.map_append]
    rfl
  positions := by
    intro handle member
    rcases List.mem_append.mp member with old | new
    · exact represents.positions handle old
    · rw [List.mem_singleton.mp new]
      exact show CInt.InRange 0 by decide

-----------------------------------------------------------------------------------------
-- Operations on open files
-----------------------------------------------------------------------------------------

section Perform

variable {number : Nat} {handle : Handle} {numBytes position : Int}

theorem perform_readAt (found : world.handles[number]? = some handle)
    (kept : handle.deleted = false) (usable : handle.file.hdr.Usable) (into : Buffer)
    (nonneg : 0 ≤ position)
    (fits : position < handle.file.hdr.size → position + numBytes < 2147483648)
    : (perform (.readAt number into numBytes position)).run world
      = (.ok (.bytesRead (transferCount handle.file.hdr.size numBytes position)
          (NamedFiles.copied (fileBytes world.disk handle.file.hdr) into position
            (transferCount handle.file.hdr.size numBytes position))), world) := by
  have ran := OpenFile.run_readAt usable into 0 nonneg fits world.disk
  rw [perform, Routine.run_bind_ok (Routine.run_get world), fileOf_of_found found kept,
    Routine.run_bind_ok (Routine.run_lift _ _), Routine.run_bind_ok (run_onDisk_ok ran),
    Routine.run_pure, copied_fileBytes into nonneg]

/-- A read copies the bytes of the file and moves the handle on. Witness: the read of the open
file.
-/
theorem perform_read (found : world.handles[number]? = some handle)
    (kept : handle.deleted = false) (usable : handle.file.hdr.Usable) (into : Buffer)
    (nonneg : 0 ≤ handle.file.seekPosition)
    (fits
      : handle.file.seekPosition < handle.file.hdr.size
        → handle.file.seekPosition + numBytes < 2147483648)
    : ∃ moved : OpenFile,
        moved.seekPosition
          = CInt.wrap (handle.file.seekPosition
              + transferCount handle.file.hdr.size numBytes handle.file.seekPosition)
        ∧ (perform (.read number into numBytes)).run world
          = (.ok (.bytesRead
              (transferCount handle.file.hdr.size numBytes handle.file.seekPosition)
              (NamedFiles.copied (fileBytes world.disk handle.file.hdr) into
                handle.file.seekPosition
                (transferCount handle.file.hdr.size numBytes handle.file.seekPosition))),
            {
              world with
              handles := world.handles.modify number (fun found => { found with file := moved })
            }) := by
  have read := OpenFile.run_readAt usable into 0 nonneg fits world.disk
  have ran := OpenFile.run_read_of_readAt read
  refine ⟨handle.file.seek _, rfl, ?_⟩
  rw [perform, Routine.run_bind_ok (Routine.run_get world), fileOf_of_found found kept,
    Routine.run_bind_ok (Routine.run_lift _ _), Routine.run_bind_ok (run_onDisk_ok ran)]
  simp only [setFile]
  rw [Routine.run_bind_ok (run_updateHandles _ _), Routine.run_pure,
    copied_fileBytes into nonneg]
  rfl

/-- A write changes the bytes of the file, its sectors and no others, and moves the handle on.
Witness: the write of the open file.
-/
theorem perform_write (found : world.handles[number]? = some handle)
    (kept : handle.deleted = false) (usable : handle.file.hdr.Usable) (source : Buffer)
    (nonneg : 0 ≤ handle.file.seekPosition)
    (fits
      : handle.file.seekPosition < handle.file.hdr.size
        → handle.file.seekPosition + numBytes < 2147483648)
    : ∃ (moved : OpenFile) (disk : Disk),
        moved.seekPosition
          = CInt.wrap (handle.file.seekPosition
              + transferCount handle.file.hdr.size numBytes handle.file.seekPosition)
        ∧ (perform (.write number source numBytes)).run world
          = (.ok (.bytesWritten
              (transferCount handle.file.hdr.size numBytes handle.file.seekPosition)),
            {
              world with
              disk
              handles := world.handles.modify number (fun found => { found with file := moved })
            })
        ∧ (∀ s ∉ handle.file.hdr.sectors, disk s = world.disk s)
        ∧ fileBytes disk handle.file.hdr
          = NamedFiles.overwrite (fileBytes world.disk handle.file.hdr) source
              handle.file.seekPosition
              (transferCount handle.file.hdr.size numBytes handle.file.seekPosition) := by
  obtain ⟨disk, written, frame, contents⟩ :=
    OpenFile.run_writeAt usable source nonneg fits world.disk
  have ran := OpenFile.run_write_of_writeAt written
  refine ⟨handle.file.seek (CInt.wrap (handle.file.seekPosition
    + transferCount handle.file.hdr.size numBytes handle.file.seekPosition)), disk, rfl, ?_,
    frame, fileBytes_overwrite contents⟩
  rw [perform, Routine.run_bind_ok (Routine.run_get world), fileOf_of_found found kept,
    Routine.run_bind_ok (Routine.run_lift _ _), Routine.run_bind_ok (run_onDisk_ok ran)]
  simp only [setFile]
  rw [Routine.run_bind_ok (run_updateHandles _ _), Routine.run_pure]

/-- A seek sets the position of its handle and does nothing else. -/
theorem perform_seek (found : world.handles[number]? = some handle)
    (kept : handle.deleted = false) (position : Int)
    : (perform (.seek number position)).run world
      = (.ok .done,
        {
          world with
          handles :=
            world.handles.modify number
              (fun found => { found with file := handle.file.seek position })
        }) := by
  rw [perform, Routine.run_bind_ok (Routine.run_get world), fileOf_of_found found kept,
    Routine.run_bind_ok (Routine.run_lift _ _), setFile,
    Routine.run_bind_ok (run_updateHandles _ _), Routine.run_pure]

/-- To delete an open file marks its handle and does nothing else. -/
theorem perform_delete (found : world.handles[number]? = some handle)
    (kept : handle.deleted = false)
    : (perform (.delete number)).run world
      = (.ok .done,
        {
          world with
          handles :=
            world.handles.modify number (fun found => { found with deleted := true })
        }) := by
  rw [perform, Routine.run_bind_ok (Routine.run_get world), fileOf_of_found found kept,
    Routine.run_bind_ok (Routine.run_lift _ _), Routine.run_bind_ok (run_updateHandles _ _),
    Routine.run_pure]

end Perform

-----------------------------------------------------------------------------------------
-- Steps
-----------------------------------------------------------------------------------------

/-- An open file that is not deleted. -/
structure Opened (world : World) (number : Nat) (handle : Handle) : Prop where
  found : world.handles[number]? = some handle
  kept : handle.deleted = false

/-- A request through an open file whose file is still there, within the range of `int` if it begins
within the file.
-/
structure Request (world : World) (number : Nat) (handle : Handle) (position numBytes : Int)
    : Prop extends world.Opened number handle where
  live : handle.status = .live
  nonneg : 0 ≤ position
  fits : position < handle.file.hdr.size → position + numBytes < 2147483648

/-- Sizes and positions are not negative, and open files are used only as long as their file
is there.
-/
def Regular (world : World) : Operation → Prop
  | .create _ _ initialSize => 0 ≤ initialSize ∧ initialSize < 2147483648
  | .remove _ => True
  | .openAsOpenFile _ => True
  | .readAt number _ numBytes position =>
      ∃ handle, world.Request number handle position numBytes
  | .writeAt number _ numBytes position =>
      ∃ handle, world.Request number handle position numBytes
  | .read number _ numBytes =>
      ∃ handle : Handle, world.Request number handle handle.file.seekPosition numBytes
  | .write number _ numBytes =>
      ∃ handle : Handle, world.Request number handle handle.file.seekPosition numBytes
  | .seek number position => (∃ handle, world.Opened number handle) ∧ CInt.InRange position
  | .delete number => ∃ handle, world.Opened number handle

/-- Regular operations are cautious ones: they use no handle that another file may have overtaken.
-/
theorem Regular.cautious {operation : Operation} (regular : world.Regular operation)
    : world.Cautious operation := by
  refine ⟨fun address name initialSize same => ?_, fun number handle written found => ?_⟩
  · subst same
    exact ⟨by have nonneg := regular.1; omega, regular.2⟩
  · have live : ∀ own position numBytes, world.Request number own position numBytes
        → handle.status ≠ .overtaken := by
      intro own position numBytes request
      rw [Option.some.inj (found.symm.trans request.found), request.live]
      exact HandleStatus.noConfusion
    cases operation with
    | writeAt | write =>
        obtain rfl := Option.some.inj written
        obtain ⟨own, request⟩ := regular
        exact live own _ _ request
    | create | remove | openAsOpenFile | readAt | read | seek | delete => cases written

/-- Operations on open files keep the layout. -/
theorem Consistent.of_used (consistent : world.Consistent layout) {operation : Operation}
    {number : Nat} (used : operation.used = some number) (cautious : world.Cautious operation)
    {answer : Answer} (ran : (perform operation).run world = (.ok answer, after))
    : after.Consistent layout := by
  have touches := touches_perform world used (fun handle written found =>
    (consistent.usable found (cautious.2 number handle written found)).valid)
  have kept := (Effect.touched touches).consistent consistent cautious
  rwa [ran] at kept

/-- The world holds a layout and stands for the files. -/
def Refines (world : World) (files : NamedFiles) : Prop :=
  ∃ layout, world.Consistent layout ∧ world.Represents layout files

theorem wrap_moved {size position numBytes : Int} (small : size ≤ 67108864)
    (nonneg : 0 ≤ position) (fits : CInt.InRange position)
    : CInt.wrap (position + transferCount size numBytes position)
      = position + transferCount size numBytes position := by
  refine CInt.wrap_of_inRange ?_
  unfold CInt.InRange transferCount at *
  split <;> omega

/-- The headers of an open file whose file is there are those on the disk. -/
theorem Opened.usable {number : Nat} {handle : Handle} (opened : world.Opened number handle)
    (consistent : world.Consistent layout) (live : handle.status = .live)
    : handle.file.hdr.Usable :=
  consistent.usable opened.found (by rw [live]; exact HandleStatus.noConfusion)

theorem Opened.length_fileBytes {number : Nat} {handle : Handle}
    (opened : world.Opened number handle) (consistent : world.Consistent layout)
    (live : handle.status = .live)
    : ((fileBytes world.disk handle.file.hdr).length : Int) = handle.file.hdr.size :=
  FileSys.length_fileBytes (opened.usable consistent live).valid

/-- A position that a request moves does not wrap. -/
theorem Represents.wrap_moved (represents : world.Represents layout files)
    (consistent : world.Consistent layout) {number : Nat} {handle : Handle} {numBytes : Int}
    (request : world.Request number handle handle.file.seekPosition numBytes)
    : CInt.wrap (handle.file.seekPosition
          + transferCount handle.file.hdr.size numBytes handle.file.seekPosition)
      = handle.file.seekPosition
        + transferCount handle.file.hdr.size numBytes handle.file.seekPosition :=
  World.wrap_moved (request.usable consistent request.live).size_lt request.nonneg
    (represents.positions handle (List.mem_of_getElem? request.found))

theorem Represents.find_view (represents : world.Represents layout files) {number : Nat}
    {handle : Handle} (opened : world.Opened number handle)
    : files.handles[number]? = some handle.view := by
  rw [represents.handles, List.getElem?_map, opened.found, Option.map_some]

/-- Every regular operation returns, and named byte arrays give the same answer, by cases
on the operation.
-/
theorem Represents.follow (represents : world.Represents layout files)
    (consistent : world.Consistent layout) {operation : Operation}
    (regular : world.Regular operation)
    : ∃ answer after next,
        (perform operation).run world = (.ok answer, after)
        ∧ NamedFiles.Step files (operation, answer) next
        ∧ after.Refines next := by
  have cautious := regular.cautious
  cases operation with
  | create address name initialSize =>
      obtain ⟨nonneg, fits⟩ := regular
      rcases perform_create consistent address name ⟨by omega, fits⟩ with
        ⟨cannot, failed⟩ | ⟨can, slot, sector, hdr, freeMap, disk, succeeded, created⟩
      · rw [FileHeader.allocatedSize_of_nonneg nonneg, ← represents.room_iff] at cannot
        exact ⟨_, _, _, failed, .createFailed cannot, layout, consistent, represents⟩
      · rw [FileHeader.allocatedSize_of_nonneg nonneg, ← represents.room_iff] at can
        refine ⟨_, _, _, succeeded, .created can ?_, _, consistent.created created,
          represents.created consistent.sound nonneg created⟩
        have size := created.size
        rw [FileHeader.allocatedSize_of_nonneg nonneg] at size
        rw [fileBytes, List.length_map, List.length_range, size]
  | remove name =>
      rcases perform_remove consistent name with
        ⟨absent, failed⟩ | ⟨slot, freeMap, disk, succeeded, removed⟩
      · exact ⟨_, _, _, failed, .removeFailed (represents.contents_of_none absent), layout,
          consistent, represents⟩
      · have there := represents.contents_of_some removed.removal.found
        exact ⟨_, _, _, succeeded, .removed there, _, consistent.removed removed,
          represents.removed consistent.sound removed⟩
  | openAsOpenFile name =>
      rcases perform_open consistent name with ⟨absent, failed⟩ | ⟨slot, found, succeeded⟩
      · exact ⟨_, _, _, failed, .openFailed (represents.contents_of_none absent), layout,
          consistent, represents⟩
      · exact ⟨_, _, _, succeeded, .opened (represents.contents_of_some found), layout,
          consistent.opened found, represents.opened name slot⟩
  | readAt number into numBytes position =>
      obtain ⟨handle, request⟩ := regular
      have ran := perform_readAt request.found request.kept
        (request.usable consistent request.live) into request.nonneg request.fits
      rw [← request.length_fileBytes consistent request.live] at ran
      exact ⟨_, _, _, ran,
        .readAt (represents.reads consistent request.found request.kept request.live), layout,
        consistent, represents⟩
  | writeAt number source numBytes position =>
      obtain ⟨handle, request⟩ := regular
      obtain ⟨disk, ran, frame, bytes⟩ := perform_writeAt request.found request.kept
        (request.usable consistent request.live) source request.nonneg request.fits
      have kept := consistent.of_used rfl cautious ran
      have written := represents.written consistent request.found request.live frame
      rw [fileBytes_overwrite bytes] at written
      rw [← request.length_fileBytes consistent request.live] at ran written
      exact ⟨_, _, _, ran,
        .writeAt (represents.reads consistent request.found request.kept request.live), layout,
        kept, written⟩
  | read number into numBytes =>
      obtain ⟨handle, request⟩ := regular
      obtain ⟨moved, there, ran⟩ := perform_read request.found request.kept
        (request.usable consistent request.live) into request.nonneg request.fits
      have kept := consistent.of_used rfl cautious ran
      have fits := CInt.wrap_inRange (handle.file.seekPosition
        + transferCount handle.file.hdr.size numBytes handle.file.seekPosition)
      rw [represents.wrap_moved consistent request] at there fits
      rw [← request.length_fileBytes consistent request.live] at ran there fits
      exact ⟨_, _, _, ran,
        .read (represents.reads consistent request.found request.kept request.live), layout,
        kept, represents.moved number there fits⟩
  | write number source numBytes =>
      obtain ⟨handle, request⟩ := regular
      obtain ⟨moved, disk, there, ran, frame, bytes⟩ := perform_write request.found request.kept
        (request.usable consistent request.live) source request.nonneg request.fits
      have kept := consistent.of_used rfl cautious ran
      have written := represents.written consistent request.found request.live frame
      have fits := CInt.wrap_inRange (handle.file.seekPosition
        + transferCount handle.file.hdr.size numBytes handle.file.seekPosition)
      rw [bytes] at written
      rw [represents.wrap_moved consistent request] at there fits
      rw [← request.length_fileBytes consistent request.live] at ran there written fits
      exact ⟨_, _, _, ran,
        .write (represents.reads consistent request.found request.kept request.live), layout,
        kept, written.moved number there fits⟩
  | seek number position =>
      obtain ⟨⟨handle, opened⟩, fits⟩ := regular
      have ran := perform_seek opened.found opened.kept position
      have kept := consistent.of_used rfl cautious ran
      exact ⟨_, _, _, ran, .seek (represents.find_view opened) opened.kept, layout, kept,
        represents.moved number rfl fits⟩
  | delete number =>
      obtain ⟨handle, opened⟩ := regular
      have ran := perform_delete opened.found opened.kept
      have kept := consistent.of_used rfl cautious ran
      exact ⟨_, _, _, ran, .delete (represents.find_view opened) opened.kept, layout, kept,
        represents.modified number (fun _ => rfl) represents.positions⟩

-----------------------------------------------------------------------------------------
-- Runs
-----------------------------------------------------------------------------------------

/-- A disk just formatted stands for no files. -/
theorem formatted_refines (mapAddress dirAddress : FileSystem.Addresses) (disk : Disk)
    : ∃ start,
        formatted mapAddress dirAddress disk = .ok start ∧ start.Refines NamedFiles.empty := by
  obtain ⟨start, layout, isStart, noHandles, consistent, isFormatted⟩ :=
    formatted_spec mapAddress dirAddress disk
  refine ⟨start, isStart, layout, consistent, ?_⟩
  have unused (slot : Fin numDirEntries) : (layout.directory.entry slot).inUse = false :=
    isFormatted.unused slot
  refine {
    present := ?_
    absent := fun _ _ => rfl
    slots := ?_
    sectors := ?_
    handles := ?_
    positions := ?_
  }
  · intro slot active
    rw [Layout.Active, unused] at active
    exact absurd active Bool.false_ne_true
  · have all : layout.directory.unused = Finset.univ :=
      Finset.filter_true_of_mem (fun slot _ => unused slot)
    rw [all, Finset.card_univ, Fintype.card_fin]
    rfl
  · rw [isFormatted.numClear]
    rfl
  · rw [noHandles]
    rfl
  · rw [noHandles]
    exact fun handle member => absurd member List.not_mem_nil

/-- Every run of regular operations is a run of named byte arrays with the same answers, and
a regular operation never faults. A write leaves the directory and the free map as they are,
and mounting the disk again gives the same file system.
-/
theorem refines_namedFiles (mapAddress dirAddress : FileSystem.Addresses) (disk : Disk)
    : ∃ start,
        formatted mapAddress dirAddress disk = .ok start
        ∧ ∀ trace world, Runs.Run (Step Regular) start trace world
          → (∃ files, Runs.Run NamedFiles.Step .empty trace files ∧ world.Refines files)
            ∧ (∀ operation, world.Regular operation
              → ∃ answer after, Step Regular world (operation, answer) after)
            ∧ (∀ operation answer after,
              Step Regular world (operation, answer) after
              → operation.written.isSome
              → (after.files.fetchDirectory.run after.disk).1
                  = (world.files.fetchDirectory.run world.disk).1
                ∧ (after.files.fetchFreeMap.run after.disk).1
                  = (world.files.fetchFreeMap.run world.disk).1)
            ∧ FileSystem.openDisk.run world.disk = (.ok world.files, world.disk) := by
  obtain ⟨start, isStart, refined⟩ := formatted_refines mapAddress dirAddress disk
  refine ⟨start, isStart, fun trace world run => ?_⟩
  obtain ⟨files, abstractRun, layout, consistent, represents⟩ :=
    run.simulate refined (fun state event after image ⟨current, kept, shown⟩ step => by
      obtain ⟨answer, final, next, ran, followed, refines⟩ := shown.follow kept step.1
      obtain ⟨same, rfl⟩ := Prod.mk.inj (step.2.symm.trans ran)
      obtain rfl : event.2 = answer := Except.ok.inj same
      exact ⟨next, followed, refines⟩)
  refine ⟨⟨files, abstractRun, layout, consistent, represents⟩, ?_, ?_, ?_⟩
  · intro operation regular
    obtain ⟨answer, after, next, ran, _, _⟩ := represents.follow consistent regular
    exact ⟨answer, after, regular, ran⟩
  · intro operation answer after step written
    obtain ⟨number, isWritten⟩ := Option.isSome_iff_exists.mp written
    have used : operation.used = some number := by
      cases operation <;> first | exact isWritten | cases isWritten
    have kept := consistent.of_used used step.1.cautious step.2
    have fetch (state : World) (holds : state.Consistent layout)
        : (state.files.fetchDirectory.run state.disk).1 = .ok layout.directory
          ∧ (state.files.fetchFreeMap.run state.disk).1 = .ok layout.freeMap := by
      rw [holds.files, holds.onDisk.run_fetchDirectory holds.sound,
        holds.onDisk.run_fetchFreeMap holds.sound]
      exact ⟨rfl, rfl⟩
    obtain ⟨beforeDirectory, beforeMap⟩ := fetch world consistent
    obtain ⟨afterDirectory, afterMap⟩ := fetch after kept
    exact ⟨afterDirectory.trans beforeDirectory.symm, afterMap.trans beforeMap.symm⟩
  · rw [consistent.onDisk.run_openDisk consistent.sound, consistent.files]

end World

end Nachos.FileSys
