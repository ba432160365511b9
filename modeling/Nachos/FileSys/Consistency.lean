import Nachos.FileSys.Format
import Nachos.FileSys.Removal
import Nachos.FileSys.World
import Nachos.Lib.Runs

/-! What each operation does to a file system in use and to the layout its disk holds. -/

namespace Nachos.FileSys

open Bytes Routines

/-- How an open file relates to the layout: it has the headers of the file it was opened
from, or, after a removal, data sectors that are clear until another file takes them.
-/
def Handle.Fits (layout : Layout) (handle : Handle) : Prop :=
  match handle.status with
  | .live =>
      ∃ slot,
        layout.Active (.file slot)
        ∧ (layout.directory.entry slot).key = handle.key
        ∧ handle.file.hdr = layout.header (.file slot)
  | .removed =>
      handle.file.hdr.Usable
      ∧ ∀ s ∈ handle.file.hdr.sectors, layout.freeMap.testBit s.toNat = false
  | .overtaken => True

/-- The disk holds the layout and the objects in memory agree with it. -/
structure World.Consistent (world : World) (layout : Layout) : Prop where
  sound : layout.Sound
  onDisk : layout.OnDisk world.disk
  files : world.files = layout.files
  handles : ∀ handle ∈ world.handles, handle.Fits layout

namespace Handle

/-- Two states of one open file that differ at most in its seek position and deletion. -/
structure Same (before after : Handle) : Prop where
  hdr : after.file.hdr = before.file.hdr
  key : after.key = before.key
  status : after.status = before.status

theorem Same.refl (handle : Handle) : Same handle handle := ⟨rfl, rfl, rfl⟩

theorem Same.fits {before after : Handle} {layout : Layout} (same : Same before after)
    (fits : before.Fits layout)
    : after.Fits layout := by
  unfold Fits at fits ⊢
  rw [same.status, same.key, same.hdr]
  exact fits

variable {layout : Layout} {handle : Handle}

/-- Creating a file leaves live handles alone and overtakes removed ones. -/
theorem Fits.created {slot : Fin numDirEntries} {name : Buffer} {sector : Int}
    {hdr : FileHeader} {freeMap : Bitmap numSectors} (fits : handle.Fits layout)
    (creation : layout.Creation slot name sector hdr freeMap)
    : handle.overtake.Fits (layout.created slot name sector hdr freeMap) := by
  unfold overtake
  cases status : handle.status with
  | live =>
      simp only [Fits, status] at fits
      obtain ⟨own, active, key, same⟩ := fits
      have apart := creation.ne_of_active active
      have slots : own ≠ slot := fun equal => apart (equal ▸ rfl)
      simp only [reduceCtorEq, if_false, Fits, status]
      refine ⟨own, (Layout.Creation.active_created_of_ne apart).mpr active, ?_, ?_⟩
      · rw [Layout.Creation.entry_created_of_ne slots, key]
      · rw [Layout.Creation.header_created_of_ne apart, same]
  | removed => simp only [if_true, Fits]
  | overtaken => simp only [reduceCtorEq, if_false, Fits, status]

/-- Removing a file expires the handles opened from it and leaves the others alone. -/
theorem Fits.removed {slot : Fin numDirEntries} {name : Buffer} {freeMap : Bitmap numSectors}
    (fits : handle.Fits layout) (removal : layout.Removal slot name freeMap)
    (sound : layout.Sound)
    : (handle.expire (nameKey name)).Fits (layout.removed slot freeMap) := by
  have slotKey := (Directory.findIndex_eq_some removal.found).2
  unfold expire
  cases status : handle.status with
  | live =>
      simp only [Fits, status] at fits
      obtain ⟨own, active, key, same⟩ := fits
      by_cases named : handle.key = nameKey name
      · have mine : own = slot :=
          sound.keys own slot active removal.active (key.trans (named.trans slotKey.symm))
        subst mine
        simp only [named, and_self, if_true, Fits, same]
        refine ⟨sound.usable active, fun s data => ?_⟩
        have released : s ∈ layout.released own := List.mem_append_left _ data
        have nonneg := ((sound.usable active).inside s data).1
        change freeMap.testBit s.toNat = false
        rw [removal.releases, Int.toNat_of_nonneg nonneg]
        simp only [released, decide_true, Bool.not_true, Bool.false_and]
      · have other : own ≠ slot := fun equal =>
          named (by rw [← key, equal, slotKey])
        simp only [named, and_false, if_false, Fits, status]
        refine ⟨own, Layout.Removal.active_removed_iff.mpr ⟨by simpa using other, active⟩, ?_, same⟩
        rw [Layout.Removal.key_removed, key]
  | removed =>
      simp only [Fits, status] at fits
      simp only [reduceCtorEq, false_and, if_false, Fits, status]
      refine ⟨fits.1, fun s data => ?_⟩
      change freeMap.testBit s.toNat = false
      rw [removal.releases, fits.2 s data, Bool.and_false]
  | overtaken => simp only [reduceCtorEq, false_and, if_false, Fits, status]

end Handle

namespace World

variable {world after : World} {layout : Layout}

-----------------------------------------------------------------------------------------
-- Operations on handles
-----------------------------------------------------------------------------------------

/-- A change of the given sectors, and of seek positions and deletions, at most. -/
structure Touches (world : World) (sectors : List Int) (after : World) : Prop where
  files : after.files = world.files
  handles : ∀ number : Nat, Option.Rel Handle.Same world.handles[number]? after.handles[number]?
  disk : ∀ s ∉ sectors, after.disk s = world.disk s

/-- Nothing is touched when nothing happens. -/
theorem Touches.refl (world : World) (sectors : List Int) : Touches world sectors world where
  files := rfl
  handles := by
    intro number
    cases world.handles[number]? with
    | none => exact .none
    | some handle => exact .some (.refl handle)
  disk := fun _ _ => rfl

/-- A handle after the operation was there before and is the same but for its seek position. -/
theorem Touches.handle {sectors : List Int} {number : Nat} {handle : Handle}
    (touches : Touches world sectors after)
    (found : after.handles[number]? = some handle)
    : ∃ before, world.handles[number]? = some before ∧ before.Same handle := by
  have same := touches.handles number
  rw [found] at same
  cases was : world.handles[number]? with
  | none =>
      rw [was] at same
      cases same
  | some before =>
      rw [was] at same
      cases same with
      | some same => exact ⟨before, rfl, same⟩

/-- A layout survives changes of the data of a live file or of sectors nobody owns. -/
theorem Consistent.touched (consistent : world.Consistent layout) {sectors : List Int}
    (touches : Touches world sectors after)
    (spared
      : sectors = [] ∨ ∃ handle ∈ world.handles,
          handle.status ≠ .overtaken ∧ sectors = handle.file.hdr.sectors)
    : after.Consistent layout where
  sound := consistent.sound
  onDisk := by
    rcases spared with rfl | ⟨handle, member, notOvertaken, rfl⟩
    · exact consistent.onDisk.of_unowned_changed consistent.sound
        (fun s _ => touches.disk s List.not_mem_nil)
    have fits := consistent.handles handle member
    unfold Handle.Fits at fits
    cases status : handle.status with
    | live =>
        simp only [status] at fits
        obtain ⟨slot, active, _, same⟩ := fits
        exact consistent.onDisk.of_data_changed consistent.sound active (same ▸ touches.disk)
    | removed =>
        simp only [status] at fits
        refine consistent.onDisk.of_unowned_changed consistent.sound (fun s owned => ?_)
        obtain ⟨owner, active, mine⟩ := owned
        refine touches.disk s (fun data => ?_)
        have marked := consistent.sound.marked owner active s mine
        rw [fits.2 s data] at marked
        exact Bool.false_ne_true marked
    | overtaken => exact absurd status notOvertaken
  files := touches.files.trans consistent.files
  handles := by
    intro handle member
    obtain ⟨number, found⟩ := List.mem_iff_getElem?.mp member
    obtain ⟨before, was, same⟩ := touches.handle found
    exact same.fits (consistent.handles before (List.mem_of_getElem? was))

section Keeps

variable {α : Type} {sectors : List Int}

theorem keeps_onDisk {routine : DiskRoutine α}
    (kept : ∀ s ∉ sectors, Routine.Keeps (fun disk => disk s = world.disk s) routine)
    : Routine.Keeps (Touches world sectors) (onDisk routine) :=
  fun state touches =>
    ⟨touches.files, touches.handles,
      fun s outside => kept s outside state.disk (touches.disk s outside)⟩

/-- Changing one handle keeps the others and, as far as it matters, itself. -/
theorem keeps_modify {number : Nat} {change : Handle → Handle}
    (same
      : ∀ before handle, world.handles[number]? = some before → before.Same handle
        → before.Same (change handle))
    : Routine.Keeps (Touches world sectors)
        (updateHandles (fun handles => handles.modify number change)) := by
  intro state touches
  refine ⟨touches.files, fun other => ?_, touches.disk⟩
  change Option.Rel _ _ (state.handles.modify number change)[other]?
  rw [List.getElem?_modify]
  cases found : state.handles[other]? with
  | none =>
      have kept := touches.handles other
      rwa [found] at kept
  | some handle =>
      obtain ⟨before, was, kept⟩ := touches.handle found
      rw [was]
      refine .some ?_
      by_cases here : number = other
      · simp only [if_pos here]
        exact same before handle (here ▸ was) kept
      · simp only [if_neg here]
        exact kept

/-- An open file that is reached belongs to a handle that is not deleted, by cases on the lookup. -/
theorem fileOf_eq_ok {number : Nat} {deleted : Fault} {file : OpenFile}
    (opened : world.fileOf number deleted = .ok file)
    : ∃ handle,
        world.handles[number]? = some handle ∧ handle.deleted = false ∧ handle.file = file := by
  unfold fileOf at opened
  cases found : world.handles[number]? with
  | none =>
      simp [found] at opened
  | some handle =>
      rw [found] at opened
      cases gone : handle.deleted with
      | true => simp [gone] at opened
      | false =>
          simp only [gone, Bool.false_eq_true, if_false, Except.ok.injEq] at opened
          exact ⟨handle, rfl, gone, opened⟩

/-- An operation on a handle first looks its object up. -/
theorem touches_of_fileOf {number : Nat} {deleted : Fault}
    {next : OpenFile → WorldRoutine Answer}
    (kept
      : ∀ handle, world.handles[number]? = some handle
        → Routine.Keeps (Touches world sectors) (next handle.file))
    : Touches world sectors
        ((do
          let state ← Routine.get
          let file ← Routine.lift (state.fileOf number deleted)
          next file : WorldRoutine Answer).run world).2 := by
  rw [Routine.run_bind_ok (Routine.run_get world)]
  cases opened : world.fileOf number deleted with
  | error fault =>
      rw [Routine.run_bind_error (Routine.run_lift _ _)]
      exact .refl world sectors
  | ok file =>
      obtain ⟨handle, found, _, rfl⟩ := fileOf_eq_ok opened
      rw [Routine.run_bind_ok (Routine.run_lift _ _)]
      exact kept handle found world (.refl world sectors)

theorem of_run_onDisk_ok {routine : DiskRoutine α} {value : α}
    (returned : (onDisk routine).run world = (.ok value, after))
    : ∃ disk, routine.run world.disk = (.ok value, disk) ∧ after = { world with disk } := by
  rw [onDisk, Routine.run_onPart] at returned
  obtain ⟨outcome, rfl⟩ := Prod.mk.inj returned
  exact ⟨_, Prod.ext outcome rfl, rfl⟩

theorem seek_of_run_read {file : OpenFile} {into buf : Buffer} {numBytes count : Int}
    {disk after : Disk} {moved : OpenFile}
    (returned : (file.read into numBytes).run disk = (.ok (count, buf, moved), after))
    : moved.hdr = file.hdr := by
  obtain ⟨⟨_, _⟩, _, _, rest⟩ := Routine.of_run_bind_ok returned
  simp only [Routine.run_pure, Prod.mk.injEq, Except.ok.injEq] at rest
  rw [← rest.1.2.2]
  rfl

theorem seek_of_run_write {file : OpenFile} {source : Buffer} {numBytes count : Int}
    {disk after : Disk} {moved : OpenFile}
    (returned : (file.write source numBytes).run disk = (.ok (count, moved), after))
    : moved.hdr = file.hdr := by
  obtain ⟨_, _, _, rest⟩ := Routine.of_run_bind_ok returned
  simp only [Routine.run_pure, Prod.mk.injEq, Except.ok.injEq] at rest
  rw [← rest.1.2]
  rfl

/-- Putting back an object with the headers it had. -/
theorem keeps_setFile {number : Nat} {handle : Handle} {file : OpenFile}
    (found : world.handles[number]? = some handle) (same : file.hdr = handle.file.hdr)
    : Routine.Keeps (Touches world sectors) (setFile number file) := by
  refine keeps_modify (fun before current was kept => ?_)
  rw [found] at was
  obtain rfl := Option.some.inj was
  exact ⟨same, kept.key, kept.status⟩

end Keeps

/-- An operation on a handle, whether it returns or faults, changes data sectors of the file
it writes to at most, by cases on the operation.
-/
theorem touches_perform (world : World) {operation : Operation} {number : Nat}
    (used : operation.used = some number)
    (valid
      : ∀ handle, operation.written = some number → world.handles[number]? = some handle
        → handle.file.hdr.WellFormed)
    : Touches world (world.writtenSectors operation) ((perform operation).run world).2 := by
  cases operation with
  | create | remove | openAsOpenFile => cases used
  | readAt own into numBytes position =>
      refine touches_of_fileOf (fun handle found => ?_)
      refine Routine.keeps_bind (keeps_onDisk (fun s _ => ?_)) (fun _ => Routine.keeps_pure _)
      exact OpenFile.keeps_readAt _ _ _ _ _
  | writeAt own source numBytes position =>
      obtain rfl := Option.some.inj used
      refine touches_of_fileOf (fun handle found => ?_)
      refine Routine.keeps_bind (keeps_onDisk (fun s outside => ?_))
        (fun _ => Routine.keeps_pure _)
      simp only [writtenSectors, Operation.written, Option.bind_some, found] at outside
      exact OpenFile.keeps_writeAt (valid handle rfl found) _ _ _ outside
  | read own into numBytes =>
      refine touches_of_fileOf (fun handle found => ?_)
      refine Routine.keeps_bind_of (keeps_onDisk (fun s _ => ?_))
        (fun result state after _ returned touches => ?_)
      · exact Routine.keeps_bind (OpenFile.keeps_readAt _ _ _ _ _)
          (fun _ => Routine.keeps_pure _)
      · obtain ⟨count, buf, moved⟩ := result
        obtain ⟨disk, ran, rfl⟩ := of_run_onDisk_ok returned
        exact Routine.keeps_bind (keeps_setFile found (seek_of_run_read ran))
          (fun _ => Routine.keeps_pure _) _ touches
  | write own source numBytes =>
      obtain rfl := Option.some.inj used
      refine touches_of_fileOf (fun handle found => ?_)
      refine Routine.keeps_bind_of (keeps_onDisk (fun s outside => ?_))
        (fun result state after _ returned touches => ?_)
      · simp only [writtenSectors, Operation.written, Option.bind_some, found] at outside
        exact Routine.keeps_bind
          (OpenFile.keeps_writeAt (valid handle rfl found) _ _ _ outside)
          (fun _ => Routine.keeps_pure _)
      · obtain ⟨count, moved⟩ := result
        obtain ⟨disk, ran, rfl⟩ := of_run_onDisk_ok returned
        exact Routine.keeps_bind (keeps_setFile found (seek_of_run_write ran))
          (fun _ => Routine.keeps_pure _) _ touches
  | seek own position =>
      refine touches_of_fileOf (fun handle found => ?_)
      exact Routine.keeps_bind (keeps_setFile found rfl) (fun _ => Routine.keeps_pure _)
  | delete own =>
      refine touches_of_fileOf (fun handle found => ?_)
      refine Routine.keeps_bind (keeps_modify (fun before current _ kept => ?_))
        (fun _ => Routine.keeps_pure _)
      exact ⟨kept.hdr, kept.key, kept.status⟩

-----------------------------------------------------------------------------------------
-- Operations on names
-----------------------------------------------------------------------------------------

theorem run_onDisk_ok {α : Type} {routine : DiskRoutine α} {value : α} {disk : Disk}
    (returned : routine.run world.disk = (.ok value, disk))
    : (onDisk routine).run world = (.ok value, { world with disk }) := by
  rw [onDisk, Routine.run_onPart, returned]

theorem run_updateHandles (update : List Handle → List Handle) (world : World)
    : (updateHandles update).run world
      = (.ok (), { world with handles := update world.handles }) :=
  rfl

/-- Creating a file, by the two outcomes of `FileSystem.create`. -/
theorem perform_create (consistent : world.Consistent layout) (address : FileSystem.Addresses)
    (name : Buffer) {initialSize : Int} (fits : CInt.InRange initialSize)
    : (¬layout.CanCreate name (FileHeader.allocatedSize initialSize)
        ∧ (perform (.create address name initialSize)).run world
          = (.ok (.success false), world))
      ∨ (layout.CanCreate name (FileHeader.allocatedSize initialSize)
        ∧ ∃ slot sector hdr freeMap disk,
            (perform (.create address name initialSize)).run world
              = (.ok (.success true),
                { world with disk, handles := world.handles.map Handle.overtake })
            ∧ layout.Created world.disk name initialSize slot sector hdr freeMap disk) := by
  have outcome := Layout.run_create consistent.onDisk consistent.sound address name fits
  rw [← consistent.files] at outcome
  rcases outcome with ⟨cannot, failed⟩ | ⟨can, slot, sector, hdr, freeMap, disk, ran, created⟩
  · refine .inl ⟨cannot, ?_⟩
    rw [perform, Routine.run_bind_ok (Routine.run_get world),
      Routine.run_bind_ok (run_onDisk_ok failed), if_neg Bool.false_ne_true, Routine.run_pure]
  · refine .inr ⟨can, slot, sector, hdr, freeMap, disk, ?_, created⟩
    rw [perform, Routine.run_bind_ok (Routine.run_get world),
      Routine.run_bind_ok (run_onDisk_ok ran), if_pos rfl,
      Routine.run_bind_ok (run_updateHandles _ _), Routine.run_pure]

/-- Remove fails on a name that is not there and leaves the disk, or it removes the file. Witness:
the two outcomes of the file system's `Remove`.
-/
theorem perform_remove (consistent : world.Consistent layout) (name : Buffer)
    : (layout.directory.findIndex name = none
        ∧ (perform (.remove name)).run world = (.ok (.success false), world))
      ∨ ∃ slot freeMap disk,
          (perform (.remove name)).run world
            = (.ok (.success true),
              {
                world with
                disk
                handles := world.handles.map (Handle.expire (nameKey name))
              })
          ∧ layout.Removed world.disk name slot freeMap disk := by
  have outcome := Layout.run_remove consistent.onDisk consistent.sound name
  rw [← consistent.files] at outcome
  rcases outcome with ⟨absent, failed⟩ | ⟨slot, freeMap, disk, ran, removed⟩
  · refine .inl ⟨absent, ?_⟩
    rw [perform, Routine.run_bind_ok (Routine.run_get world),
      Routine.run_bind_ok (run_onDisk_ok failed), if_neg Bool.false_ne_true, Routine.run_pure]
  · refine .inr ⟨slot, freeMap, disk, ?_, removed⟩
    rw [perform, Routine.run_bind_ok (Routine.run_get world),
      Routine.run_bind_ok (run_onDisk_ok ran), if_pos rfl,
      Routine.run_bind_ok (run_updateHandles _ _), Routine.run_pure]

/-- The handle of a file just opened. -/
def newHandle (layout : Layout) (name : Buffer) (slot : Fin numDirEntries) : Handle :=
  {
    file := { hdr := layout.header (.file slot), seekPosition := 0 }
    key := nameKey name
    status := .live
    deleted := false
  }

/-- Open finds no file and returns none, or it opens the file that the directory names. Witness:
the directory on the disk is the one of the layout.
-/
theorem run_openAsOpenFile (consistent : world.Consistent layout) (name : Buffer)
    : (layout.directory.findIndex name = none
        ∧ (world.files.openAsOpenFile name).run world.disk = (.ok none, world.disk))
      ∨ ∃ slot,
          layout.directory.findIndex name = some slot
          ∧ (world.files.openAsOpenFile name).run world.disk
            = (.ok (some (newHandle layout name slot).file), world.disk) := by
  have fetched := consistent.onDisk.run_fetchDirectory consistent.sound
  rw [← consistent.files] at fetched
  rw [FileSystem.openAsOpenFile, Routine.run_bind_ok fetched]
  cases found : layout.directory.findIndex name with
  | none =>
      rw [Layout.find_of_none found, if_neg (by simp), Routine.run_pure]
      exact .inl ⟨rfl, rfl⟩
  | some slot =>
      obtain ⟨located, active, isSector⟩ := consistent.sound.find_of_some found
      rw [located, if_pos isSector.1,
        Routine.run_bind_ok (consistent.onDisk.run_openAt consistent.sound active),
        Routine.run_pure]
      exact .inr ⟨slot, rfl, rfl⟩

/-- The same as an operation of the world: a new handle is added when the file is found. -/
theorem perform_open (consistent : world.Consistent layout) (name : Buffer)
    : (layout.directory.findIndex name = none
        ∧ (perform (.openAsOpenFile name)).run world = (.ok (.opened false), world))
      ∨ ∃ slot,
          layout.directory.findIndex name = some slot
          ∧ (perform (.openAsOpenFile name)).run world
            = (.ok (.opened true),
              { world with handles := world.handles ++ [newHandle layout name slot] }) := by
  rcases run_openAsOpenFile consistent name with ⟨absent, failed⟩ | ⟨slot, found, ran⟩
  · refine .inl ⟨absent, ?_⟩
    rw [perform, Routine.run_bind_ok (Routine.run_get world),
      Routine.run_bind_ok (run_onDisk_ok failed)]
    rfl
  · refine .inr ⟨slot, found, ?_⟩
    rw [perform, Routine.run_bind_ok (Routine.run_get world),
      Routine.run_bind_ok (run_onDisk_ok ran)]
    rfl

-----------------------------------------------------------------------------------------
-- Steps
-----------------------------------------------------------------------------------------

/-- Sizes are `int`s, and no write goes through an open file whose file was removed before
some file was created.
-/
def Cautious (world : World) (operation : Operation) : Prop :=
  (∀ address name initialSize, operation = .create address name initialSize
    → CInt.InRange initialSize)
  ∧ ∀ number handle, operation.written = some number → world.handles[number]? = some handle
    → handle.status ≠ .overtaken

/-- What an operation does to the layout and the world. -/
inductive Effect (layout : Layout) (world : World) : Operation → Layout → World → Prop where
  | created {address : FileSystem.Addresses} {name : Buffer} {initialSize : Int}
      {slot : Fin numDirEntries} {sector : Int} {hdr : FileHeader} {freeMap : Bitmap numSectors}
      {disk : Disk}
      (created : layout.Created world.disk name initialSize slot sector hdr freeMap disk)
      : Effect layout world (.create address name initialSize)
          (layout.created slot name sector hdr freeMap)
          { world with disk, handles := world.handles.map Handle.overtake }
  | removed {name : Buffer} {slot : Fin numDirEntries} {freeMap : Bitmap numSectors}
      {disk : Disk} (removed : layout.Removed world.disk name slot freeMap disk)
      : Effect layout world (.remove name) (layout.removed slot freeMap)
          { world with disk, handles := world.handles.map (Handle.expire (nameKey name)) }
  | opened {name : Buffer} {slot : Fin numDirEntries}
      (found : layout.directory.findIndex name = some slot)
      : Effect layout world (.openAsOpenFile name) layout
          { world with handles := world.handles ++ [newHandle layout name slot] }
  | touched {operation : Operation} {after : World}
      (touches : Touches world (world.writtenSectors operation) after)
      : Effect layout world operation layout after

/-- The headers of a handle that no other file has overtaken. -/
theorem Consistent.usable (consistent : world.Consistent layout) {number : Nat}
    {handle : Handle} (found : world.handles[number]? = some handle)
    (notOvertaken : handle.status ≠ .overtaken)
    : handle.file.hdr.Usable := by
  have fits := consistent.handles handle (List.mem_of_getElem? found)
  unfold Handle.Fits at fits
  cases status : handle.status with
  | live =>
      simp only [status] at fits
      obtain ⟨slot, active, _, same⟩ := fits
      rw [same]
      exact consistent.sound.usable active
  | removed =>
      simp only [status] at fits
      exact fits.1
  | overtaken => exact absurd status notOvertaken

/-- Every operation has one of the effects, whether it returns or faults, by cases on the
operation.
-/
theorem Consistent.effect (consistent : world.Consistent layout) {operation : Operation}
    (cautious : world.Cautious operation)
    : ∃ next, Effect layout world operation next ((perform operation).run world).2 := by
  cases used : operation.used with
  | some number =>
      exact ⟨layout, .touched (touches_perform world used (fun handle written found =>
        (consistent.usable found (cautious.2 number handle written found)).valid))⟩
  | none =>
      cases operation with
      | create address name initialSize =>
          rcases perform_create consistent address name (cautious.1 _ _ _ rfl) with
            ⟨_, failed⟩ | ⟨_, slot, sector, hdr, freeMap, disk, succeeded, created⟩
          · rw [failed]
            exact ⟨layout, .touched (.refl _ _)⟩
          · rw [succeeded]
            exact ⟨_, .created created⟩
      | remove name =>
          rcases perform_remove consistent name with
            ⟨_, failed⟩ | ⟨slot, freeMap, disk, succeeded, removed⟩
          · rw [failed]
            exact ⟨layout, .touched (.refl _ _)⟩
          · rw [succeeded]
            exact ⟨_, .removed removed⟩
      | openAsOpenFile name =>
          rcases perform_open consistent name with ⟨_, failed⟩ | ⟨slot, found, succeeded⟩
          · rw [failed]
            exact ⟨layout, .touched (.refl _ _)⟩
          · rw [succeeded]
            exact ⟨_, .opened found⟩
      | readAt | writeAt | read | write | seek | delete => cases used

/-- A file that is created keeps the world consistent; handles of a file that was removed may be
overtaken by it.
-/
theorem Consistent.created (consistent : world.Consistent layout) {name : Buffer} {size : Int}
    {slot : Fin numDirEntries} {sector : Int} {hdr : FileHeader} {freeMap : Bitmap numSectors}
    {disk : Disk}
    (created : layout.Created world.disk name size slot sector hdr freeMap disk)
    : Consistent { world with disk, handles := world.handles.map Handle.overtake }
        (layout.created slot name sector hdr freeMap) where
  sound := created.creation.sound consistent.sound
  onDisk := created.onDisk
  files := by
    have map : Owner.freeMap ≠ .file slot := by simp
    have directory : Owner.directory ≠ .file slot := by simp
    simp only [consistent.files, Layout.files, Layout.Creation.header_created_of_ne map,
      Layout.Creation.header_created_of_ne directory]
  handles := by
    intro handle member
    obtain ⟨old, was, rfl⟩ := List.mem_map.mp member
    exact (consistent.handles old was).created created.creation

/-- A file that is removed keeps the world consistent, since its handles expire. -/
theorem Consistent.removed (consistent : world.Consistent layout) {name : Buffer}
    {slot : Fin numDirEntries} {freeMap : Bitmap numSectors} {disk : Disk}
    (removed : layout.Removed world.disk name slot freeMap disk)
    : Consistent
        { world with disk, handles := world.handles.map (Handle.expire (nameKey name)) }
        (layout.removed slot freeMap) where
  sound := removed.removal.sound consistent.sound
  onDisk := removed.onDisk
  files := consistent.files
  handles := by
    intro handle member
    obtain ⟨old, was, rfl⟩ := List.mem_map.mp member
    exact (consistent.handles old was).removed removed.removal consistent.sound

/-- A new handle on a file in the directory keeps the world consistent. -/
theorem Consistent.opened (consistent : world.Consistent layout) {name : Buffer}
    {slot : Fin numDirEntries} (found : layout.directory.findIndex name = some slot)
    : Consistent { world with handles := world.handles ++ [newHandle layout name slot] }
        layout where
  sound := consistent.sound
  onDisk := consistent.onDisk
  files := consistent.files
  handles := by
    intro handle member
    rcases List.mem_append.mp member with old | new
    · exact consistent.handles handle old
    · rw [List.mem_singleton.mp new]
      obtain ⟨active, key⟩ := Directory.findIndex_eq_some found
      exact ⟨slot, active, key, rfl⟩

/-- Every effect of a cautious operation keeps the world consistent. -/
theorem Effect.consistent {operation : Operation} {next : Layout}
    (effect : Effect layout world operation next after)
    (before : world.Consistent layout) (cautious : world.Cautious operation)
    : after.Consistent next := by
  cases effect with
  | created created => exact before.created created
  | removed removed => exact before.removed removed
  | opened found => exact before.opened found
  | touched touches =>
      refine before.touched touches ?_
      cases written : operation.written with
      | none => exact .inl (by simp only [writtenSectors, written, Option.bind_none])
      | some number =>
          cases found : world.handles[number]? with
          | none =>
              exact .inl (by simp only [writtenSectors, written, Option.bind_some, found])
          | some handle =>
              refine .inr ⟨handle, List.mem_of_getElem? found,
                cautious.2 number handle written found, ?_⟩
              simp only [writtenSectors, written, Option.bind_some, found]

-----------------------------------------------------------------------------------------
-- Runs
-----------------------------------------------------------------------------------------

/-- A file system just formatted, with nothing opened yet. -/
def formatted (mapAddress dirAddress : FileSystem.Addresses) (disk : Disk)
    : Except Fault World :=
  let result := (FileSystem.format mapAddress dirAddress).run disk
  result.1.map (fun files => { disk := result.2, files, handles := [] })

theorem formatted_of_run {mapAddress dirAddress : FileSystem.Addresses} {disk after : Disk}
    {files : FileSystem}
    (ran : (FileSystem.format mapAddress dirAddress).run disk = (.ok files, after))
    : formatted mapAddress dirAddress disk
      = .ok { disk := after, files, handles := [] } := by
  rw [formatted, ran]
  rfl

/-- Formatting succeeds on every disk. -/
theorem formatted_spec (mapAddress dirAddress : FileSystem.Addresses) (disk : Disk)
    : ∃ start layout,
        formatted mapAddress dirAddress disk = .ok start
        ∧ start.handles = []
        ∧ start.Consistent layout
        ∧ layout.Formatted start.disk := by
  obtain ⟨layout, after, ran, isFormatted⟩ := Layout.run_format mapAddress dirAddress disk
  let start : World := { disk := after, files := layout.files, handles := [] }
  have isStart : formatted mapAddress dirAddress disk = .ok start := formatted_of_run ran
  have consistent : start.Consistent layout :=
    ⟨isFormatted.sound, isFormatted.onDisk, rfl, fun _ member => absurd member List.not_mem_nil⟩
  exact ⟨start, layout, isStart, rfl, consistent, isFormatted⟩

/-- Every world that cautious operations lead to is consistent with some layout. -/
theorem Consistent.reachable {allowed : World → Operation → Prop} {start : World}
    (consistent : start.Consistent layout)
    (cautious : ∀ state operation, allowed state operation → state.Cautious operation)
    (reachable : Runs.Reachable (Step allowed) start after)
    : ∃ next, after.Consistent next := by
  refine @Runs.Reachable.invariant _ _ _ _ _ (fun state => ∃ next, state.Consistent next)
    reachable ⟨layout, consistent⟩ ?_
  rintro state ⟨operation, answer⟩ final ⟨current, kept⟩ ⟨isAllowed, ran⟩
  have careful := cautious state operation isAllowed
  obtain ⟨next, effect⟩ := kept.effect careful
  rw [ran] at effect
  exact ⟨next, effect.consistent kept careful⟩

end World

end Nachos.FileSys
