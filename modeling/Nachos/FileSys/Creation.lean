import Nachos.FileSys.Layout

/-! Creating a file: it succeeds exactly when name, slot and space allow, then it adds one
owner to the layout, and otherwise it changes nothing.
-/

namespace Nachos.FileSys

open Bytes Routines

namespace Layout

variable {layout : Layout} {disk : Disk}

-----------------------------------------------------------------------------------------
-- Looking up names
-----------------------------------------------------------------------------------------

/-- The sector of a name that is in the directory. -/
theorem Sound.find_of_some (sound : layout.Sound) {name : Buffer} {slot : Fin numDirEntries}
    (found : layout.directory.findIndex name = some slot)
    : layout.directory.find name = layout.sector (.file slot)
      ∧ layout.Active (.file slot)
      ∧ IsSector (layout.sector (.file slot)) := by
  have active : layout.Active (.file slot) := (Directory.findIndex_eq_some found).1
  refine ⟨?_, active, sound.heads_inside active _ (List.mem_cons_self ..)⟩
  simp only [Directory.find, found, sector]

theorem find_of_none {name : Buffer} (absent : layout.directory.findIndex name = none)
    : layout.directory.find name = -1 := by
  simp only [Directory.find, absent]

-----------------------------------------------------------------------------------------
-- The layout with one more file
-----------------------------------------------------------------------------------------

/-- The layout after a file entered `slot`. -/
def created (layout : Layout) (slot : Fin numDirEntries) (name : Buffer) (sector : Int)
    (hdr : FileHeader) (freeMap : Bitmap numSectors)
    : Layout :=
  {
    freeMap
    directory := layout.directory.put slot ((layout.directory.entry slot).taken name sector)
    header := Function.update layout.header (.file slot) hdr
  }

/-- A new file: its name is not taken, its slot is free and its sectors were clear. -/
structure Creation (layout : Layout) (slot : Fin numDirEntries) (name : Buffer) (sector : Int)
    (hdr : FileHeader) (freeMap : Bitmap numSectors)
    : Prop where
  absent : layout.directory.findIndex name = none
  free : (layout.directory.entry slot).inUse = false
  valid : hdr.WellFormed
  takes : Bitmap.Takes layout.freeMap freeMap (FileHeader.footprint sector hdr)

namespace Creation

variable {slot : Fin numDirEntries} {name : Buffer} {sector : Int} {hdr : FileHeader}
  {freeMap : Bitmap numSectors}

/-- The new owner was not active before. -/
theorem ne_of_active (creation : layout.Creation slot name sector hdr freeMap)
    {owner : Owner} (active : layout.Active owner)
    : owner ≠ .file slot := by
  rintro rfl
  simp only [Active, creation.free] at active
  exact Bool.false_ne_true active

theorem entry_created_of_ne {other : Fin numDirEntries} (apart : other ≠ slot)
    : (layout.created slot name sector hdr freeMap).directory.entry other
      = layout.directory.entry other :=
  Directory.entry_put_of_ne _ apart _

theorem entry_created_self
    : (layout.created slot name sector hdr freeMap).directory.entry slot
      = (layout.directory.entry slot).taken name sector :=
  Directory.entry_put_self _ _ _

theorem header_created_of_ne {owner : Owner} (apart : owner ≠ .file slot)
    : (layout.created slot name sector hdr freeMap).header owner = layout.header owner :=
  Function.update_of_ne apart ..

theorem header_created_self
    : (layout.created slot name sector hdr freeMap).header (.file slot) = hdr :=
  Function.update_self ..

/-- Other owners keep the sector of their header, by cases on the owner. -/
theorem sector_created_of_ne {owner : Owner} (apart : owner ≠ .file slot)
    : (layout.created slot name sector hdr freeMap).sector owner = layout.sector owner := by
  cases owner with
  | freeMap => rfl
  | directory => rfl
  | file other =>
      have slots : other ≠ slot := fun same => apart (same ▸ rfl)
      simp only [Layout.sector, entry_created_of_ne slots]

theorem sector_created_self
    : (layout.created slot name sector hdr freeMap).sector (.file slot) = sector := by
  simp only [Layout.sector, entry_created_self, DirectoryEntry.taken]

/-- Other owners are active as before, by cases on the owner. -/
theorem active_created_of_ne {owner : Owner} (apart : owner ≠ .file slot)
    : (layout.created slot name sector hdr freeMap).Active owner ↔ layout.Active owner := by
  cases owner with
  | freeMap => rfl
  | directory => rfl
  | file other =>
      have slots : other ≠ slot := fun same => apart (same ▸ rfl)
      simp only [Active, entry_created_of_ne slots]

theorem active_created_self
    : (layout.created slot name sector hdr freeMap).Active (.file slot) := by
  simp only [Active, entry_created_self, DirectoryEntry.taken]

theorem footprint_created_of_ne {owner : Owner} (apart : owner ≠ .file slot)
    : (layout.created slot name sector hdr freeMap).footprint owner
      = layout.footprint owner := by
  simp only [footprint, heads, header_created_of_ne apart, sector_created_of_ne apart]

theorem footprint_created_self
    : (layout.created slot name sector hdr freeMap).footprint (.file slot)
      = FileHeader.footprint sector hdr := by
  simp only [footprint, heads, header_created_self, sector_created_self,
    FileHeader.footprint]

/-- An owner after the creation is the new file, or had the same header and sectors before. -/
theorem owner_created {owner : Owner}
    (active : (layout.created slot name sector hdr freeMap).Active owner)
    : (owner = .file slot
        ∧ (layout.created slot name sector hdr freeMap).header owner = hdr
        ∧ (layout.created slot name sector hdr freeMap).footprint owner
          = FileHeader.footprint sector hdr)
      ∨ (owner ≠ .file slot
        ∧ layout.Active owner
        ∧ (layout.created slot name sector hdr freeMap).header owner = layout.header owner
        ∧ (layout.created slot name sector hdr freeMap).footprint owner
          = layout.footprint owner) := by
  by_cases new : owner = .file slot
  · subst new
    exact .inl ⟨rfl, header_created_self, footprint_created_self⟩
  · exact .inr ⟨new, (active_created_of_ne new).mp active, header_created_of_ne new,
      footprint_created_of_ne new⟩

/-- Likewise for the entries of the directory. -/
theorem entry_created {other : Fin numDirEntries}
    (active : (layout.created slot name sector hdr freeMap).Active (.file other))
    : (other = slot
        ∧ (layout.created slot name sector hdr freeMap).directory.entry other
          = (layout.directory.entry slot).taken name sector)
      ∨ (layout.Active (.file other)
        ∧ (layout.created slot name sector hdr freeMap).directory.entry other
          = layout.directory.entry other) := by
  by_cases new : other = slot
  · subst new
    exact .inl ⟨rfl, entry_created_self⟩
  · exact .inr ⟨(active_created_of_ne (by simpa using new)).mp active, entry_created_of_ne new⟩

/-- Sectors in use before are not among the new file's. -/
theorem not_taken (creation : layout.Creation slot name sector hdr freeMap)
    (sound : layout.Sound) {owner : Owner} (active : layout.Active owner) {s : Int}
    (owned : s ∈ layout.footprint owner)
    : s ∉ FileHeader.footprint sector hdr := by
  intro taken
  have clear := creation.takes.clear s taken
  rw [sound.marked owner active s owned] at clear
  exact Bool.noConfusion clear

/-- Adding a file keeps a layout sound, by cases on whether an owner is the new one. -/
theorem sound (creation : layout.Creation slot name sector hdr freeMap)
    (before : layout.Sound)
    : (layout.created slot name sector hdr freeMap).Sound := by
  have bits := creation.takes.bits
  refine {
    valid := ?_
    mapSize := ?_
    dirSize := ?_
    distinct := ?_
    apart := ?_
    inside := ?_
    marked := ?_
    keys := ?_
    fits := ?_
  }
  · intro owner active
    rcases owner_created active with ⟨_, header, _⟩ | ⟨_, old, header, _⟩
    · rw [header]
      exact creation.valid
    · rw [header]
      exact before.valid owner old
  · rw [header_created_of_ne (by simp)]
    exact before.mapSize
  · rw [header_created_of_ne (by simp)]
    exact before.dirSize
  · intro owner active
    rcases owner_created active with ⟨_, _, footprint⟩ | ⟨_, old, _, footprint⟩
    · exact footprint ▸ creation.takes.distinct
    · exact footprint ▸ before.distinct owner old
  · intro owner other active otherActive different s inLeft inRight
    rcases owner_created active with ⟨new, _, left⟩ | ⟨_, old, _, left⟩
    · rcases owner_created otherActive with ⟨otherNew, _⟩ | ⟨_, otherOld, _, right⟩
      · exact different (new.trans otherNew.symm)
      · exact creation.not_taken before otherOld (right ▸ inRight) (left ▸ inLeft)
    · rcases owner_created otherActive with ⟨_, _, right⟩ | ⟨_, otherOld, _, right⟩
      · exact creation.not_taken before old (left ▸ inLeft) (right ▸ inRight)
      · exact before.apart owner other old otherOld different (left ▸ inLeft) (right ▸ inRight)
  · intro owner active s member
    rcases owner_created active with ⟨_, _, footprint⟩ | ⟨_, old, _, footprint⟩
    · exact creation.takes.inside s (footprint ▸ member)
    · exact before.inside owner old s (footprint ▸ member)
  · intro owner active s member
    change freeMap.testBit s.toNat = true
    rw [bits]
    rcases owner_created active with ⟨_, _, footprint⟩ | ⟨_, old, _, footprint⟩
    · rw [footprint] at member
      rw [Int.toNat_of_nonneg (creation.takes.inside s member).1]
      simp [member]
    · rw [before.marked owner old s (footprint ▸ member), Bool.or_true]
  · intro left right leftActive rightActive same
    have absent := (Directory.findIndex_eq_none_iff _ _).mp creation.absent
    rcases entry_created leftActive with ⟨leftNew, leftEntry⟩ | ⟨leftOld, leftEntry⟩
    · rcases entry_created rightActive with ⟨rightNew, _⟩ | ⟨rightOld, rightEntry⟩
      · exact leftNew.trans rightNew.symm
      · rw [leftEntry, DirectoryEntry.key_taken, rightEntry] at same
        exact absurd same.symm (absent right rightOld)
    · rcases entry_created rightActive with ⟨_, rightEntry⟩ | ⟨rightOld, rightEntry⟩
      · rw [rightEntry, DirectoryEntry.key_taken, leftEntry] at same
        exact absurd same (absent left leftOld)
      · rw [leftEntry, rightEntry] at same
        exact before.keys left right leftOld rightOld same
  · intro other
    by_cases new : other = slot
    · rw [new, entry_created_self]
      have range := creation.takes.inside sector (List.mem_cons_self ..)
      simp only [numSectors_eq] at range
      exact ⟨by simp only [DirectoryEntry.taken]; omega, by simp only [DirectoryEntry.taken]; omega⟩
    · rw [entry_created_of_ne new]
      exact before.fits other

/-- The new file is found under its name. -/
theorem findIndex_created (creation : layout.Creation slot name sector hdr freeMap)
    (before : layout.Sound)
    : (layout.created slot name sector hdr freeMap).directory.findIndex name = some slot := by
  have entered := @active_created_self layout slot name sector hdr freeMap
  have named : ((layout.created slot name sector hdr freeMap).directory.entry slot).key
      = nameKey name := by
    rw [entry_created_self, DirectoryEntry.key_taken]
  cases found : (layout.created slot name sector hdr freeMap).directory.findIndex name with
  | none => exact absurd named ((Directory.findIndex_eq_none_iff _ _).mp found slot entered)
  | some own =>
      obtain ⟨active, key⟩ := Directory.findIndex_eq_some found
      exact congrArg some ((creation.sound before).keys own slot active entered
        (key.trans named.symm))

/-- The changed disk holds the new layout: the new headers are stored, the directory and
the free map rewritten, and no other header or file touched.
-/
theorem onDisk {after : Disk} (creation : layout.Creation slot name sector hdr freeMap)
    (before : layout.Sound) (onDisk : layout.OnDisk disk)
    (stored : hdr.StoredAt after sector)
    (dirHolds
      : Holds after (layout.header .directory)
          (layout.created slot name sector hdr freeMap).directory.image
          (numDirEntries * DirectoryEntry.size))
    (mapHolds
      : Holds after (layout.header .freeMap) freeMap.image (Bitmap.imageSize numSectors))
    (frame
      : ∀ s ∉ sector :: hdr.chain,
          s ∉ (layout.header .directory).sectors → s ∉ (layout.header .freeMap).sectors
          → after s = disk s)
    : (layout.created slot name sector hdr freeMap).OnDisk after where
  stored := by
    intro owner active
    by_cases new : owner = .file slot
    · rw [new, header_created_self, sector_created_self]
      exact stored
    · have old := (active_created_of_ne new).mp active
      rw [header_created_of_ne new, sector_created_of_ne new]
      refine (onDisk.stored owner old).congr (fun s head => frame s ?_ ?_ ?_)
      · exact fun taken => creation.not_taken before old (mem_heads_footprint head)
          (List.mem_append_left _ taken)
      · exact before.heads_not_data old layout.active_directory head
      · exact before.heads_not_data old layout.active_freeMap head
  freeMap := by
    rw [header_created_of_ne (by simp)]
    exact mapHolds
  directory := by
    rw [header_created_of_ne (by simp)]
    exact dirHolds

end Creation

-----------------------------------------------------------------------------------------
-- Running `create`
-----------------------------------------------------------------------------------------

/-- When a file of `size` bytes can be created under a name. -/
structure CanCreate (layout : Layout) (name : Buffer) (size : Int) : Prop where
  absent : layout.directory.findIndex name = none
  slot : layout.directory.freeIndex ≠ none
  space : 1 + FileHeader.sectorsNeeded size ≤ layout.freeMap.numClear

/-- What a successful `create` of `fileSize` bytes leaves behind. -/
structure Created (layout : Layout) (disk : Disk) (name : Buffer) (fileSize : Int)
    (slot : Fin numDirEntries) (sector : Int) (hdr : FileHeader) (freeMap : Bitmap numSectors)
    (after : Disk)
    : Prop where
  creation : layout.Creation slot name sector hdr freeMap
  allocated
    : ∃ marked,
        layout.freeMap.findAndSet = (sector, marked)
        ∧ FileHeader.allocate marked fileSize = .ok (true, hdr, freeMap)
  size : hdr.size = FileHeader.allocatedSize fileSize
  onDisk : (layout.created slot name sector hdr freeMap).OnDisk after
  frame
    : ∀ s ∉ sector :: hdr.chain,
        s ∉ (layout.header .directory).sectors → s ∉ (layout.header .freeMap).sectors
        → after s = disk s

/-- Sectors of other files are not written. -/
theorem Created.spared {name : Buffer} {fileSize sector : Int} {slot : Fin numDirEntries}
    {hdr : FileHeader} {freeMap : Bitmap numSectors} {after : Disk}
    (created : layout.Created disk name fileSize slot sector hdr freeMap after)
    (sound : layout.Sound) {other : Fin numDirEntries} (active : layout.Active (.file other))
    {s : Int} (member : s ∈ layout.footprint (.file other))
    : after s = disk s := by
  refine created.frame s ?_ ?_ ?_
  · exact fun head => created.creation.not_taken sound active member
      (List.mem_append_left _ head)
  · exact fun data => Owner.noConfusion (sound.owner_unique active layout.active_directory
      member (mem_sectors_footprint data))
  · exact fun data => Owner.noConfusion (sound.owner_unique active layout.active_freeMap
      member (mem_sectors_footprint data))

/-- The data sectors of the new file are not written. -/
theorem Created.data_kept {name : Buffer} {fileSize sector : Int} {slot : Fin numDirEntries}
    {hdr : FileHeader} {freeMap : Bitmap numSectors} {after : Disk}
    (created : layout.Created disk name fileSize slot sector hdr freeMap after)
    (sound : layout.Sound) {s : Int} (data : s ∈ hdr.sectors)
    : after s = disk s := by
  have mine : s ∈ FileHeader.footprint sector hdr := List.mem_append_right _ data
  obtain ⟨_, _, apart⟩ := List.nodup_append.mp created.creation.takes.distinct
  refine created.frame s (fun head => apart s head s data rfl) ?_ ?_
  · exact fun other => created.creation.not_taken sound layout.active_directory
      (mem_sectors_footprint other) mine
  · exact fun other => created.creation.not_taken sound layout.active_freeMap
      (mem_sectors_footprint other) mine

/-- Free maps that agree give a new file of the same size the same sectors. -/
theorem Created.header_eq {left right : Layout} {leftDisk rightDisk leftAfter rightAfter : Disk}
    {leftName rightName : Buffer} {fileSize leftSector rightSector : Int}
    {leftSlot rightSlot : Fin numDirEntries} {leftHdr rightHdr : FileHeader}
    {leftMap rightMap : Bitmap numSectors}
    (first : left.Created leftDisk leftName fileSize leftSlot leftSector leftHdr leftMap leftAfter)
    (second
      : right.Created rightDisk rightName fileSize rightSlot rightSector rightHdr rightMap
          rightAfter)
    (same : left.freeMap = right.freeMap)
    : leftHdr = rightHdr := by
  obtain ⟨leftMarked, leftFound, leftAllocated⟩ := first.allocated
  obtain ⟨rightMarked, rightFound, rightAllocated⟩ := second.allocated
  rw [same, rightFound] at leftFound
  obtain rfl := (Prod.mk.inj leftFound).2
  rw [rightAllocated] at leftAllocated
  exact (Prod.mk.inj (Prod.mk.inj (Except.ok.inj leftAllocated)).2).1.symm

/-- The writes of a successful `create`. -/
theorem run_create_writes (onDisk : layout.OnDisk disk) (sound : layout.Sound)
    (address : FileSystem.Addresses) {slot : Fin numDirEntries} {name : Buffer} {sector : Int}
    {hdr : FileHeader} {freeMap : Bitmap numSectors}
    (creation : layout.Creation slot name sector hdr freeMap)
    : ∃ after,
        (do
          hdr.writeBack address sector
          (layout.created slot name sector hdr freeMap).directory.writeBack
            layout.files.directoryFile
          freeMap.writeBack layout.files.freeMapFile
          return true : DiskRoutine Bool).run disk
          = (.ok true, after)
        ∧ (layout.created slot name sector hdr freeMap).OnDisk after
        ∧ ∀ s ∉ sector :: hdr.chain,
            s ∉ (layout.header .directory).sectors → s ∉ (layout.header .freeMap).sectors
            → after s = disk s := by
  obtain ⟨headDistinct, _, _⟩ := List.nodup_append.mp creation.takes.distinct
  have headInside : ∀ s ∈ sector :: hdr.chain, IsSector s :=
    fun s member => creation.takes.inside s (List.mem_append_left _ member)
  obtain ⟨headed, headRun, stored, headFrame⟩ :=
    @FileHeader.run_writeBack address disk sector hdr creation.valid headInside headDistinct
  obtain ⟨entered, dirRun, dirFrame, dirHolds⟩ := @Directory.run_writeBack _
    layout.files.directoryFile (layout.created slot name sector hdr freeMap).directory
    (sound.usable layout.active_directory) sound.dirWhole headed
  obtain ⟨after, mapRun, mapFrame, mapHolds⟩ := @Bitmap.run_writeBack _
    layout.files.freeMapFile freeMap (sound.usable layout.active_freeMap) sound.mapWhole.ge entered
  have frame : ∀ s ∉ sector :: hdr.chain,
      s ∉ (layout.header .directory).sectors → s ∉ (layout.header .freeMap).sectors
      → after s = disk s := by
    intro s head directory map
    rw [mapFrame s map, dirFrame s directory, headFrame s head]
  have notOwned {owner : Owner} (active : layout.Active owner) {s : Int}
      (head : s ∈ sector :: hdr.chain)
      : s ∉ (layout.header owner).sectors :=
    fun data => creation.not_taken sound active (mem_sectors_footprint data)
      (List.mem_append_left _ head)
  refine ⟨after, ?_, ?_, frame⟩
  · rw [Routine.run_bind_ok headRun, Routine.run_bind_ok dirRun, Routine.run_bind_ok mapRun,
      Routine.run_pure]
  · refine creation.onDisk sound onDisk (stored.congr ?_) ?_ mapHolds frame
    · intro s head
      rw [mapFrame s (notOwned layout.active_freeMap head),
        dirFrame s (notOwned layout.active_directory head)]
    · refine dirHolds.congr (sound.valid _ layout.active_directory) sound.dirWhole.ge ?_
      exact fun s data => mapFrame s (sound.data_not_data layout.active_directory
        layout.active_freeMap (by simp) data)

/-- `create` never faults; it returns true exactly when it can create the file, and false
without a change otherwise. The cases are the tests of the source in their order.
-/
theorem run_create (onDisk : layout.OnDisk disk) (sound : layout.Sound)
    (address : FileSystem.Addresses) (name : Buffer) {fileSize : Int}
    (fits : CInt.InRange fileSize)
    : (¬layout.CanCreate name (FileHeader.allocatedSize fileSize)
        ∧ (layout.files.create address name fileSize).run disk = (.ok false, disk))
      ∨ (layout.CanCreate name (FileHeader.allocatedSize fileSize)
        ∧ ∃ slot sector hdr freeMap after,
            (layout.files.create address name fileSize).run disk = (.ok true, after)
            ∧ layout.Created disk name fileSize slot sector hdr freeMap after) := by
  rw [FileSystem.create, Routine.run_bind_ok (onDisk.run_fetchDirectory sound)]
  cases absent : layout.directory.findIndex name with
  | some slot =>
      obtain ⟨found, _, isSector⟩ := sound.find_of_some absent
      have taken : layout.directory.find name ≠ -1 := by
        rw [found]
        have nonneg := isSector.1
        omega
      refine .inl ⟨fun can => ?_, ?_⟩
      · rw [can.absent] at absent
        exact Option.some_ne_none slot absent.symm
      · rw [if_pos taken, Routine.run_pure]
  | none =>
      rw [find_of_none absent, if_neg (by simp),
        Routine.run_bind_ok (onDisk.run_fetchFreeMap sound)]
      have needed := FileHeader.sectorsNeeded_nonneg (FileHeader.allocatedSize_nonneg fileSize)
      rcases Nat.eq_zero_or_pos layout.freeMap.numClear with full | room
      · simp only [Bitmap.findAndSet_of_full full, if_true]
        refine .inl ⟨fun can => ?_, Routine.run_pure _ _⟩
        have space := can.space
        omega
      obtain ⟨sector, marked, found, sectorNonneg, takesSector⟩ := Bitmap.takes_findAndSet room
      have left := takesSector.count
      rw [List.length_singleton] at left
      simp only [found, if_neg (show sector ≠ -1 by omega)]
      have notThere : (layout.directory.findIndex name).isSome = false := by rw [absent]; rfl
      cases free : layout.directory.freeIndex with
      | none =>
          have refused : layout.directory.add name sector = (false, layout.directory) := by
            simp only [Directory.add, notThere, free, Bool.false_eq_true, if_false]
          simp only [refused, Bool.not_false, if_true]
          exact .inl ⟨fun can => can.slot free, Routine.run_pure _ _⟩
      | some slot =>
          have added : layout.directory.add name sector
              = (true, layout.directory.put slot
                  ((layout.directory.entry slot).taken name sector)) := by
            simp only [Directory.add, notThere, free, Bool.false_eq_true, if_false]
          obtain ⟨⟨success, hdr, freeMap⟩, allocated, answer⟩ :=
            @FileHeader.allocate_spec numSectors marked fileSize (by decide) fits
          have enough := answer.success_iff
          simp only [added, Bool.not_true, Bool.false_eq_true, if_false]
          rw [allocated, Routine.run_bind_ok (Routine.run_lift _ _)]
          cases success with
          | false =>
              simp only [Bool.false_eq_true, false_iff] at enough
              refine .inl ⟨fun can => enough ?_, Routine.run_pure _ _⟩
              have space := can.space
              omega
          | true =>
              simp only [true_iff] at enough
              have takes : Bitmap.Takes layout.freeMap freeMap
                  (FileHeader.footprint sector hdr) :=
                takesSector.append (answer.takes rfl)
              have creation : layout.Creation slot name sector hdr freeMap :=
                ⟨absent, Directory.freeIndex_eq_some free, answer.valid rfl, takes⟩
              obtain ⟨after, writes, holds, frame⟩ :=
                run_create_writes onDisk sound address creation
              refine .inr ⟨⟨absent, ?_, ?_⟩, slot, sector, hdr, freeMap, after, writes, creation,
                ⟨marked, found, allocated⟩, answer.size rfl, holds, frame⟩
              · rw [free]
                exact Option.some_ne_none slot
              · omega

end Layout

end Nachos.FileSys
