import Nachos.FileSys.Creation

/-! Removing a file: its name and data sectors and the sector of its first header become
free again, the sectors of its further headers stay marked.
-/

namespace Nachos.FileSys

open Bytes Routines

namespace Layout

variable {layout : Layout} {disk : Disk}

/-- The layout after the file in `slot` was removed. -/
def removed (layout : Layout) (slot : Fin numDirEntries) (freeMap : Bitmap numSectors)
    : Layout :=
  {
    layout with
    freeMap
    directory :=
      layout.directory.put slot { layout.directory.entry slot with inUse := false }
  }

/-- The sectors that `remove` releases. -/
def released (layout : Layout) (slot : Fin numDirEntries) : List Int :=
  (layout.header (.file slot)).sectors ++ [layout.sector (.file slot)]

/-- The removal of the file with a given name. -/
structure Removal (layout : Layout) (slot : Fin numDirEntries) (name : Buffer)
    (freeMap : Bitmap numSectors)
    : Prop where
  found : layout.directory.findIndex name = some slot
  releases : layout.freeMap.Releases freeMap (layout.released slot)

theorem mem_released_footprint {slot : Fin numDirEntries} {s : Int}
    (member : s ∈ layout.released slot)
    : s ∈ layout.footprint (.file slot) := by
  rcases List.mem_append.mp member with data | head
  · exact mem_sectors_footprint data
  · rw [List.mem_singleton.mp head]
    exact mem_heads_footprint (List.mem_cons_self ..)

namespace Removal

variable {slot : Fin numDirEntries} {name : Buffer} {freeMap : Bitmap numSectors}

theorem active (removal : layout.Removal slot name freeMap) : layout.Active (.file slot) :=
  (Directory.findIndex_eq_some removal.found).1

theorem entry_removed_of_ne {other : Fin numDirEntries} (apart : other ≠ slot)
    : (layout.removed slot freeMap).directory.entry other = layout.directory.entry other :=
  Directory.entry_put_of_ne _ apart _

theorem entry_removed_self
    : (layout.removed slot freeMap).directory.entry slot
      = { layout.directory.entry slot with inUse := false } :=
  Directory.entry_put_self _ _ _

/-- The other owners stay. -/
theorem active_removed_iff {owner : Owner}
    : (layout.removed slot freeMap).Active owner ↔ owner ≠ .file slot ∧ layout.Active owner := by
  cases owner with
  | freeMap => simp [Active]
  | directory => simp [Active]
  | file other =>
      by_cases same : other = slot
      · rw [same]
        simp only [Active, entry_removed_self, Bool.false_eq_true, ne_eq, not_true, false_and]
      · simp only [Active, entry_removed_of_ne same, ne_eq, Owner.file.injEq, same,
          not_false_iff, true_and]

/-- All owners keep the sector of their header, by cases on the owner; the removed file only goes
out of use.
-/
theorem sector_removed (owner : Owner)
    : (layout.removed slot freeMap).sector owner = layout.sector owner := by
  cases owner with
  | freeMap => rfl
  | directory => rfl
  | file other =>
      by_cases same : other = slot
      · rw [same]
        simp only [Layout.sector, entry_removed_self]
      · simp only [Layout.sector, entry_removed_of_ne same]

theorem heads_removed (owner : Owner)
    : (layout.removed slot freeMap).heads owner = layout.heads owner := by
  rw [heads, sector_removed]
  rfl

theorem footprint_removed (owner : Owner)
    : (layout.removed slot freeMap).footprint owner = layout.footprint owner := by
  rw [footprint, heads_removed]
  rfl

theorem key_removed (other : Fin numDirEntries)
    : ((layout.removed slot freeMap).directory.entry other).key
      = (layout.directory.entry other).key := by
  by_cases same : other = slot
  · rw [same, entry_removed_self]
    rfl
  · rw [entry_removed_of_ne same]

/-- Sectors of other owners stay marked. -/
theorem not_released (removal : layout.Removal slot name freeMap) (sound : layout.Sound)
    {owner : Owner} (different : owner ≠ .file slot) (active : layout.Active owner) {s : Int}
    (owned : s ∈ layout.footprint owner)
    : s ∉ layout.released slot :=
  fun member => different (sound.owner_unique active removal.active owned
    (mem_released_footprint member))

/-- Removing a file keeps a layout sound. -/
theorem sound (removal : layout.Removal slot name freeMap) (before : layout.Sound)
    : (layout.removed slot freeMap).Sound where
  valid := fun owner active => before.valid owner (active_removed_iff.mp active).2
  mapSize := before.mapSize
  dirSize := before.dirSize
  distinct := by
    intro owner active
    rw [footprint_removed]
    exact before.distinct owner (active_removed_iff.mp active).2
  apart := by
    intro owner other active otherActive different
    rw [footprint_removed, footprint_removed]
    exact before.apart owner other (active_removed_iff.mp active).2
      (active_removed_iff.mp otherActive).2 different
  inside := by
    intro owner active
    rw [footprint_removed]
    exact before.inside owner (active_removed_iff.mp active).2
  marked := by
    intro owner active s owned
    rw [footprint_removed] at owned
    obtain ⟨different, old⟩ := active_removed_iff.mp active
    have kept := removal.not_released before different old owned
    change freeMap.testBit s.toNat = true
    rw [removal.releases, Int.toNat_of_nonneg (before.inside owner old s owned).1,
      before.marked owner old s owned]
    simpa using kept
  keys := by
    intro left right leftActive rightActive same
    rw [key_removed, key_removed] at same
    exact before.keys left right (active_removed_iff.mp leftActive).2
      (active_removed_iff.mp rightActive).2 same
  fits := by
    intro other
    have fits := before.fits other
    by_cases same : other = slot
    · rw [same] at fits ⊢
      rw [entry_removed_self]
      exact fits
    · rw [entry_removed_of_ne same]
      exact fits

/-- What creating and then removing a file leaves marked: every sector marked before, and
the sectors of the file's further headers.
-/
theorem bits_of_created {sector : Int} {hdr : FileHeader} {taken : Bitmap numSectors}
    (creation : layout.Creation slot name sector hdr taken)
    (removal : (layout.created slot name sector hdr taken).Removal slot name freeMap)
    (which : Nat)
    : freeMap.testBit which
      = (decide ((which : Int) ∈ hdr.chain) || layout.freeMap.testBit which) := by
  have releases : taken.Releases freeMap (hdr.sectors ++ [sector]) := by
    have both := removal.releases
    rwa [released, Creation.header_created_self, Creation.sector_created_self] at both
  refine creation.takes.release releases ?_ which
  have swapped : (FileHeader.footprint sector hdr).Perm (hdr.sectors ++ sector :: hdr.chain) :=
    List.perm_append_comm
  rwa [List.append_assoc]

/-- A file with one header leaves the free map as it was before it was created. -/
theorem freeMap_of_created {sector : Int} {hdr : FileHeader} {taken : Bitmap numSectors}
    (creation : layout.Creation slot name sector hdr taken)
    (removal : (layout.created slot name sector hdr taken).Removal slot name freeMap)
    (single : hdr.chain = [])
    : freeMap = layout.freeMap := by
  refine Bitmap.ext_of_testBit (by decide) (fun which _ => ?_)
  rw [bits_of_created creation removal which, single]
  simp

/-- The changed disk holds the layout without the file. -/
theorem onDisk {after : Disk} (before : layout.Sound) (onDisk : layout.OnDisk disk)
    (dirHolds
      : Holds after (layout.header .directory) (layout.removed slot freeMap).directory.image
          (numDirEntries * DirectoryEntry.size))
    (mapHolds
      : Holds after (layout.header .freeMap) freeMap.image (Bitmap.imageSize numSectors))
    (frame
      : ∀ s ∉ (layout.header .directory).sectors, s ∉ (layout.header .freeMap).sectors
          → after s = disk s)
    : (layout.removed slot freeMap).OnDisk after where
  stored := by
    intro owner active
    have old := (active_removed_iff.mp active).2
    rw [sector_removed]
    refine (onDisk.stored owner old).congr (fun s head => frame s ?_ ?_)
    · exact before.heads_not_data old layout.active_directory head
    · exact before.heads_not_data old layout.active_freeMap head
  freeMap := mapHolds
  directory := dirHolds

end Removal

-----------------------------------------------------------------------------------------
-- Running `remove`
-----------------------------------------------------------------------------------------

/-- What a successful `remove` leaves behind. -/
structure Removed (layout : Layout) (disk : Disk) (name : Buffer) (slot : Fin numDirEntries)
    (freeMap : Bitmap numSectors) (after : Disk)
    : Prop where
  removal : layout.Removal slot name freeMap
  onDisk : (layout.removed slot freeMap).OnDisk after
  frame
    : ∀ s ∉ (layout.header .directory).sectors, s ∉ (layout.header .freeMap).sectors
      → after s = disk s

/-- The data sectors of files are not written. -/
theorem Removed.data_kept {name : Buffer} {slot other : Fin numDirEntries}
    {freeMap : Bitmap numSectors} {after : Disk}
    (removed : layout.Removed disk name slot freeMap after) (sound : layout.Sound)
    (active : layout.Active (.file other)) {s : Int}
    (data : s ∈ (layout.header (.file other)).sectors)
    : after s = disk s :=
  removed.frame s (sound.data_not_data active layout.active_directory (by simp) data)
    (sound.data_not_data active layout.active_freeMap (by simp) data)

/-- The release of a file's data sectors and of its first header's sector never faults. -/
theorem Sound.release (sound : layout.Sound) {slot : Fin numDirEntries}
    (active : layout.Active (.file slot))
    : ∃ released freeMap,
        (layout.header (.file slot)).deallocate layout.freeMap = .ok released
        ∧ released.clear (layout.sector (.file slot)) = .ok freeMap
        ∧ layout.freeMap.Releases freeMap (layout.released slot) := by
  have usable := sound.usable active
  obtain ⟨released, deallocated, releases⟩ := FileHeader.deallocate_spec usable.valid
    usable.distinct usable.inside
    (fun s member => sound.marked _ active s (mem_sectors_footprint member))
  have head : IsSector (layout.sector (.file slot)) :=
    sound.heads_inside active _ (List.mem_cons_self ..)
  exact ⟨released, _, deallocated, released.clear_of_inside head,
    releases.append (released.releases_clearBit head)⟩

/-- `remove` never faults; it returns false without a change for a name that is not in the
directory, and otherwise removes the file.
-/
theorem run_remove (onDisk : layout.OnDisk disk) (sound : layout.Sound) (name : Buffer)
    : (layout.directory.findIndex name = none
        ∧ (layout.files.remove name).run disk = (.ok false, disk))
      ∨ ∃ slot freeMap after,
          (layout.files.remove name).run disk = (.ok true, after)
          ∧ layout.Removed disk name slot freeMap after := by
  rw [FileSystem.remove, Routine.run_bind_ok (onDisk.run_fetchDirectory sound)]
  cases found : layout.directory.findIndex name with
  | none =>
      rw [find_of_none found, if_pos rfl, Routine.run_pure]
      exact .inl ⟨rfl, rfl⟩
  | some slot =>
      obtain ⟨located, active, isSector⟩ := sound.find_of_some found
      obtain ⟨released, freeMap, deallocated, cleared, releases⟩ := sound.release active
      have removal : layout.Removal slot name freeMap := ⟨found, releases⟩
      have there : layout.sector (.file slot) ≠ -1 := by
        have nonneg := isSector.1
        omega
      have taken : layout.directory.remove name
          = (true, (layout.removed slot freeMap).directory) := by
        simp only [Directory.remove, found, removed]
      obtain ⟨mapped, mapRun, mapFrame, mapHolds⟩ := @Bitmap.run_writeBack _
        layout.files.freeMapFile freeMap (sound.usable layout.active_freeMap) sound.mapWhole.ge disk
      obtain ⟨after, dirRun, dirFrame, dirHolds⟩ := @Directory.run_writeBack _
        layout.files.directoryFile (layout.removed slot freeMap).directory
        (sound.usable layout.active_directory) sound.dirWhole mapped
      have frame : ∀ s ∉ (layout.header .directory).sectors,
          s ∉ (layout.header .freeMap).sectors → after s = disk s := by
        intro s directory map
        rw [dirFrame s directory, mapFrame s map]
      refine .inr ⟨slot, freeMap, after, ?_, removal, ?_, frame⟩
      · rw [located, if_neg there, Routine.run_bind_ok (onDisk.run_fetchFrom sound active),
          Routine.run_bind_ok (onDisk.run_fetchFreeMap sound), deallocated,
          Routine.run_bind_ok (Routine.run_lift _ _), cleared,
          Routine.run_bind_ok (Routine.run_lift _ _)]
        simp only [taken]
        rw [Routine.run_bind_ok mapRun, Routine.run_bind_ok dirRun, Routine.run_pure]
      · refine Removal.onDisk sound onDisk dirHolds (mapHolds.congr
          (sound.valid _ layout.active_freeMap) sound.mapWhole.ge ?_) frame
        exact fun s data => dirFrame s (sound.data_not_data layout.active_freeMap
          layout.active_directory (by simp) data)

end Layout

end Nachos.FileSys
