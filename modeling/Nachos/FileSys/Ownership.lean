import Nachos.FileSys.Consistency

/-! Every sector in use belongs to one file in one role and is marked in the free map; and
which sectors stay marked when files are removed.
-/

namespace Nachos.FileSys

open Bytes Routines

namespace FileSystem

/-- The sectors of the files in the given directory slots, from their headers on disk. -/
def fileSectors (directory : Directory numDirEntries)
    : List (Fin numDirEntries) → DiskRoutine (List Int)
  | [] => pure []
  | slot :: rest => do
      let sector := (directory.entry slot).sector
      let hdr ← FileHeader.fetchFrom sector
      let others ← fileSectors directory rest
      return hdr.footprint sector ++ others

/-- The directory slots in use. -/
def usedSlots (directory : Directory numDirEntries) : List (Fin numDirEntries) :=
  (List.finRange numDirEntries).filter (fun slot => (directory.entry slot).inUse)

/-- All sectors in use on a disk: the header and data sectors of the free-map file, of the
directory file and of each file in the directory.
-/
def ownedSectors : DiskRoutine (List Int) := do
  let files ← openDisk
  let directory ← files.fetchDirectory
  let others ← fileSectors directory (usedSlots directory)
  return files.freeMapFile.hdr.footprint freeMapSector
    ++ (files.directoryFile.hdr.footprint directorySector ++ others)

/-- The free map stored on a disk. -/
def storedFreeMap : DiskRoutine (Bitmap numSectors) := do
  let files ← openDisk
  files.fetchFreeMap

end FileSystem

namespace Layout

variable {layout : Layout} {disk : Disk}

/-- The owners of a layout in the order in which `ownedSectors` goes through them. -/
def owners (layout : Layout) : List Owner :=
  .freeMap :: .directory :: (FileSystem.usedSlots layout.directory).map .file

/-- The sectors of all owners. -/
def owned (layout : Layout) : List Int := layout.owners.flatMap layout.footprint

theorem mem_usedSlots {slot : Fin numDirEntries}
    : slot ∈ FileSystem.usedSlots layout.directory ↔ layout.Active (.file slot) := by
  simp [FileSystem.usedSlots, Active]

theorem mem_owners {owner : Owner} : owner ∈ layout.owners ↔ layout.Active owner := by
  cases owner with
  | freeMap => simp [owners, Active]
  | directory => simp [owners, Active]
  | file slot => simp [owners, mem_usedSlots]

theorem mem_owned {s : Int}
    : s ∈ layout.owned ↔ ∃ owner, layout.Active owner ∧ s ∈ layout.footprint owner := by
  simp only [owned, List.mem_flatMap, mem_owners]

theorem owners_nodup (layout : Layout) : layout.owners.Nodup := by
  have used : (FileSystem.usedSlots layout.directory).Nodup :=
    (List.nodup_finRange _).filter _
  have files := used.map (show Function.Injective Owner.file from fun _ _ => Owner.file.inj)
  simp [owners, files]

/-- No sector is owned twice. -/
theorem Sound.owned_nodup (sound : layout.Sound) : layout.owned.Nodup := by
  refine List.nodup_flatMap.mpr ⟨fun owner member => ?_, ?_⟩
  · exact sound.distinct owner (mem_owners.mp member)
  · refine layout.owners_nodup.imp_of_mem (fun left right different => ?_)
    exact sound.apart _ _ (mem_owners.mp left) (mem_owners.mp right) different

/-- The sectors of the files in a list of slots are read back, by induction on the slots. -/
theorem OnDisk.run_fileSectors (onDisk : layout.OnDisk disk) (sound : layout.Sound)
    {slots : List (Fin numDirEntries)} (used : ∀ slot ∈ slots, layout.Active (.file slot))
    : (FileSystem.fileSectors layout.directory slots).run disk
      = (.ok (slots.flatMap (fun slot => layout.footprint (.file slot))), disk) := by
  induction slots with
  | nil => rfl
  | cons slot rest ih =>
      have fetched := onDisk.run_fetchFrom sound (used slot (List.mem_cons_self ..))
      have others := ih (fun other member => used other (List.mem_cons_of_mem _ member))
      rw [sector] at fetched
      rw [FileSystem.fileSectors, Routine.run_bind_ok fetched, Routine.run_bind_ok others,
        Routine.run_pure, List.flatMap_cons]
      rfl

/-- The sectors in use on a disk that holds a layout are those of its owners. -/
theorem OnDisk.run_ownedSectors (onDisk : layout.OnDisk disk) (sound : layout.Sound)
    : FileSystem.ownedSectors.run disk = (.ok layout.owned, disk) := by
  rw [FileSystem.ownedSectors, Routine.run_bind_ok (onDisk.run_openDisk sound),
    Routine.run_bind_ok (onDisk.run_fetchDirectory sound),
    Routine.run_bind_ok (onDisk.run_fileSectors sound (fun _ => mem_usedSlots.mp)),
    Routine.run_pure]
  simp only [owned, owners, List.flatMap_cons, List.flatMap_map]
  rfl

theorem OnDisk.run_storedFreeMap (onDisk : layout.OnDisk disk) (sound : layout.Sound)
    : FileSystem.storedFreeMap.run disk = (.ok layout.freeMap, disk) := by
  rw [FileSystem.storedFreeMap, Routine.run_bind_ok (onDisk.run_openDisk sound),
    onDisk.run_fetchFreeMap sound]

end Layout

-----------------------------------------------------------------------------------------
-- Ownership
-----------------------------------------------------------------------------------------

/-- The two well-known sectors and the sectors of all files are sectors of the disk, are
different from each other, and are marked in the free map of the disk.
-/
def OwnedOnce (disk : Disk) : Prop :=
  ∃ owned freeMap,
    (FileSystem.ownedSectors.run disk).1 = .ok owned
    ∧ (FileSystem.storedFreeMap.run disk).1 = .ok freeMap
    ∧ freeMapSector ∈ owned
    ∧ directorySector ∈ owned
    ∧ owned.Nodup
    ∧ ∀ s ∈ owned, IsSector s ∧ freeMap.testBit s.toNat = true

/-- A sound layout on the disk owns each sector once. Witness: the sectors and the map of the
layout.
-/
theorem Layout.OnDisk.ownedOnce {layout : Layout} {disk : Disk} (onDisk : layout.OnDisk disk)
    (sound : layout.Sound)
    : OwnedOnce disk := by
  refine ⟨layout.owned, layout.freeMap, ?_, ?_, ?_, ?_, sound.owned_nodup, fun s member => ?_⟩
  · rw [onDisk.run_ownedSectors sound]
  · rw [onDisk.run_storedFreeMap sound]
  · exact Layout.mem_owned.mpr
      ⟨.freeMap, layout.active_freeMap, Layout.mem_heads_footprint (List.mem_cons_self ..)⟩
  · exact Layout.mem_owned.mpr
      ⟨.directory, layout.active_directory, Layout.mem_heads_footprint (List.mem_cons_self ..)⟩
  · obtain ⟨owner, active, mine⟩ := Layout.mem_owned.mp member
    exact ⟨sound.inside owner active s mine, sound.marked owner active s mine⟩

/-- After formatting any disk and any operations on files, as long as no write goes through
an open file whose file was removed before another was created, every sector in use has one
owner and one role and is marked, also when an operation stops on a fault.
-/
theorem ownedOnce_of_reachable (mapAddress dirAddress : FileSystem.Addresses) (disk : Disk)
    : ∃ start,
        World.formatted mapAddress dirAddress disk = .ok start
        ∧ ∀ world, Runs.Reachable (World.Step World.Cautious) start world
          → OwnedOnce world.disk
            ∧ ∀ operation, world.Cautious operation
              → OwnedOnce ((World.perform operation).run world).2.disk := by
  obtain ⟨start, layout, isStart, _, consistent, _⟩ :=
    World.formatted_spec mapAddress dirAddress disk
  refine ⟨start, isStart, fun world reachable => ?_⟩
  obtain ⟨current, kept⟩ := consistent.reachable (fun _ _ cautious => cautious) reachable
  refine ⟨kept.onDisk.ownedOnce kept.sound, fun operation cautious => ?_⟩
  obtain ⟨next, effect⟩ := kept.effect cautious
  have after := effect.consistent kept cautious
  exact after.onDisk.ownedOnce after.sound

end Nachos.FileSys
