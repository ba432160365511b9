import Nachos.FileSys.Consistency

/-! When creating a file succeeds, and what a program finds afterwards. -/

namespace Nachos.FileSys

open Bytes Routines

namespace World

variable {world : World} {layout : Layout}

/-- The condition for creation in terms of the directory and the free map. -/
theorem canCreate_iff (name : Buffer) (size : Int)
    : layout.CanCreate name size
      ↔ (∀ slot, (layout.directory.entry slot).inUse = true
          → (layout.directory.entry slot).key ≠ nameKey name)
        ∧ (∃ slot, (layout.directory.entry slot).inUse = false)
        ∧ 1 + (size + 127) / 128 + max ((size + 3583) / 3584 - 1) 0
          ≤ layout.freeMap.numClear := by
  have space : 1 + FileHeader.sectorsNeeded size
      = 1 + (size + 127) / 128 + max ((size + 3583) / 3584 - 1) 0 := by
    rw [FileHeader.sectorsNeeded, sectorSize_eq, maxFileSize_eq, Int.add_assoc]
    rfl
  have free : layout.directory.freeIndex ≠ none
      ↔ ∃ slot, (layout.directory.entry slot).inUse = false := by
    rw [ne_eq, Directory.freeIndex_eq_none_iff, not_forall]
    simp only [Bool.not_eq_true]
  rw [← space, ← free, ← Directory.findIndex_eq_none_iff]
  constructor
  · exact fun can => ⟨can.absent, can.slot, can.space⟩
  · rintro ⟨absent, slot, space⟩
    exact ⟨absent, slot, space⟩

/-- What a program finds after it created a file. -/
theorem run_open_created (consistent : world.Consistent layout) {name : Buffer} {size : Int}
    {slot : Fin numDirEntries} {sector : Int} {hdr : FileHeader} {freeMap : Bitmap numSectors}
    {disk : Disk} (created : layout.Created world.disk name size slot sector hdr freeMap disk)
    : ∃ file,
        (world.files.openAsOpenFile name).run disk = (.ok (some file), disk)
        ∧ file.length = .ok (FileHeader.allocatedSize size) := by
  have after := consistent.created created
  have entered := created.creation.findIndex_created consistent.sound
  rcases run_openAsOpenFile after name with ⟨absent, _⟩ | ⟨own, found, ran⟩
  · rw [entered] at absent
    cases absent
  obtain rfl := Option.some.inj (entered.symm.trans found)
  refine ⟨_, ran, ?_⟩
  change FileHeader.fileLength
    ((layout.created slot name sector hdr freeMap).header (.file slot))
    = .ok (FileHeader.allocatedSize size)
  rw [Layout.Creation.header_created_self, created.creation.valid.fileLength, created.size]

/-- After any cautious run, creating a file succeeds exactly when its name is new, a
directory slot is free and enough sectors are clear for its first header, its data and its
further headers. On failure the disk is unchanged; on success one free slot holds the new
name, the others are unchanged, and the file opens with the size asked for.
-/
theorem create_iff (mapAddress dirAddress : FileSystem.Addresses) (disk : Disk)
    : ∃ start,
        formatted mapAddress dirAddress disk = .ok start
        ∧ ∀ world, Runs.Reachable (Step Cautious) start world
          → ∀ address name initialSize, 0 ≤ initialSize → initialSize < 2147483648
            → ∃ directory freeMap result after,
                (world.files.fetchDirectory.run world.disk).1 = .ok directory
                ∧ (world.files.fetchFreeMap.run world.disk).1 = .ok freeMap
                ∧ (world.files.create address name initialSize).run world.disk
                  = (.ok result, after)
                ∧ (result = true
                  ↔ (∀ slot, (directory.entry slot).inUse = true
                      → (directory.entry slot).key ≠ nameKey name)
                    ∧ (∃ slot, (directory.entry slot).inUse = false)
                    ∧ 1 + (initialSize + 127) / 128 + max ((initialSize + 3583) / 3584 - 1) 0
                      ≤ freeMap.numClear)
                ∧ (result = false → after = world.disk)
                ∧ (result = true
                  → ∃ slot changed file,
                      (directory.entry slot).inUse = false
                      ∧ (world.files.fetchDirectory.run after).1 = .ok changed
                      ∧ (changed.entry slot).inUse = true
                      ∧ (changed.entry slot).key = nameKey name
                      ∧ (∀ other, other ≠ slot → changed.entry other = directory.entry other)
                      ∧ (world.files.openAsOpenFile name).run after = (.ok (some file), after)
                      ∧ file.length = .ok initialSize) := by
  obtain ⟨start, formattedLayout, isStart, _, consistent, _⟩ :=
    formatted_spec mapAddress dirAddress disk
  refine ⟨start, isStart, fun world reachable address name initialSize nonneg fits => ?_⟩
  obtain ⟨layout, kept⟩ := consistent.reachable (fun _ _ cautious => cautious) reachable
  have directory := kept.onDisk.run_fetchDirectory kept.sound
  have freeMap := kept.onDisk.run_fetchFreeMap kept.sound
  have inRange : CInt.InRange initialSize := ⟨by omega, fits⟩
  have outcome := Layout.run_create kept.onDisk kept.sound address name inRange
  rw [FileHeader.allocatedSize_of_nonneg nonneg] at outcome
  rw [← kept.files] at directory freeMap outcome
  rw [canCreate_iff] at outcome
  rw [directory, freeMap]
  rcases outcome with ⟨cannot, ran⟩ | ⟨can, slot, sector, hdr, taken, after, ran, created⟩
  · refine ⟨layout.directory, layout.freeMap, false, world.disk, rfl, rfl, ran, ?_, ?_, ?_⟩
    · simp only [Bool.false_eq_true, false_iff]
      exact cannot
    · exact fun _ => rfl
    · exact fun failed => absurd failed Bool.false_ne_true
  · have changed := kept.created created
    have fetched := changed.onDisk.run_fetchDirectory changed.sound
    rw [← changed.files] at fetched
    obtain ⟨file, opened, length⟩ := run_open_created kept created
    rw [FileHeader.allocatedSize_of_nonneg nonneg] at length
    refine ⟨layout.directory, layout.freeMap, true, after, rfl, rfl, ran, ?_, ?_, fun _ => ?_⟩
    · simp only [true_iff]
      exact can
    · exact fun failed => absurd failed.symm Bool.false_ne_true
    · refine ⟨slot, _, file, created.creation.free, congrArg Prod.fst fetched,
        Layout.Creation.active_created_self, ?_, ?_, opened, length⟩
      · rw [Layout.Creation.entry_created_self, DirectoryEntry.key_taken]
      · exact fun other apart => Layout.Creation.entry_created_of_ne apart

end World

end Nachos.FileSys
