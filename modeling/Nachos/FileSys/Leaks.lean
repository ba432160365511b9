import Nachos.FileSys.Ownership

/-! Sectors that stay marked without an owner: `remove` leaves behind the sectors of the
headers after the first, and nothing else does.
-/

namespace Nachos.FileSys

open Bytes Routines

namespace Layout

variable {layout : Layout}

/-- Every marked sector is owned. -/
def Tight (layout : Layout) : Prop :=
  ∀ which : Nat, which < numSectors → layout.freeMap.testBit which = true
    → (which : Int) ∈ layout.owned

/-- A file that is created owns the footprint of its header, and the others own what they did, by
cases on the owner.
-/
theorem mem_owned_created {slot : Fin numDirEntries} {name : Buffer} {sector : Int}
    {hdr : FileHeader} {freeMap : Bitmap numSectors}
    (creation : layout.Creation slot name sector hdr freeMap) {s : Int}
    : s ∈ (layout.created slot name sector hdr freeMap).owned
      ↔ s ∈ FileHeader.footprint sector hdr ∨ s ∈ layout.owned := by
  rw [mem_owned, mem_owned]
  constructor
  · rintro ⟨owner, active, mine⟩
    by_cases new : owner = .file slot
    · rw [new, Creation.footprint_created_self] at mine
      exact .inl mine
    · rw [Creation.footprint_created_of_ne new] at mine
      exact .inr ⟨owner, (Creation.active_created_of_ne new).mp active, mine⟩
  · rintro (taken | ⟨owner, active, mine⟩)
    · refine ⟨.file slot, Creation.active_created_self, ?_⟩
      rw [Creation.footprint_created_self]
      exact taken
    · have old := creation.ne_of_active active
      refine ⟨owner, (Creation.active_created_of_ne old).mpr active, ?_⟩
      rw [Creation.footprint_created_of_ne old]
      exact mine

theorem mem_owned_removed {slot : Fin numDirEntries} {freeMap : Bitmap numSectors} {s : Int}
    : s ∈ (layout.removed slot freeMap).owned
      ↔ ∃ owner, owner ≠ .file slot ∧ layout.Active owner ∧ s ∈ layout.footprint owner := by
  simp only [mem_owned, Removal.active_removed_iff, Removal.footprint_removed, and_assoc]

/-- Creating a file marks its own sectors only. -/
theorem Tight.created (tight : layout.Tight) {slot : Fin numDirEntries} {name : Buffer}
    {sector : Int} {hdr : FileHeader} {freeMap : Bitmap numSectors}
    (creation : layout.Creation slot name sector hdr freeMap)
    : (layout.created slot name sector hdr freeMap).Tight := by
  intro which inside marked
  change freeMap.testBit which = true at marked
  rw [creation.takes.bits, Bool.or_eq_true, decide_eq_true_eq] at marked
  exact (mem_owned_created creation).mpr (marked.imp_right (tight which inside))

/-- Removing a file that has one header leaves nothing of it marked. -/
theorem Tight.removed (tight : layout.Tight) {slot : Fin numDirEntries} {name : Buffer}
    {freeMap : Bitmap numSectors} (removal : layout.Removal slot name freeMap)
    (oneHeader : (layout.header (.file slot)).chain = [])
    : (layout.removed slot freeMap).Tight := by
  intro which inside marked
  change freeMap.testBit which = true at marked
  rw [removal.releases, Bool.and_eq_true, Bool.not_eq_true', decide_eq_false_iff_not] at marked
  obtain ⟨kept, before⟩ := marked
  obtain ⟨owner, active, mine⟩ := mem_owned.mp (tight which inside before)
  refine mem_owned_removed.mpr ⟨owner, ?_, active, mine⟩
  rintro rfl
  refine kept ?_
  rw [footprint, heads, oneHeader] at mine
  rcases List.mem_append.mp mine with head | data
  · exact List.mem_append_right _ head
  · exact List.mem_append_left _ data

theorem Formatted.unused {disk : Disk} (isFormatted : layout.Formatted disk)
    (slot : Fin numDirEntries)
    : (layout.directory.entry slot).inUse = false := by
  rw [isFormatted.empty, Directory.entry_new]
  rfl

/-- A disk that was just formatted marks only the sectors of its two files. -/
theorem Formatted.tight {disk : Disk} (isFormatted : layout.Formatted disk) : layout.Tight := by
  intro which _ marked
  rw [isFormatted.takes.bits, Bitmap.testBit_new, Bool.or_false, decide_eq_true_eq] at marked
  rcases List.mem_append.mp marked with map | directory
  · exact mem_owned.mpr ⟨.freeMap, layout.active_freeMap, map⟩
  · exact mem_owned.mpr ⟨.directory, layout.active_directory, directory⟩

/-- Sectors that formatting leaves clear. -/
theorem Formatted.numClear {disk : Disk} (isFormatted : layout.Formatted disk)
    : layout.freeMap.numClear = 523754 := by
  have count := isFormatted.takes.count
  have mapLength := (isFormatted.sound.valid _ layout.active_freeMap).sectorsNeeded_eq
  have dirLength := (isFormatted.sound.valid _ layout.active_directory).sectorsNeeded_eq
  have mapNeeds : FileHeader.sectorsNeeded freeMapFileSize = 530 := by decide
  have dirNeeds : FileHeader.sectorsNeeded directoryFileSize = 2 := by decide
  rw [isFormatted.sound.mapSize, mapNeeds] at mapLength
  rw [isFormatted.sound.dirSize, dirNeeds] at dirLength
  rw [Bitmap.numClear_new] at count
  simp only [footprint, heads, List.length_append, List.length_cons] at count
  have total : numSectors = 524288 := rfl
  omega

end Layout

-----------------------------------------------------------------------------------------
-- Leaks on disk
-----------------------------------------------------------------------------------------

/-- Every sector marked in the free map of the disk is a header or data sector of some file.
-/
def NoLeak (disk : Disk) : Prop :=
  ∃ owned freeMap,
    (FileSystem.ownedSectors.run disk).1 = .ok owned
    ∧ (FileSystem.storedFreeMap.run disk).1 = .ok freeMap
    ∧ ∀ which : Nat, which < numSectors → freeMap.testBit which = true → (which : Int) ∈ owned

/-- What is read from the disk leaks nothing exactly when the layout is tight, since both sectors
and map are read back as the layout has them.
-/
theorem Layout.OnDisk.noLeak_iff_tight {layout : Layout} {disk : Disk} (onDisk : layout.OnDisk disk)
    (sound : layout.Sound)
    : NoLeak disk ↔ layout.Tight := by
  unfold NoLeak
  rw [onDisk.run_ownedSectors sound, onDisk.run_storedFreeMap sound]
  constructor
  · rintro ⟨owned, freeMap, sameOwned, sameMap, tight⟩
    obtain rfl := Except.ok.inj sameOwned
    obtain rfl := Except.ok.inj sameMap
    exact tight
  · intro tight
    exact ⟨layout.owned, layout.freeMap, rfl, rfl, tight⟩

namespace World

variable {world after : World} {layout : Layout}

/-- A removal, if any, is of a file that one header describes. -/
def RemovesOneHeader (world : World) (operation : Operation) : Prop :=
  ∀ name file length, operation = .remove name
    → ((world.files.openAsOpenFile name).run world.disk).1 = .ok (some file)
    → file.length = .ok length
    → length ≤ maxFileSize

/-- A removal that meets the condition is of a file without further headers. -/
theorem RemovesOneHeader.chain_eq_nil {name : Buffer}
    (oneHeader : world.RemovesOneHeader (.remove name)) (consistent : world.Consistent layout)
    {slot : Fin numDirEntries} (found : layout.directory.findIndex name = some slot)
    : (layout.header (.file slot)).chain = [] := by
  have active : layout.Active (.file slot) := (Directory.findIndex_eq_some found).1
  have valid := consistent.sound.valid _ active
  rw [valid.chain_eq_nil_iff]
  rcases run_openAsOpenFile consistent name with ⟨absent, _⟩ | ⟨other, again, ran⟩
  · rw [absent] at found
    cases found
  · obtain rfl := Option.some.inj (found.symm.trans again)
    exact oneHeader name _ _ rfl (congrArg Prod.fst ran) valid.fileLength

/-- Steps that meet the condition keep a layout tight, by cases on the effect. -/
theorem Effect.tight {operation : Operation} {next : Layout}
    (effect : Effect layout world operation next after) (consistent : world.Consistent layout)
    (oneHeader : world.RemovesOneHeader operation) (tight : layout.Tight)
    : next.Tight := by
  cases effect with
  | created created => exact tight.created created.creation
  | removed removed =>
      exact tight.removed removed.removal
        (oneHeader.chain_eq_nil consistent removed.removal.found)
  | opened found => exact tight
  | touched touches => exact tight

/-- A file just created can be removed again. -/
theorem create_remove (consistent : world.Consistent layout) {mid : World}
    {address : FileSystem.Addresses} {name : Buffer} {initialSize : Int}
    (fits : CInt.InRange initialSize)
    (created
      : (perform (.create address name initialSize)).run world = (.ok (.success true), mid))
    : ∃ slot sector hdr taken freeMap after,
        layout.Creation slot name sector hdr taken
        ∧ hdr.size = FileHeader.allocatedSize initialSize
        ∧ (perform (.remove name)).run mid = (.ok (.success true), after)
        ∧ after.Consistent ((layout.created slot name sector hdr taken).removed slot freeMap)
        ∧ (layout.created slot name sector hdr taken).Removal slot name freeMap := by
  rcases perform_create consistent address name fits with
    ⟨_, failed⟩ | ⟨_, slot, sector, hdr, taken, disk, succeeded, made⟩
  · rw [failed] at created
    simp at created
  rw [succeeded] at created
  obtain rfl := (Prod.mk.inj created).2
  have between := consistent.created made
  have entered := made.creation.findIndex_created consistent.sound
  rcases perform_remove between name with ⟨absent, _⟩ | ⟨own, freeMap, disk', ran, gone⟩
  · rw [entered] at absent
    cases absent
  obtain rfl := Option.some.inj (entered.symm.trans gone.removal.found)
  exact ⟨slot, sector, hdr, taken, freeMap, _, made.creation, made.size, ran,
    between.removed gone, gone.removal⟩

-----------------------------------------------------------------------------------------
-- When nothing leaks
-----------------------------------------------------------------------------------------

/-- Runs whose removals are all of files with one header leave no sector marked without an
owner. And in any state, creating a file and removing it restores the free map exactly when
the file needs one header only.
-/
theorem noLeak_iff (mapAddress dirAddress : FileSystem.Addresses) (disk : Disk)
    : ∃ start,
        formatted mapAddress dirAddress disk = .ok start
        ∧ (∀ world,
            Runs.Reachable
              (Step (fun state operation =>
                state.Cautious operation ∧ state.RemovesOneHeader operation))
              start world
            → NoLeak world.disk)
        ∧ ∀ world, Runs.Reachable (Step Cautious) start world
          → ∀ address name initialSize mid,
              0 ≤ initialSize → initialSize < 2147483648
              → (perform (.create address name initialSize)).run world
                = (.ok (.success true), mid)
              → ∃ after,
                  (perform (.remove name)).run mid = (.ok (.success true), after)
                  ∧ ((FileSystem.storedFreeMap.run after.disk).1
                      = (FileSystem.storedFreeMap.run world.disk).1
                    ↔ initialSize ≤ maxFileSize) := by
  obtain ⟨start, layout, isStart, _, consistent, isFormatted⟩ :=
    formatted_spec mapAddress dirAddress disk
  refine ⟨start, isStart, fun world reachable => ?_, fun world reachable => ?_⟩
  · have kept : ∃ current, world.Consistent current ∧ current.Tight := by
      refine @Runs.Reachable.invariant _ _ _ _ _
        (fun state => ∃ current, state.Consistent current ∧ current.Tight) reachable
        ⟨layout, consistent, isFormatted.tight⟩ ?_
      rintro state ⟨operation, answer⟩ final ⟨current, kept, tight⟩ ⟨⟨cautious, oneHeader⟩, ran⟩
      obtain ⟨next, effect⟩ := kept.effect cautious
      rw [ran] at effect
      exact ⟨next, effect.consistent kept cautious, effect.tight kept oneHeader tight⟩
    obtain ⟨current, kept, tight⟩ := kept
    exact (kept.onDisk.noLeak_iff_tight kept.sound).mpr tight
  · intro address name initialSize mid nonneg fits created
    obtain ⟨current, kept⟩ := consistent.reachable (fun _ _ cautious => cautious) reachable
    obtain ⟨slot, sector, hdr, taken, freeMap, after, creation, size, removed, gone, removal⟩ :=
      create_remove kept ⟨by omega, fits⟩ created
    rw [FileHeader.allocatedSize_of_nonneg nonneg] at size
    refine ⟨after, removed, ?_⟩
    rw [gone.onDisk.run_storedFreeMap gone.sound, kept.onDisk.run_storedFreeMap kept.sound]
    rw [← size, ← creation.valid.chain_eq_nil_iff]
    change Except.ok freeMap = Except.ok current.freeMap ↔ _
    rw [Except.ok.injEq]
    constructor
    · rintro rfl
      by_contra chained
      obtain ⟨further, member⟩ := List.exists_mem_of_ne_nil _ chained
      have owned : further ∈ FileHeader.footprint sector hdr :=
        List.mem_append_left _ (List.mem_cons_of_mem _ member)
      have clear := creation.takes.clear further owned
      have nonneg := (creation.takes.inside further owned).1
      rw [removal.bits_of_created creation, Int.toNat_of_nonneg nonneg] at clear
      simp [member] at clear
    · exact removal.freeMap_of_created creation

/-- With an empty directory any name can be created while the space lasts. -/
theorem create_of_unused (consistent : world.Consistent layout)
    (unused : ∀ slot, (layout.directory.entry slot).inUse = false)
    (address : FileSystem.Addresses) (name : Buffer) {initialSize : Int}
    (nonneg : 0 ≤ initialSize) (fits : initialSize < 2147483648)
    (room : 1 + FileHeader.sectorsNeeded initialSize ≤ layout.freeMap.numClear)
    : ∃ slot sector hdr freeMap disk,
        (perform (.create address name initialSize)).run world
          = (.ok (.success true),
            { world with disk, handles := world.handles.map Handle.overtake })
        ∧ layout.Created world.disk name initialSize slot sector hdr freeMap disk := by
  have inRange : CInt.InRange initialSize := ⟨by omega, fits⟩
  rcases perform_create consistent address name inRange with ⟨cannot, _⟩ | ⟨_, created⟩
  · refine absurd ⟨?_, ?_, ?_⟩ cannot
    · refine (Directory.findIndex_eq_none_iff _ _).mpr (fun slot used => ?_)
      rw [unused slot] at used
      cases used
    · intro full
      have used := (Directory.freeIndex_eq_none_iff _).mp full ⟨0, by decide⟩
      rw [unused] at used
      cases used
    · rwa [FileHeader.allocatedSize_of_nonneg nonneg]
  · exact created

/-- Removing the only file of a disk, of one byte more than a header describes, leaves a
sector marked that belongs to nothing.
-/
theorem remove_leaks_header
    : ∃ start mid after,
        formatted (fun _ => 0) (fun _ => 0) (fun _ => Vector.replicate _ 0) = .ok start
        ∧ (perform (.create (fun _ => 0) (ofList [97]) 3585)).run start
          = (.ok (.success true), mid)
        ∧ (perform (.remove (ofList [97]))).run mid = (.ok (.success true), after)
        ∧ (FileSystem.storedFreeMap.run after.disk).1
          ≠ (FileSystem.storedFreeMap.run start.disk).1
        ∧ ¬NoLeak after.disk := by
  obtain ⟨start, layout, isStart, _, consistent, isFormatted⟩ :=
    formatted_spec (fun _ => 0) (fun _ => 0) (fun _ => Vector.replicate _ 0)
  obtain ⟨_, _, _, _, _, created, _⟩ := create_of_unused consistent isFormatted.unused
    (fun _ => 0) (ofList [97]) (show (0 : Int) ≤ 3585 by decide) (by decide)
    (by rw [isFormatted.numClear]; decide)
  obtain ⟨slot, sector, hdr, taken, freeMap, after, creation, size, removed, gone, removal⟩ :=
    create_remove consistent (by decide) created
  have chained : hdr.chain ≠ [] := by
    rw [ne_eq, creation.valid.chain_eq_nil_iff, size]
    decide
  obtain ⟨further, member⟩ := List.exists_mem_of_ne_nil _ chained
  have owned : further ∈ FileHeader.footprint sector hdr :=
    List.mem_append_left _ (List.mem_cons_of_mem _ member)
  have inside := creation.takes.inside further owned
  have clear := creation.takes.clear further owned
  have marked : freeMap.testBit further.toNat = true := by
    rw [removal.bits_of_created creation, Int.toNat_of_nonneg inside.1]
    simp [member]
  refine ⟨start, _, after, isStart, created, removed, ?_, ?_⟩
  · rw [gone.onDisk.run_storedFreeMap gone.sound,
      consistent.onDisk.run_storedFreeMap consistent.sound]
    intro same
    have maps : freeMap = layout.freeMap := Except.ok.inj same
    rw [← maps, marked] at clear
    cases clear
  · rw [gone.onDisk.noLeak_iff_tight gone.sound]
    intro tight
    have again := tight further.toNat (by omega) marked
    rw [Int.toNat_of_nonneg inside.1] at again
    obtain ⟨owner, old, active, mine⟩ := Layout.mem_owned_removed.mp again
    rw [Layout.Creation.footprint_created_of_ne old] at mine
    exact creation.not_taken consistent.sound
      ((Layout.Creation.active_created_of_ne old).mp active) mine owned

end World

end Nachos.FileSys
