import Nachos.FileSys.Directory
import Nachos.Lib.BoundedMap

/-! A directory as a bounded map from names of nine characters to sectors, over any calls on
it and transfers of its table to and from a file.
-/

namespace Nachos.FileSys

open Bytes Routines

/-- A map from names to sectors with room for the entries of a table. -/
abbrev NameMap (tableSize : Nat) := BoundedMap (List Byte) Int tableSize

inductive DirectoryCall where
  | add (name : Buffer) (newSector : Int)
  | remove (name : Buffer)
  | find (name : Buffer)
  | writeBack
  | fetchFrom

/-- Sectors that a call enters are values of an `int`. -/
def DirectoryCall.Fits : DirectoryCall → Prop
  | .add _ newSector => CInt.InRange newSector
  | .remove _ | .find _ | .writeBack | .fetchFrom => True

instance : DecidablePred DirectoryCall.Fits
  | .add _ newSector => inferInstanceAs (Decidable (CInt.InRange newSector))
  | .remove _ | .find _ | .writeBack | .fetchFrom => .isTrue trivial

/-- What a call returns. -/
inductive DirectoryAnswer where
  | done (success : Bool)
  | sector (number : Int)
  | nothing
  deriving DecidableEq

variable {tableSize : Nat}

namespace Directory

/-- One call on a directory in memory, with the file that its table is stored in. -/
def call (file : OpenFile) (directory : Directory tableSize)
    : DirectoryCall → DiskRoutine (DirectoryAnswer × Directory tableSize)
  | .add name newSector =>
      let (success, after) := directory.add name newSector
      pure (.done success, after)
  | .remove name =>
      let (success, after) := directory.remove name
      pure (.done success, after)
  | .find name => pure (.sector (directory.find name), directory)
  | .writeBack => do
      directory.writeBack file
      return (.nothing, directory)
  | .fetchFrom => do
      let after ← directory.fetchFrom file
      return (.nothing, after)

/-- Calls one after the other, with their answers. -/
def callAll (file : OpenFile) (directory : Directory tableSize)
    : List DirectoryCall → DiskRoutine (List DirectoryAnswer × Directory tableSize)
  | [] => pure ([], directory)
  | request :: rest => do
      let (answer, next) ← directory.call file request
      let (answers, final) ← callAll file next rest
      return (answer :: answers, final)

end Directory

/-- The map in memory and the one that was stored last. -/
structure StoredMap (tableSize : Nat) where
  current : NameMap tableSize
  stored : NameMap tableSize

namespace StoredMap

/-- What a call means. -/
def call (maps : StoredMap tableSize) : DirectoryCall → DirectoryAnswer × StoredMap tableSize
  | .add name newSector =>
      let (success, after) := maps.current.add (nameKey name) newSector
      (.done success, { maps with current := after })
  | .remove name =>
      let (success, after) := maps.current.remove (nameKey name)
      (.done success, { maps with current := after })
  | .find name => (.sector ((maps.current.find (nameKey name)).getD (-1)), maps)
  | .writeBack => (.nothing, { maps with stored := maps.current })
  | .fetchFrom => (.nothing, { maps with current := maps.stored })

def callAll (maps : StoredMap tableSize)
    : List DirectoryCall → List DirectoryAnswer × StoredMap tableSize
  | [] => ([], maps)
  | request :: rest =>
      let (answer, next) := maps.call request
      let (answers, final) := callAll next rest
      (answer :: answers, final)

/-- The maps of a formatted disk. -/
def empty (tableSize : Nat) : StoredMap tableSize :=
  { current := BoundedMap.empty, stored := BoundedMap.empty }

end StoredMap

namespace Directory

/-- The slots in use are the entries of the map, and no name field lacks its NUL. -/
structure Represents (directory : Directory tableSize) (map : NameMap tableSize) : Prop where
  distinct
    : ∀ left right,
        (directory.entry left).inUse = true
        → (directory.entry right).inUse = true
        → (directory.entry left).key = (directory.entry right).key
        → left = right
  find_iff
    : ∀ key sector,
        map.find key = some sector
        ↔ ∃ slot,
            (directory.entry slot).inUse = true
            ∧ (directory.entry slot).key = key
            ∧ (directory.entry slot).sector = sector
  terminated : ∀ slot, (directory.entry slot).nameBytes fileNameMaxLen = 0
  fits : ∀ slot, CInt.InRange (directory.entry slot).sector

variable {directory : Directory tableSize} {map : NameMap tableSize}

-----------------------------------------------------------------------------------------
-- Slots and entries
-----------------------------------------------------------------------------------------

/-- The empty table represents the empty map: no entry is in use. -/
theorem represents_new : (new tableSize).Represents BoundedMap.empty where
  distinct left right inUse := by
    rw [entry_new] at inUse
    exact nomatch inUse
  find_iff key sector := by
    rw [BoundedMap.find_empty]
    refine iff_of_false (fun found => nomatch found) ?_
    rintro ⟨slot, inUse, _⟩
    rw [entry_new] at inUse
    exact nomatch inUse
  terminated slot := by
    rw [entry_new]
    rfl
  fits slot := by
    rw [entry_new]
    decide

/-- A name is found in the table exactly when it is in the map. -/
theorem Represents.findIndex_isSome_iff (represents : directory.Represents map) (name : Buffer)
    : (directory.findIndex name).isSome = true ↔ nameKey name ∈ map.entries := by
  rw [BoundedMap.mem_entries_iff]
  constructor
  · intro found
    obtain ⟨slot, found⟩ := Option.isSome_iff_exists.mp found
    obtain ⟨inUse, key⟩ := findIndex_eq_some found
    exact ⟨_, (represents.find_iff _ _).mpr ⟨slot, inUse, key, rfl⟩⟩
  · rintro ⟨sector, found⟩
    obtain ⟨slot, inUse, key, _⟩ := (represents.find_iff _ _).mp found
    rw [Option.isSome_iff_ne_none]
    intro absent
    exact (findIndex_eq_none_iff directory name).mp absent slot inUse key

/-- A slot found under a name has the sector of the map. -/
theorem Represents.find_of_findIndex (represents : directory.Represents map) {name : Buffer}
    {slot : Fin tableSize} (found : directory.findIndex name = some slot)
    : map.find (nameKey name) = some (directory.entry slot).sector := by
  obtain ⟨inUse, key⟩ := findIndex_eq_some found
  exact (represents.find_iff _ _).mpr ⟨slot, inUse, key, rfl⟩

/-- `find` answers with the sector of the map, or -1. -/
theorem Represents.find_eq (represents : directory.Represents map) (name : Buffer)
    : directory.find name = (map.find (nameKey name)).getD (-1) := by
  unfold find
  cases found : directory.findIndex name with
  | some slot => rw [represents.find_of_findIndex found, Option.getD_some]
  | none =>
      cases entered : map.find (nameKey name) with
      | none => rfl
      | some sector =>
          have member := (BoundedMap.mem_entries_iff ..).mpr ⟨sector, entered⟩
          rw [← represents.findIndex_isSome_iff, found] at member
          exact nomatch member

/-- The keys of the map are those of the slots in use. -/
theorem Represents.keys_eq (represents : directory.Represents map)
    : map.entries.keys
      = (Finset.univ.filter (fun slot => (directory.entry slot).inUse = true)).image
          (fun slot => (directory.entry slot).key) := by
  ext key
  simp only [Finmap.mem_keys, BoundedMap.mem_entries_iff, Finset.mem_image, Finset.mem_filter,
    Finset.mem_univ, true_and, represents.find_iff]
  constructor
  · rintro ⟨_, slot, inUse, same, _⟩
    exact ⟨slot, inUse, same⟩
  · rintro ⟨slot, inUse, same⟩
    exact ⟨_, slot, inUse, same, rfl⟩

/-- There is a free slot exactly when the map is not full: slots in use have different keys. -/
theorem Represents.freeIndex_isSome_iff (represents : directory.Represents map)
    : directory.freeIndex.isSome = true ↔ map.entries.keys.card < tableSize := by
  have counted
      : map.entries.keys.card
        = (Finset.univ.filter (fun slot => (directory.entry slot).inUse = true)).card := by
    rw [represents.keys_eq]
    apply Finset.card_image_of_injOn
    intro left leftUsed right rightUsed same
    exact represents.distinct left right (Finset.mem_filter.mp leftUsed).2
      (Finset.mem_filter.mp rightUsed).2 same
  rw [counted]
  cases found : directory.freeIndex with
  | some slot =>
      have free := freeIndex_eq_some found
      have fewer := @Finset.card_lt_univ_of_notMem _ _
        (Finset.univ.filter (fun slot => (directory.entry slot).inUse = true)) slot
        (by simp [free])
      rw [Fintype.card_fin] at fewer
      exact iff_of_true rfl fewer
  | none =>
      have full := (freeIndex_eq_none_iff directory).mp found
      have all
          : Finset.univ.filter (fun slot => (directory.entry slot).inUse = true)
            = Finset.univ :=
        Finset.filter_true_of_mem (fun slot _ => full slot)
      rw [all, Finset.card_univ, Fintype.card_fin]
      exact iff_of_false (by simp) (Nat.lt_irrefl _)

-----------------------------------------------------------------------------------------
-- Changes
-----------------------------------------------------------------------------------------

/-- The last byte of a name field is never copied to. -/
theorem nameBytes_taken_last (entry : DirectoryEntry) (name : Buffer) (newSector : Int)
    : (entry.taken name newSector).nameBytes fileNameMaxLen
      = entry.nameBytes fileNameMaxLen := by
  have inside : fileNameMaxLen < fileNameMaxLen + 1 := Nat.lt_succ_self _
  simp only [DirectoryEntry.nameBytes, DirectoryEntry.taken,
    Vector.getElem?_eq_getElem inside, Vector.getElem_ofFn, Option.getD_some, strncpy,
    Nat.lt_irrefl, if_false]

/-- An entry under a new key in a free slot. -/
theorem Represents.put_taken (represents : directory.Represents map) {slot : Fin tableSize}
    {name : Buffer} {newSector : Int} (free : (directory.entry slot).inUse = false)
    (accepts : map.Accepts (nameKey name)) (fits : CInt.InRange newSector)
    : (directory.put slot ((directory.entry slot).taken name newSector)).Represents
        (map.add (nameKey name) newSector).2 := by
  obtain ⟨_, entered, others⟩ := BoundedMap.add_of_accepts accepts newSector
  have fresh {other : Fin tableSize} (inUse : (directory.entry other).inUse = true)
      : (directory.entry other).key ≠ nameKey name := by
    intro same
    apply accepts.1
    rw [BoundedMap.mem_entries_iff]
    exact ⟨_, (represents.find_iff _ _).mpr ⟨other, inUse, same, rfl⟩⟩
  refine ⟨fun left right leftUsed rightUsed same => ?_, fun key sector => ?_,
    fun other => ?_, fun other => ?_⟩
  · rcases eq_or_ne left slot with leftIs | leftApart <;>
      rcases eq_or_ne right slot with rightIs | rightApart
    · exact leftIs.trans rightIs.symm
    · rw [leftIs, entry_put_self, entry_put_of_ne _ rightApart,
        DirectoryEntry.key_taken] at same
      rw [entry_put_of_ne _ rightApart] at rightUsed
      exact absurd same.symm (fresh rightUsed)
    · rw [rightIs, entry_put_self, entry_put_of_ne _ leftApart,
        DirectoryEntry.key_taken] at same
      rw [entry_put_of_ne _ leftApart] at leftUsed
      exact absurd same (fresh leftUsed)
    · rw [entry_put_of_ne _ leftApart] at leftUsed same
      rw [entry_put_of_ne _ rightApart] at rightUsed same
      exact represents.distinct left right leftUsed rightUsed same
  · rcases eq_or_ne key (nameKey name) with rfl | apart
    · rw [entered]
      constructor
      · intro same
        rw [← Option.some.inj same]
        refine ⟨slot, ?_⟩
        rw [entry_put_self]
        exact ⟨rfl, DirectoryEntry.key_taken .., rfl⟩
      · rintro ⟨other, inUse, same, rfl⟩
        rcases eq_or_ne other slot with rfl | otherApart
        · rw [entry_put_self]
          rfl
        · rw [entry_put_of_ne _ otherApart] at inUse same
          exact absurd same (fresh inUse)
    · rw [others key apart, represents.find_iff]
      constructor
      · rintro ⟨other, inUse, same, sectorIs⟩
        have otherApart : other ≠ slot := fun equal => by
          rw [equal, free] at inUse
          exact nomatch inUse
        refine ⟨other, ?_⟩
        rw [entry_put_of_ne _ otherApart]
        exact ⟨inUse, same, sectorIs⟩
      · rintro ⟨other, inUse, same, sectorIs⟩
        have otherApart : other ≠ slot := fun equal => by
          rw [equal, entry_put_self, DirectoryEntry.key_taken] at same
          exact apart same.symm
        rw [entry_put_of_ne _ otherApart] at inUse same sectorIs
        exact ⟨other, inUse, same, sectorIs⟩
  · rcases eq_or_ne other slot with rfl | apart
    · rw [entry_put_self, nameBytes_taken_last]
      exact represents.terminated other
    · rw [entry_put_of_ne _ apart]
      exact represents.terminated other
  · rcases eq_or_ne other slot with rfl | apart
    · rw [entry_put_self]
      exact fits
    · rw [entry_put_of_ne _ apart]
      exact represents.fits other

/-- A slot that was in use and is given back; its name stays in it. -/
theorem Represents.put_unused (represents : directory.Represents map) {slot : Fin tableSize}
    {name : Buffer} (found : directory.findIndex name = some slot)
    : (directory.put slot { directory.entry slot with inUse := false }).Represents
        (map.remove (nameKey name)).2 := by
  obtain ⟨slotUsed, slotKey⟩ := findIndex_eq_some found
  have present : nameKey name ∈ map.entries := by
    rw [← represents.findIndex_isSome_iff, found]
    rfl
  obtain ⟨_, gone, others⟩ := BoundedMap.remove_of_mem present
  have stays {other : Fin tableSize}
      (inUse
        : ((directory.put slot { directory.entry slot with inUse := false }).entry other).inUse
          = true)
      : other ≠ slot := by
    intro same
    rw [same, entry_put_self] at inUse
    exact nomatch inUse
  refine ⟨fun left right leftUsed rightUsed same => ?_, fun key sector => ?_,
    fun other => ?_, fun other => ?_⟩
  · have leftApart := stays leftUsed
    have rightApart := stays rightUsed
    rw [entry_put_of_ne _ leftApart] at leftUsed same
    rw [entry_put_of_ne _ rightApart] at rightUsed same
    exact represents.distinct left right leftUsed rightUsed same
  · rcases eq_or_ne key (nameKey name) with rfl | apart
    · rw [gone]
      refine iff_of_false (fun none => nomatch none) ?_
      rintro ⟨other, inUse, same, _⟩
      have otherApart := stays inUse
      rw [entry_put_of_ne _ otherApart] at inUse same
      exact otherApart (represents.distinct other slot inUse slotUsed (same.trans slotKey.symm))
    · rw [others key apart, represents.find_iff]
      constructor
      · rintro ⟨other, inUse, same, sectorIs⟩
        have otherApart : other ≠ slot := fun equal => by
          rw [equal, slotKey] at same
          exact apart same.symm
        refine ⟨other, ?_⟩
        rw [entry_put_of_ne _ otherApart]
        exact ⟨inUse, same, sectorIs⟩
      · rintro ⟨other, inUse, same, sectorIs⟩
        have otherApart := stays inUse
        rw [entry_put_of_ne _ otherApart] at inUse same sectorIs
        exact ⟨other, inUse, same, sectorIs⟩
  · rcases eq_or_ne other slot with rfl | apart
    · rw [entry_put_self]
      exact represents.terminated other
    · rw [entry_put_of_ne _ apart]
      exact represents.terminated other
  · rcases eq_or_ne other slot with rfl | apart
    · rw [entry_put_self]
      exact represents.fits other
    · rw [entry_put_of_ne _ apart]
      exact represents.fits other

/-- `add` enters the file in the map. -/
theorem Represents.add (represents : directory.Represents map) (name : Buffer)
    {newSector : Int} (fits : CInt.InRange newSector)
    : (directory.add name newSector).1 = (map.add (nameKey name) newSector).1
      ∧ (directory.add name newSector).2.Represents (map.add (nameKey name) newSector).2 := by
  have present := represents.findIndex_isSome_iff name
  have room := represents.freeIndex_isSome_iff
  unfold Directory.add
  split
  · rename_i there
    rw [BoundedMap.add_of_refuses (fun accepts => accepts.1 (present.mp there))]
    exact ⟨rfl, represents⟩
  · rename_i absent
    cases found : directory.freeIndex with
    | some slot =>
        rw [found] at room
        have accepts : map.Accepts (nameKey name) := ⟨absent ∘ present.mpr, room.mp rfl⟩
        exact ⟨(BoundedMap.add_of_accepts accepts newSector).1.symm,
          represents.put_taken (freeIndex_eq_some found) accepts fits⟩
    | none =>
        rw [found] at room
        have refuses : ¬map.Accepts (nameKey name) :=
          fun accepts => nomatch room.mpr accepts.2
        rw [BoundedMap.add_of_refuses refuses]
        exact ⟨rfl, represents⟩

/-- `remove` takes the file out of the map. -/
theorem Represents.remove (represents : directory.Represents map) (name : Buffer)
    : (directory.remove name).1 = (map.remove (nameKey name)).1
      ∧ (directory.remove name).2.Represents (map.remove (nameKey name)).2 := by
  have present := represents.findIndex_isSome_iff name
  unfold Directory.remove
  cases found : directory.findIndex name with
  | some slot =>
      rw [found] at present
      exact ⟨(BoundedMap.remove_of_mem (present.mp rfl)).1.symm, represents.put_unused found⟩
  | none =>
      rw [found] at present
      rw [BoundedMap.remove_of_absent (fun member => nomatch present.mpr member)]
      exact ⟨rfl, represents⟩

-----------------------------------------------------------------------------------------
-- Runs
-----------------------------------------------------------------------------------------

/-- Memory holds the current map, and the file of the directory the stored one. -/
structure Follows (file : OpenFile) (directory : Directory tableSize) (disk : Disk)
    (maps : StoredMap tableSize)
    : Prop where
  inMemory : directory.Represents maps.current
  onDisk
    : ∃ other : Directory tableSize,
        other.Represents maps.stored
        ∧ Holds disk file.hdr other.image (tableSize * DirectoryEntry.size)

/-- One call answers as the map does, and memory and disk follow it. -/
theorem Follows.call {file : OpenFile} {disk : Disk} {maps : StoredMap tableSize}
    (follows : directory.Follows file disk maps) (usable : file.hdr.Usable)
    (whole : file.hdr.size = (tableSize * DirectoryEntry.size : Nat))
    {request : DirectoryCall} (fits : request.Fits)
    : ∃ next after,
        (directory.call file request).run disk = (.ok ((maps.call request).1, next), after)
        ∧ next.Follows file after (maps.call request).2 := by
  obtain ⟨inMemory, other, stored, holds⟩ := follows
  cases request with
  | add name newSector =>
      obtain ⟨answer, represents⟩ := inMemory.add name fits
      refine ⟨(directory.add name newSector).2, disk, ?_, represents, other, stored, holds⟩
      exact congrArg (fun success => (Except.ok (DirectoryAnswer.done success, _), disk)) answer
  | remove name =>
      obtain ⟨answer, represents⟩ := inMemory.remove name
      refine ⟨(directory.remove name).2, disk, ?_, represents, other, stored, holds⟩
      exact congrArg (fun success => (Except.ok (DirectoryAnswer.done success, _), disk)) answer
  | find name =>
      refine ⟨directory, disk, ?_, inMemory, other, stored, holds⟩
      exact congrArg (fun number => (Except.ok (DirectoryAnswer.sector number, _), disk))
        (inMemory.find_eq name)
  | writeBack =>
      obtain ⟨after, written, _, holds⟩ := run_writeBack directory usable whole disk
      refine ⟨directory, after, ?_, inMemory, directory, inMemory, holds⟩
      rw [Directory.call, Routine.run_bind_ok written]
      rfl
  | fetchFrom =>
      have fetched := run_fetchFrom directory other usable whole stored.fits holds
      refine ⟨other, disk, ?_, stored, other, stored, holds⟩
      rw [Directory.call, Routine.run_bind_ok fetched]
      rfl

/-- Any calls, by induction on them. -/
theorem Follows.callAll {file : OpenFile} {disk : Disk} {maps : StoredMap tableSize}
    (follows : directory.Follows file disk maps) (usable : file.hdr.Usable)
    (whole : file.hdr.size = (tableSize * DirectoryEntry.size : Nat))
    {requests : List DirectoryCall} (fits : ∀ request ∈ requests, request.Fits)
    : ∃ final after,
        (directory.callAll file requests).run disk
          = (.ok ((maps.callAll requests).1, final), after)
        ∧ final.Follows file after (maps.callAll requests).2 := by
  induction requests generalizing directory disk maps with
  | nil => exact ⟨directory, disk, rfl, follows⟩
  | cons request rest ih =>
      obtain ⟨first, others⟩ := List.forall_mem_cons.mp fits
      obtain ⟨next, between, called, followed⟩ := follows.call usable whole first
      obtain ⟨final, after, ran, done⟩ := ih followed others
      refine ⟨final, after, ?_, done⟩
      rw [Directory.callAll, Routine.run_bind_ok called]
      exact Routine.run_bind_ok ran _

/-- On a formatted directory file any calls answer as those on a bounded map under the first
nine characters of names. Then the slots in use are the entries of the map, each under a
key of its own, which stands in the name field with a NUL behind it.
-/
theorem callAll_follows_map {file : OpenFile} {disk : Disk} (usable : file.hdr.Usable)
    (whole : file.hdr.size = (tableSize * DirectoryEntry.size : Nat))
    (formatted : Holds disk file.hdr (new tableSize).image (tableSize * DirectoryEntry.size))
    {requests : List DirectoryCall} (fits : ∀ request ∈ requests, request.Fits)
    : ∃ final after,
        ((new tableSize).callAll file requests).run disk
          = (.ok (((StoredMap.empty tableSize).callAll requests).1, final), after)
        ∧ final.Represents ((StoredMap.empty tableSize).callAll requests).2.current
        ∧ ∀ slot,
            (final.entry slot).inUse = true
            → (final.entry slot).nameBytes fileNameMaxLen = 0
              ∧ cString (final.entry slot).nameBytes 0 (fileNameMaxLen + 1)
                = (final.entry slot).key := by
  have start : (new tableSize).Follows file disk (StoredMap.empty tableSize) :=
    ⟨represents_new, new tableSize, represents_new, formatted⟩
  obtain ⟨final, after, ran, follows⟩ := start.callAll usable whole fits
  refine ⟨final, after, ran, follows.inMemory, fun slot _ => ?_⟩
  have terminated := follows.inMemory.terminated slot
  refine ⟨terminated, cString_of_terminated ?_⟩
  rwa [Nat.zero_add]

/-- A directory of three entries whose file stands in sector 9. A file is added under a long
name, found under its first nine characters and removed, and comes back with the table.
-/
theorem callAll_follows_map_of_three
    : ∃ final after,
        ((new 3).callAll
            { hdr := .last (FileHeader.blockOf 60 1 [9] (-1)) 0, seekPosition := 0 }
            [.add (fun _ => 65) 20, .find (ofList (List.replicate 9 65)), .writeBack,
              .remove (fun _ => 65), .find (fun _ => 65), .fetchFrom, .find (fun _ => 65)]).run
          (fun _ => Sector.ofBuffer (new 3).image)
        = (.ok
            ([.done true, .sector 20, .nothing, .done true, .sector (-1), .nothing, .sector 20],
              final),
            after) := by
  obtain ⟨final, after, ran, _⟩ := @callAll_follows_map 3
    { hdr := .last (FileHeader.blockOf 60 1 [9] (-1)) 0, seekPosition := 0 }
    (fun _ => Sector.ofBuffer (new 3).image)
    {
      valid := by
        refine ⟨rfl, ?_, rfl, by decide, by decide, rfl⟩
        exact {
          numBytes := by decide
          numSectors := by decide
          dataSectors := by decide
          next := by decide
        }
      inside := by decide
      distinct := by decide
    }
    rfl
    (by
      intro offset below
      have inside : offset % sectorSize < sectorSize := Nat.mod_lt _ (by decide)
      rw [fileByte, Sector.bytes_ofBuffer _ inside, sectorSize_eq, Nat.mod_eq_of_lt]
      rw [DirectoryEntry.size_eq] at below
      omega)
    [.add (fun _ => 65) 20, .find (ofList (List.replicate 9 65)), .writeBack,
      .remove (fun _ => 65), .find (fun _ => 65), .fetchFrom, .find (fun _ => 65)]
    (by decide)
  exact ⟨final, after, ran⟩

end Directory

end Nachos.FileSys
