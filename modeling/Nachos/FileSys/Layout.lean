import Mathlib.Data.List.Nodup
import Nachos.FileSys.Allocation
import Nachos.FileSys.FileSystem

/-! The files on a disk and the sectors each of them owns, apart from the disk's contents,
and when a disk holds such a layout.
-/

namespace Nachos.FileSys

open Bytes Routines

/-- The files of a disk: the two of the file system and one for each directory slot. -/
inductive Owner where
  | freeMap
  | directory
  | file (slot : Fin numDirEntries)
  deriving DecidableEq

/-- What a disk in use consists of. -/
structure Layout where
  freeMap : Bitmap numSectors
  directory : Directory numDirEntries
  header : Owner → FileHeader

namespace Layout

/-- Slots that are not in use own nothing. -/
def Active (layout : Layout) : Owner → Prop
  | .freeMap => True
  | .directory => True
  | .file slot => (layout.directory.entry slot).inUse = true

instance (layout : Layout) (owner : Owner) : Decidable (layout.Active owner) := by
  cases owner <;> unfold Active <;> infer_instance

theorem active_freeMap (layout : Layout) : layout.Active .freeMap := trivial

theorem active_directory (layout : Layout) : layout.Active .directory := trivial

/-- The sector of the first header. -/
def sector (layout : Layout) : Owner → Int
  | .freeMap => freeMapSector
  | .directory => directorySector
  | .file slot => (layout.directory.entry slot).sector

/-- The sectors of the headers. -/
def heads (layout : Layout) (owner : Owner) : List Int :=
  layout.sector owner :: (layout.header owner).chain

/-- All sectors of an owner. -/
def footprint (layout : Layout) (owner : Owner) : List Int :=
  layout.heads owner ++ (layout.header owner).sectors

/-- The objects in memory of a file system with this layout. -/
def files (layout : Layout) : FileSystem :=
  {
    freeMapFile := { hdr := layout.header .freeMap, seekPosition := 0 }
    directoryFile := { hdr := layout.header .directory, seekPosition := 0 }
  }

/-- Every sector in use has one role and one owner and is marked; every name one slot. -/
structure Sound (layout : Layout) : Prop where
  valid : ∀ owner, layout.Active owner → (layout.header owner).WellFormed
  mapSize : (layout.header .freeMap).size = freeMapFileSize
  dirSize : (layout.header .directory).size = directoryFileSize
  distinct : ∀ owner, layout.Active owner → (layout.footprint owner).Nodup
  apart
    : ∀ owner other, layout.Active owner → layout.Active other → owner ≠ other
      → (layout.footprint owner).Disjoint (layout.footprint other)
  inside : ∀ owner, layout.Active owner → ∀ s ∈ layout.footprint owner, IsSector s
  marked
    : ∀ owner, layout.Active owner → ∀ s ∈ layout.footprint owner,
      layout.freeMap.testBit s.toNat = true
  keys
    : ∀ slot other, layout.Active (.file slot) → layout.Active (.file other)
      → (layout.directory.entry slot).key = (layout.directory.entry other).key
      → slot = other
  fits : ∀ slot, CInt.InRange (layout.directory.entry slot).sector

/-- The disk holds the headers, the free map and the directory of a layout. -/
structure OnDisk (layout : Layout) (disk : Disk) : Prop where
  stored
    : ∀ owner, layout.Active owner
      → (layout.header owner).StoredAt disk (layout.sector owner)
  freeMap
    : Holds disk (layout.header .freeMap) layout.freeMap.image (Bitmap.imageSize numSectors)
  directory
    : Holds disk (layout.header .directory) layout.directory.image
        (numDirEntries * DirectoryEntry.size)

-----------------------------------------------------------------------------------------
-- Sound layouts
-----------------------------------------------------------------------------------------

variable {layout : Layout} {disk other : Disk}

theorem mem_heads_footprint {owner : Owner} {s : Int} (member : s ∈ layout.heads owner)
    : s ∈ layout.footprint owner :=
  List.mem_append_left _ member

theorem mem_sectors_footprint {owner : Owner} {s : Int}
    (member : s ∈ (layout.header owner).sectors)
    : s ∈ layout.footprint owner :=
  List.mem_append_right _ member

namespace Sound

theorem usable (sound : layout.Sound) {owner : Owner} (active : layout.Active owner)
    : (layout.header owner).Usable where
  valid := sound.valid owner active
  inside := fun s member => sound.inside owner active s (mem_sectors_footprint member)
  distinct := (List.nodup_append.mp (sound.distinct owner active)).2.1

theorem heads_nodup (sound : layout.Sound) {owner : Owner} (active : layout.Active owner)
    : (layout.heads owner).Nodup :=
  (List.nodup_append.mp (sound.distinct owner active)).1

theorem heads_inside (sound : layout.Sound) {owner : Owner} (active : layout.Active owner)
    : ∀ s ∈ layout.heads owner, IsSector s :=
  fun s member => sound.inside owner active s (mem_heads_footprint member)

/-- A sector has one owner. -/
theorem owner_unique (sound : layout.Sound) {left right : Owner}
    (leftActive : layout.Active left) (rightActive : layout.Active right) {s : Int}
    (inLeft : s ∈ layout.footprint left) (inRight : s ∈ layout.footprint right)
    : left = right := by
  by_contra different
  exact sound.apart left right leftActive rightActive different inLeft inRight

/-- No header stands in a data sector. -/
theorem heads_not_data (sound : layout.Sound) {left right : Owner}
    (leftActive : layout.Active left) (rightActive : layout.Active right) {s : Int}
    (head : s ∈ layout.heads left)
    : s ∉ (layout.header right).sectors := by
  intro data
  obtain rfl := sound.owner_unique leftActive rightActive (mem_heads_footprint head)
    (mem_sectors_footprint data)
  exact (List.nodup_append.mp (sound.distinct left leftActive)).2.2 s head s data rfl

theorem data_not_data (sound : layout.Sound) {left right : Owner}
    (leftActive : layout.Active left) (rightActive : layout.Active right)
    (different : left ≠ right) {s : Int} (data : s ∈ (layout.header left).sectors)
    : s ∉ (layout.header right).sectors :=
  fun again => different (sound.owner_unique leftActive rightActive
    (mem_sectors_footprint data) (mem_sectors_footprint again))

/-- Reading the headers of a file gives them. -/
theorem run_fetchFrom (sound : layout.Sound) {owner : Owner} (active : layout.Active owner)
    (stored : (layout.header owner).StoredAt disk (layout.sector owner))
    : (FileHeader.fetchFrom (layout.sector owner)).run disk
      = (.ok (layout.header owner), disk) :=
  FileHeader.run_fetchFrom (sound.valid owner active) stored (sound.heads_inside active)
    (sound.heads_nodup active)

theorem run_openAt (sound : layout.Sound) {owner : Owner} (active : layout.Active owner)
    (stored : (layout.header owner).StoredAt disk (layout.sector owner))
    : (OpenFile.openAt (layout.sector owner)).run disk
      = (.ok { hdr := layout.header owner, seekPosition := 0 }, disk) := by
  rw [OpenFile.openAt, Routine.run_bind_ok (sound.run_fetchFrom active stored),
    Routine.run_pure]

/-- The constructor on a disk in use opens the files of its layout. -/
theorem run_openDisk (sound : layout.Sound)
    (mapStored : (layout.header .freeMap).StoredAt disk freeMapSector)
    (dirStored : (layout.header .directory).StoredAt disk directorySector)
    : FileSystem.openDisk.run disk = (.ok layout.files, disk) := by
  have freeMapFile
      : (OpenFile.openAt freeMapSector).run disk
        = (.ok { hdr := layout.header .freeMap, seekPosition := 0 }, disk) :=
    @run_openAt layout disk sound .freeMap trivial mapStored
  have directoryFile
      : (OpenFile.openAt directorySector).run disk
        = (.ok { hdr := layout.header .directory, seekPosition := 0 }, disk) :=
    @run_openAt layout disk sound .directory trivial dirStored
  rw [FileSystem.openDisk, Routine.run_bind_ok freeMapFile, Routine.run_bind_ok directoryFile,
    Routine.run_pure, files]

theorem mapWhole (sound : layout.Sound)
    : (layout.header .freeMap).size = Bitmap.imageSize numSectors :=
  sound.mapSize

theorem dirWhole (sound : layout.Sound)
    : (layout.header .directory).size = (numDirEntries * DirectoryEntry.size : Nat) :=
  sound.dirSize

end Sound

-----------------------------------------------------------------------------------------
-- Layouts on disk
-----------------------------------------------------------------------------------------

namespace OnDisk

/-- Reading the directory file gives the directory. -/
theorem run_fetchDirectory (onDisk : layout.OnDisk disk) (sound : layout.Sound)
    : layout.files.fetchDirectory.run disk = (.ok layout.directory, disk) :=
  Directory.run_fetchFrom _ _ (sound.usable (active_directory _)) sound.dirWhole sound.fits
    onDisk.directory

/-- Reading the free-map file gives the free map. -/
theorem run_fetchFreeMap (onDisk : layout.OnDisk disk) (sound : layout.Sound)
    : layout.files.fetchFreeMap.run disk = (.ok layout.freeMap, disk) :=
  Bitmap.run_load _ (sound.usable (active_freeMap _)) sound.mapWhole.ge onDisk.freeMap

theorem run_fetchFrom (onDisk : layout.OnDisk disk) (sound : layout.Sound) {owner : Owner}
    (active : layout.Active owner)
    : (FileHeader.fetchFrom (layout.sector owner)).run disk
      = (.ok (layout.header owner), disk) :=
  sound.run_fetchFrom active (onDisk.stored owner active)

theorem run_openAt (onDisk : layout.OnDisk disk) (sound : layout.Sound) {owner : Owner}
    (active : layout.Active owner)
    : (OpenFile.openAt (layout.sector owner)).run disk
      = (.ok { hdr := layout.header owner, seekPosition := 0 }, disk) :=
  sound.run_openAt active (onDisk.stored owner active)

theorem run_openDisk (onDisk : layout.OnDisk disk) (sound : layout.Sound)
    : FileSystem.openDisk.run disk = (.ok layout.files, disk) :=
  sound.run_openDisk (onDisk.stored .freeMap layout.active_freeMap)
    (onDisk.stored .directory layout.active_directory)

/-- Changes that spare the headers, the free map and the directory keep the layout. -/
theorem congr (onDisk : layout.OnDisk disk) (sound : layout.Sound)
    (heads : ∀ owner, layout.Active owner → ∀ s ∈ layout.heads owner, other s = disk s)
    (freeMap : ∀ s ∈ (layout.header .freeMap).sectors, other s = disk s)
    (directory : ∀ s ∈ (layout.header .directory).sectors, other s = disk s)
    : layout.OnDisk other where
  stored := fun owner active => (onDisk.stored owner active).congr (heads owner active)
  freeMap := onDisk.freeMap.congr (sound.valid _ trivial) sound.mapWhole.ge freeMap
  directory := onDisk.directory.congr (sound.valid _ trivial) sound.dirWhole.ge directory

/-- Writing the data sectors of one file keeps the layout. -/
theorem of_data_changed (onDisk : layout.OnDisk disk) (sound : layout.Sound)
    {slot : Fin numDirEntries} (active : layout.Active (.file slot))
    (frame : ∀ s ∉ (layout.header (.file slot)).sectors, other s = disk s)
    : layout.OnDisk other :=
  onDisk.congr sound
    (fun _ headActive s head => frame s (sound.heads_not_data headActive active head))
    (fun s data => frame s (sound.data_not_data layout.active_freeMap active (by simp) data))
    (fun s data => frame s (sound.data_not_data layout.active_directory active (by simp) data))

/-- Writing sectors that nobody owns keeps the layout. -/
theorem of_unowned_changed (onDisk : layout.OnDisk disk) (sound : layout.Sound)
    (frame
      : ∀ s, (∃ owner, layout.Active owner ∧ s ∈ layout.footprint owner)
        → other s = disk s)
    : layout.OnDisk other :=
  onDisk.congr sound
    (fun owner active s head => frame s ⟨owner, active, mem_heads_footprint head⟩)
    (fun s data => frame s ⟨.freeMap, trivial, mem_sectors_footprint data⟩)
    (fun s data => frame s ⟨.directory, trivial, mem_sectors_footprint data⟩)

end OnDisk

end Layout

end Nachos.FileSys
