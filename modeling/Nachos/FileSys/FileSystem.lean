import Nachos.FileSys.Directory
import Nachos.FileSys.PersistentBitmap

/-! The file system: a free map and a directory, each kept in a file, and the operations
that create, open and remove files by name.
-/

namespace Nachos.FileSys

open Bytes Routines

/-- Sector of the header of the free-map file. -/
def freeMapSector : Int := 0

/-- Sector of the header of the directory file. -/
def directorySector : Int := 1

/-- Bytes of a free map: a bit for each sector. -/
def freeMapFileSize : Int := numSectors / 8

/-- Entries in the directory. -/
def numDirEntries : Nat := 10

/-- Bytes of a directory. -/
def directoryFileSize : Int := DirectoryEntry.size * numDirEntries

/-- The two files that stay open while the kernel runs. -/
structure FileSystem where
  freeMapFile : OpenFile
  directoryFile : OpenFile
  deriving DecidableEq

namespace FileSystem

/-- Addresses of the header objects of a chain, by depth. -/
abbrev Addresses := Nat → Nat

/-- The constructor on an existing disk: open the two files. -/
def openDisk : DiskRoutine FileSystem := do
  let freeMapFile ← OpenFile.openAt freeMapSector
  let directoryFile ← OpenFile.openAt directorySector
  return { freeMapFile, directoryFile }

/-- The constructor that formats: the free map and an empty directory become files. -/
def format (mapAddress dirAddress : Addresses) : DiskRoutine FileSystem := do
  let mapMarked ← Routine.lift ((Bitmap.new numSectors).mark freeMapSector)
  let bothMarked ← Routine.lift (mapMarked.mark directorySector)
  let (mapFits, mapHdr, mapTaken) ←
    Routine.lift (FileHeader.allocate bothMarked freeMapFileSize)
  Routine.assert (mapFits = true) Fault.assertion
  let (dirFits, dirHdr, freeMap) ←
    Routine.lift (FileHeader.allocate mapTaken directoryFileSize)
  Routine.assert (dirFits = true) Fault.assertion
  mapHdr.writeBack mapAddress freeMapSector
  dirHdr.writeBack dirAddress directorySector
  let files ← openDisk
  freeMap.writeBack files.freeMapFile
  (Directory.new numDirEntries).writeBack files.directoryFile
  return files

/-- The directory as its file holds it. -/
def fetchDirectory (files : FileSystem) : DiskRoutine (Directory numDirEntries) :=
  (Directory.new numDirEntries).fetchFrom files.directoryFile

/-- The free map as its file holds it. -/
def fetchFreeMap (files : FileSystem) : DiskRoutine (Bitmap numSectors) :=
  Bitmap.load numSectors files.freeMapFile

/-- Create a file of the given size; false when the name is taken or anything runs out. -/
def create (files : FileSystem) (address : Addresses) (name : Buffer) (initialSize : Int)
    : DiskRoutine Bool := do
  let directory ← files.fetchDirectory
  if directory.find name ≠ -1 then
    return false
  else
    let freeMap ← files.fetchFreeMap
    let (sector, marked) := freeMap.findAndSet
    if sector = -1 then
      return false
    else
      let (added, entered) := directory.add name sector
      if !added then
        return false
      else
        let (allocated, hdr, taken) ← Routine.lift (FileHeader.allocate marked initialSize)
        if !allocated then
          return false
        else
          hdr.writeBack address sector
          entered.writeBack files.directoryFile
          taken.writeBack files.freeMapFile
          return true

/-- Open a file by name; `none` is the null pointer. -/
def openAsOpenFile (files : FileSystem) (name : Buffer) : DiskRoutine (Option OpenFile) := do
  let directory ← files.fetchDirectory
  let sector := directory.find name
  if sector ≥ 0 then
    let file ← OpenFile.openAt sector
    return some file
  else
    return none

/-- Delete a file by name; false when there is none. -/
def remove (files : FileSystem) (name : Buffer) : DiskRoutine Bool := do
  let directory ← files.fetchDirectory
  let sector := directory.find name
  if sector = -1 then
    return false
  else
    let fileHdr ← FileHeader.fetchFrom sector
    let freeMap ← files.fetchFreeMap
    let released ← Routine.lift (fileHdr.deallocate freeMap)
    let cleared ← Routine.lift (released.clear sector)
    let (_, rest) := directory.remove name
    cleared.writeBack files.freeMapFile
    rest.writeBack files.directoryFile
    return true

end FileSystem

end Nachos.FileSys
