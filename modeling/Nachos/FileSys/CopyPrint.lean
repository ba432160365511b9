import Nachos.FileSys.Outcomes
import Nachos.FileSys.Refinement

/-! Copying a file of the host into the file system, and printing a file. The host gives the
bytes of its file in pieces of any sizes, and the file is printed in pieces of its own.
-/

namespace Nachos.FileSys

open Bytes Routines

/-- Bytes asked for at a time. -/
def transferSize : Nat := 128

@[simp]
theorem transferSize_eq : transferSize = 128 := rfl

/-- `ReadPartial` on a file of the host that has the bytes `rest` left: between one and
`transferSize` of them, as the host chooses, and none at the end of the file.
-/
def readPartial (rest : List Byte) (choice : Fin transferSize) : List Byte :=
  rest.take (choice + 1)

/-- How `Copy` ends. -/
inductive CopyResult where
  /-- The input file could not be opened. -/
  | noInput
  /-- The output file could not be created. -/
  | noOutput
  | copied
  deriving DecidableEq

namespace FileSystem

/-- The loop of `copy` in at most `fuel` turns; `reads` counts the reads of the host. -/
def copyLoop (choices : Nat → Fin transferSize)
    : Nat → Nat → List Byte → Buffer → OpenFile → DiskRoutine OpenFile
  | 0, _, _, _, _ => throw Fault.endless
  | fuel + 1, reads, rest, buffer, openFile => do
      let piece := readPartial rest (choices reads)
      let amountRead := piece.length
      let filled := blit buffer 0 (ofList piece) amountRead
      if 0 < amountRead then
        let (_, moved) ← openFile.write filled amountRead
        copyLoop choices fuel (reads + 1) (rest.drop amountRead) filled moved
      else return openFile

/-- Copy a file of the host, `none` where it cannot be opened, to a new file. -/
def copy (files : FileSystem) (choices : Nat → Fin transferSize) (fuel : Nat)
    (address : Addresses) (unixFile : Option (List Byte)) (nachosFile : Buffer)
    : DiskRoutine CopyResult :=
  match unixFile with
  | none => return .noInput
  | some bytes => do
      let fileLength := CInt.wrap bytes.length
      let success ← files.create address nachosFile fileLength
      if !success then
        return .noOutput
      else
        let openFile ← files.openAsOpenFile nachosFile
        match openFile with
        | none => throw Fault.assertion
        | some file =>
            let _ ← copyLoop choices fuel 0 bytes (fun _ => 0) file
            return .copied

/-- The loop of `print` in at most `fuel` turns, with the bytes that it prints. -/
def printLoop : Nat → Buffer → OpenFile → DiskRoutine (List Byte)
  | 0, _, _ => throw Fault.endless
  | fuel + 1, buffer, openFile => do
      let (amountRead, filled, moved) ← openFile.read buffer transferSize
      if amountRead > 0 then
        let rest ← printLoop fuel filled moved
        return (List.range amountRead.toNat).map filled ++ rest
      else return []

/-- Print a file; `none` where it cannot be opened. -/
def print (files : FileSystem) (fuel : Nat) (name : Buffer)
    : DiskRoutine (Option (List Byte)) := do
  let openFile ← files.openAsOpenFile name
  match openFile with
  | none => return none
  | some file =>
      let output ← printLoop fuel (fun _ => 0) file
      return some output

-----------------------------------------------------------------------------------------
-- The loop of Copy
-----------------------------------------------------------------------------------------

section Loops

variable {file : OpenFile} {bytes : List Byte} {disk : Disk} {fuel : Nat}

/-- The first bytes of a file are those of the list. -/
theorem holds_append {hdr : FileHeader} {after : Disk} {filled : Buffer} {written count : Nat}
    (before : Holds disk hdr (ofList bytes) written)
    (piece : ∀ offset < count, filled offset = ofList bytes (written + offset))
    (contents
      : ∀ offset < written + count,
        fileByte after hdr offset
          = if written ≤ offset then filled (offset - written) else fileByte disk hdr offset)
    : Holds after hdr (ofList bytes) (written + count) := by
  intro offset inside
  rw [contents offset inside]
  split
  · rename_i later
    rw [piece _ (by omega), Nat.add_sub_cancel' later]
  · exact before offset (by omega)

/-- One write of the loop moves the whole piece. -/
theorem run_write_piece (usable : file.hdr.Usable) (whole : file.hdr.size = bytes.length)
    {written count : Nat} (position : file.seekPosition = written) (some : 0 < count)
    (room : written + count ≤ bytes.length) {filled : Buffer}
    (piece : ∀ offset < count, filled offset = ofList bytes (written + offset))
    (holds : Holds disk file.hdr (ofList bytes) written)
    : ∃ after,
        (file.write filled count).run disk
          = (.ok ((count : Int), file.seek (written + count : Nat)), after)
        ∧ (∀ s ∉ file.hdr.sectors, after s = disk s)
        ∧ Holds after file.hdr (ofList bytes) (written + count) := by
  have small := usable.size_lt
  have moved : transferCount file.hdr.size count written = count := by
    rw [transferCount, if_neg (by omega)]
    omega
  have next : CInt.wrap ((written : Int) + count) = (written + count : Nat) := by
    rw [CInt.wrap_of_lt (by omega) (by omega)]
    push_cast
    rfl
  obtain ⟨after, run, frame, contents⟩ := OpenFile.run_writeAt usable filled
    (Int.natCast_nonneg written) (fun _ => show (written : Int) + count < 2147483648 by omega) disk
  rw [moved] at run contents
  refine ⟨after, ?_, frame, holds_append holds piece (fun offset inside => ?_)⟩
  · rw [OpenFile.write, position, Routine.run_bind_ok run, Routine.run_pure, next]
  · rw [contents offset (by omega), Int.toNat_natCast]
    have range
        : ((written : Int) ≤ offset ∧ (offset : Int) < written + count) ↔ written ≤ offset := by
      omega
    simp only [range]

/-- The loop writes what is left of the bytes, by induction on the turns; before each turn the
file holds the bytes that were read so far.
-/
theorem run_copyLoop (choices : Nat → Fin transferSize) (usable : file.hdr.Usable)
    (whole : file.hdr.size = bytes.length) {written : Nat}
    (position : file.seekPosition = written) (inside : written ≤ bytes.length)
    (holds : Holds disk file.hdr (ofList bytes) written)
    (enough : bytes.length - written < fuel) (reads : Nat) (buffer : Buffer)
    : ∃ final after,
        (copyLoop choices fuel reads (bytes.drop written) buffer file).run disk
          = (.ok final, after)
        ∧ (∀ s ∉ file.hdr.sectors, after s = disk s)
        ∧ Holds after file.hdr (ofList bytes) bytes.length := by
  induction fuel generalizing file disk written reads buffer with
  | zero => exact absurd enough (Nat.not_lt_zero _)
  | succ fuel ih =>
      have length
          : (readPartial (bytes.drop written) (choices reads)).length
            = min ((choices reads : Nat) + 1) (bytes.length - written) := by
        rw [readPartial, List.length_take, List.length_drop]
      rw [copyLoop]
      rcases Nat.eq_or_lt_of_le inside with ended | more
      · rw [if_neg (by omega)]
        exact ⟨file, disk, rfl, fun _ _ => rfl, ended ▸ holds⟩
      · rw [if_pos (by omega)]
        generalize counted : (readPartial (bytes.drop written) (choices reads)).length = count at *
        have piece
            : ∀ offset < count,
                blit buffer 0 (ofList (readPartial (bytes.drop written) (choices reads))) count
                    offset
                  = ofList bytes (written + offset) := by
          intro offset below
          rw [blit_inside _ _ (Nat.zero_le _) (by omega), Nat.sub_zero, ofList, ofList,
            readPartial, List.getD_eq_getElem?_getD, List.getD_eq_getElem?_getD,
            List.getElem?_take_of_lt (by omega), List.getElem?_drop]
        obtain ⟨between, written', frame, kept⟩ :=
          run_write_piece usable whole position (by omega) (by omega) piece holds
        obtain ⟨final, after, run, laterFrame, done⟩ :=
          @ih (file.seek (written + count : Nat)) between usable whole (written + count) rfl
            (by omega) kept (by omega) (reads + 1) _
        refine ⟨final, after, ?_, fun s outside => ?_, done⟩
        · rw [Routine.run_bind_ok written', List.drop_drop]
          exact run
        · exact (laterFrame s outside).trans (frame s outside)

-----------------------------------------------------------------------------------------
-- The loop of Print
-----------------------------------------------------------------------------------------

/-- A piece of the bytes and what is behind it. -/
theorem map_range_append_drop {filled : Buffer} {shown count : Nat}
    (room : shown + count ≤ bytes.length)
    (piece : ∀ offset < count, filled offset = ofList bytes (shown + offset))
    : (List.range count).map filled ++ bytes.drop (shown + count) = bytes.drop shown := by
  have first : (List.range count).map filled = (bytes.drop shown).take count := by
    apply List.ext_getElem
    · rw [List.length_map, List.length_range, List.length_take, List.length_drop]
      omega
    · intro offset below other
      rw [List.length_map, List.length_range] at below
      rw [List.getElem_map, List.getElem_range, piece offset below, ofList,
        List.getD_eq_getElem _ _ (by omega), List.getElem_take, List.getElem_drop]
  rw [first, ← List.drop_drop, List.take_append_drop]

/-- The loop prints the bytes from the seek position on, by induction on the turns. -/
theorem run_printLoop (usable : file.hdr.Usable) (whole : file.hdr.size = bytes.length)
    (holds : Holds disk file.hdr (ofList bytes) bytes.length) {shown : Nat}
    (position : file.seekPosition = shown) (inside : shown ≤ bytes.length)
    (enough : bytes.length - shown < fuel) (buffer : Buffer)
    : (printLoop fuel buffer file).run disk = (.ok (bytes.drop shown), disk) := by
  induction fuel generalizing file shown buffer with
  | zero => exact absurd enough (Nat.not_lt_zero _)
  | succ fuel ih =>
      have small := usable.size_lt
      have read := OpenFile.run_readAt usable buffer 0 (Int.natCast_nonneg shown)
        (fun _ => show (shown : Int) + transferSize < 2147483648 by rw [transferSize_eq]; omega)
        disk
      rw [← position] at read
      rw [printLoop, Routine.run_bind_ok (OpenFile.run_read_of_readAt read)]
      rw [position, Int.toNat_natCast]
      rcases Nat.eq_or_lt_of_le inside with ended | more
      · have none : transferCount file.hdr.size transferSize shown = 0 :=
          if_pos (.inr (by omega))
        rw [none, ended, List.drop_length]
        rfl
      · obtain ⟨count, moved, some, room⟩
            : ∃ count : Nat,
                transferCount file.hdr.size transferSize shown = count
                ∧ 0 < count
                ∧ shown + count ≤ bytes.length := by
          refine ⟨min transferSize (bytes.length - shown), ?_, ?_, ?_⟩ <;>
            rw [transferSize_eq] at *
          · rw [transferCount, if_neg (by omega)]
            omega
          · omega
          · omega
        have next : CInt.wrap ((shown : Int) + count) = (shown + count : Nat) := by
          rw [CInt.wrap_of_lt (by omega) (by omega)]
          push_cast
          rfl
        simp only [moved, next, Int.toNat_natCast]
        rw [if_pos (by omega), Routine.run_bind_ok (@ih (file.seek (shown + count : Nat)) usable
          whole holds (shown + count) rfl room (by omega) _), Routine.run_pure]
        refine congrArg (fun output => (Except.ok output, disk)) ?_
        refine map_range_append_drop room (fun offset below => ?_)
        rw [blit_inside _ _ (Nat.zero_le _) (by omega), Nat.sub_zero]
        exact holds _ (by omega)

end Loops

end FileSystem

-----------------------------------------------------------------------------------------
-- Whole commands
-----------------------------------------------------------------------------------------

namespace World

variable {world : World} {layout : Layout}

theorem Consistent.run_open_of_found (consistent : world.Consistent layout) {name : Buffer}
    {slot : Fin numDirEntries} (found : layout.directory.findIndex name = some slot)
    : (world.files.openAsOpenFile name).run world.disk
      = (.ok (some (newHandle layout name slot).file), world.disk) := by
  rcases run_openAsOpenFile consistent name with ⟨absent, _⟩ | ⟨own, same, ran⟩
  · rw [found] at absent
    exact nomatch absent
  · rwa [Option.some.inj (found.symm.trans same)]

/-- Changing data sectors of one file keeps the world consistent. -/
theorem Consistent.of_data_changed (consistent : world.Consistent layout)
    {slot : Fin numDirEntries} (active : layout.Active (.file slot)) {disk : Disk}
    (frame : ∀ s ∉ (layout.header (.file slot)).sectors, disk s = world.disk s)
    : Consistent { world with disk } layout where
  sound := consistent.sound
  onDisk := consistent.onDisk.of_data_changed consistent.sound active frame
  files := consistent.files
  handles := consistent.handles

/-- A copy whose file cannot be created leaves the disk alone. -/
theorem run_copy_of_not_created {files : FileSystem} {address : FileSystem.Addresses}
    {name : Buffer} {bytes : List Byte} {disk after : Disk}
    (fits : bytes.length < 2147483648)
    (failed : (files.create address name bytes.length).run disk = (.ok false, after))
    (choices : Nat → Fin transferSize) (fuel : Nat)
    : (files.copy choices fuel address (some bytes) name).run disk = (.ok .noOutput, after) := by
  have length : CInt.wrap bytes.length = bytes.length := CInt.wrap_of_lt (by omega) (by omega)
  rw [FileSystem.copy, length, Routine.run_bind_ok failed]
  rfl

/-- A copy fills the file that it creates, and printing that file gives the bytes back. -/
theorem run_copy_of_created (consistent : world.Consistent layout)
    {address : FileSystem.Addresses} {name : Buffer} {bytes : List Byte}
    {slot : Fin numDirEntries} {sector : Int} {hdr : FileHeader} {freeMap : Bitmap numSectors}
    {disk : Disk} (fits : bytes.length < 2147483648)
    (ran : (world.files.create address name bytes.length).run world.disk = (.ok true, disk))
    (created : layout.Created world.disk name bytes.length slot sector hdr freeMap disk)
    (choices : Nat → Fin transferSize) {fuel : Nat} (enough : bytes.length < fuel)
    : ∃ copied,
        (world.files.copy choices fuel address (some bytes) name).run world.disk
          = (.ok .copied, copied)
        ∧ ∀ turns, bytes.length < turns
          → (world.files.print turns name).run copied = (.ok (some bytes), copied) := by
  have length : CInt.wrap bytes.length = bytes.length := CInt.wrap_of_lt (by omega) (by omega)
  have whole : hdr.size = bytes.length := by
    rw [created.size, FileHeader.allocatedSize_of_nonneg (Int.natCast_nonneg _)]
  have between := consistent.created created
  have entered := created.creation.findIndex_created consistent.sound
  have header := @Layout.Creation.header_created_self layout slot name sector hdr freeMap
  have active : (layout.created slot name sector hdr freeMap).Active (.file slot) :=
    (Directory.findIndex_eq_some entered).1
  have usable := between.sound.usable active
  have opened := between.run_open_of_found entered
  have file
      : (newHandle (layout.created slot name sector hdr freeMap) name slot).file
        = { hdr, seekPosition := 0 } := by
    rw [newHandle, header]
  rw [file] at opened
  rw [header] at usable
  obtain ⟨final, copied, looped, frame, holds⟩ :=
    @FileSystem.run_copyLoop { hdr, seekPosition := 0 } bytes disk fuel choices usable whole 0 rfl
      (Nat.zero_le _) (fun _ none => absurd none (Nat.not_lt_zero _)) enough 0 (fun _ => 0)
  refine ⟨copied, ?_, fun turns more => ?_⟩
  · rw [FileSystem.copy, length, Routine.run_bind_ok ran]
    simp only [Bool.not_true, Bool.false_eq_true, if_false]
    rw [Routine.run_bind_ok opened]
    exact Routine.run_bind_ok looped _
  · have after := between.of_data_changed active (by rw [header]; exact frame)
    have reopened := after.run_open_of_found entered
    rw [file] at reopened
    rw [FileSystem.print, Routine.run_bind_ok reopened]
    exact Routine.run_bind_ok
      (@FileSystem.run_printLoop { hdr, seekPosition := 0 } bytes copied turns usable whole holds
        0 rfl (Nat.zero_le _) more (fun _ => 0)) _

/-- From any world that cautious operations lead to: where a file of that size can be created,
copying bytes of the host into it and printing it gives the bytes back, however the host cuts
them, and both loops end. Where the name is taken or space is short the file is not created,
and then the copy changes no sector.
-/
theorem copy_print (mapAddress dirAddress : FileSystem.Addresses) (disk : Disk)
    : ∃ start,
        formatted mapAddress dirAddress disk = .ok start
        ∧ ∀ world, Runs.Reachable (Step Cautious) start world
          → ∀ (address : FileSystem.Addresses) (name : Buffer) (bytes : List Byte)
              (choices : Nat → Fin transferSize),
            bytes.length < 2147483648
            → ∃ directory freeMap created after,
                (world.files.fetchDirectory.run world.disk).1 = .ok directory
                ∧ (world.files.fetchFreeMap.run world.disk).1 = .ok freeMap
                ∧ (world.files.create address name bytes.length).run world.disk
                  = (.ok created, after)
                ∧ (created = true
                  → ∀ fuel, bytes.length < fuel
                    → ∃ copied,
                        (world.files.copy choices fuel address (some bytes) name).run world.disk
                          = (.ok .copied, copied)
                        ∧ ∀ turns, bytes.length < turns
                          → (world.files.print turns name).run copied
                            = (.ok (some bytes), copied))
                ∧ (created = false
                  → ∀ fuel,
                      (world.files.copy choices fuel address (some bytes) name).run world.disk
                        = (.ok .noOutput, world.disk))
                ∧ ((∃ slot, (directory.entry slot).inUse = true
                      ∧ (directory.entry slot).key = nameKey name)
                    ∨ (freeMap.numClear : Int)
                      < 1 + ((bytes.length : Int) + 127) / 128
                        + max (((bytes.length : Int) + 3583) / 3584 - 1) 0
                  → created = false) := by
  obtain ⟨start, formattedLayout, isStart, _, consistent, _⟩ :=
    formatted_spec mapAddress dirAddress disk
  refine ⟨start, isStart, fun world reachable address name bytes choices fits => ?_⟩
  obtain ⟨layout, kept⟩ := consistent.reachable (fun _ _ cautious => cautious) reachable
  have directory := kept.onDisk.run_fetchDirectory kept.sound
  have freeMap := kept.onDisk.run_fetchFreeMap kept.sound
  have outcome := Layout.run_create kept.onDisk kept.sound address name
    (show CInt.InRange bytes.length from ⟨by omega, by omega⟩)
  rw [FileHeader.allocatedSize_of_nonneg (Int.natCast_nonneg _), canCreate_iff] at outcome
  rw [← kept.files] at directory freeMap outcome
  rw [directory, freeMap]
  rcases outcome with ⟨_, ran⟩ | ⟨can, slot, sector, hdr, taken, after, ran, created⟩
  · refine ⟨layout.directory, layout.freeMap, false, world.disk, rfl, rfl, ran, ?_, ?_, ?_⟩
    · exact fun succeeded => absurd succeeded Bool.false_ne_true
    · exact fun _ => run_copy_of_not_created fits ran choices
    · exact fun _ => rfl
  · refine ⟨layout.directory, layout.freeMap, true, after, rfl, rfl, ran, ?_, ?_, ?_⟩
    · exact fun _ _ enough => run_copy_of_created kept fits ran created choices enough
    · exact fun failed => absurd failed.symm Bool.false_ne_true
    · obtain ⟨absent, _, space⟩ := can
      rintro (⟨other, inUse, key⟩ | short)
      · exact absurd key (absent other inUse)
      · exact absurd space (not_le.mpr short)

end World

end Nachos.FileSys
