import Nachos.FileSysStub.TableRefinement

/-! Reads and writes with sizes as the registers hold them. The host refuses a negative size,
and the offset of an open file still moves by what its wrapper returned: when the offsets
count the bytes that were transferred.
-/

namespace Nachos.FileSysStub
open Bytes Outcome

namespace Unchecked

namespace Host

variable (host : Host)

/-- `read` refuses a negative size. -/
def readPartial (fd : Nat) (nBytes : Int) : Int × List Byte × Host :=
  if nBytes < 0 then (-1, [], host) else host.readPartial fd nBytes.toNat

/-- `write` refuses a negative size, too; what it returns must equal the size. -/
def writeFile (fd : Nat) (buffer : List Byte) (nBytes : Int) : Except Fault Host :=
  if nBytes < 0 then if nBytes = -1 then .ok host else .error .assertion
  else if nBytes ≤ buffer.length then host.writeFile fd (buffer.take nBytes.toNat)
  else .error .assertion

end Host

namespace OpenFile

variable (openFile : OpenFile) (host : Host)

def readAt (numBytes position : Int) : Except Fault (Int × List Byte × Host) := do
  let sought ← host.lseek openFile.file position
  return Host.readPartial sought openFile.file numBytes

/-- It returns the size it was given. -/
def writeAt (source : List Byte) (numBytes position : Int) : Except Fault (Int × Host) := do
  let sought ← host.lseek openFile.file position
  let written ← Host.writeFile sought openFile.file source numBytes
  return (numBytes, written)

def read (numBytes : Int) : Except Fault (Int × List Byte × OpenFile × Host) := do
  let (numRead, data, after) ← readAt openFile host numBytes openFile.currentOffset
  let currentOffset := CInt.wrap (openFile.currentOffset + numRead)
  return (numRead, data, { openFile with currentOffset }, after)

def write (source : List Byte) (numBytes : Int) : Except Fault (Int × OpenFile × Host) := do
  let (numWritten, after) ← writeAt openFile host source numBytes openFile.currentOffset
  let currentOffset := CInt.wrap (openFile.currentOffset + numWritten)
  return (numWritten, { openFile with currentOffset }, after)

end OpenFile

/-- A system call on files. -/
inductive Call where
  | openAFile (name : List Byte)
  | readFile (size id : Int)
  | writeFile (buffer : List Byte) (size id : Int)
  | closeFile (id : Int)

section Calls

variable (fileSystem : FileSystem)

def readFile (size id : Int) : Except Fault (Reply × FileSystem) :=
  match fileSystem.lookup id with
  | none => .ok ({ returned := -1, data := [] }, fileSystem)
  | some (slot, openFile) => do
      let (bytesRead, data, openFile, host) ← OpenFile.read openFile fileSystem.host size
      let after := fileSystem.setSlot slot (some openFile) host
      if bytesRead < 0 then return ({ returned := -1, data }, after)
      else return ({ returned := bytesRead, data }, after)

def writeFile (buffer : List Byte) (size id : Int) : Except Fault (Reply × FileSystem) :=
  match fileSystem.lookup id with
  | none => .ok ({ returned := -1, data := [] }, fileSystem)
  | some (slot, openFile) => do
      let (bytesWritten, openFile, host) ← OpenFile.write openFile fileSystem.host buffer size
      let after := fileSystem.setSlot slot (some openFile) host
      if bytesWritten < 0 then return ({ returned := -1, data := [] }, after)
      else return ({ returned := bytesWritten, data := [] }, after)

def perform : Call → Except Fault (Reply × FileSystem)
  | .openAFile name => .ok (fileSystem.openAFile name)
  | .readFile size id => readFile fileSystem size id
  | .writeFile buffer size id => writeFile fileSystem buffer size id
  | .closeFile id => fileSystem.closeFile id

/-- No read of a negative size and no write of size -1 goes to an open file. -/
def Harmless : Call → Prop
  | .readFile size id => fileSystem.lookup id = none ∨ 0 ≤ size
  | .writeFile _ size id => fileSystem.lookup id = none ∨ size ≠ -1
  | .openAFile _ | .closeFile _ => True

end Calls

/-- A call that returns. -/
def Step (fileSystem : FileSystem) (label : Call × Reply) (after : FileSystem) : Prop :=
  perform fileSystem label.1 = .ok (label.2, after)

-----------------------------------------------------------------------------------------
-- Counts
-----------------------------------------------------------------------------------------

/-- What a call does to the count of the bytes transferred since a slot was opened. -/
def count (slot : Fin maxOpenFiles) (total : Int) : Call × Reply → Int
  | (.openAFile _, reply) => if reply.returned = (slot : Nat) then 0 else total
  | (.readFile _ id, reply) | (.writeFile _ _ id, reply) =>
      if id = (slot : Nat) ∧ 0 ≤ reply.returned then total + reply.returned else total
  | (.closeFile _, _) => total

/-- The sum of the counts returned for a slot since it was opened. -/
def transferred (trace : List (Call × Reply)) (slot : Fin maxOpenFiles) : Int :=
  trace.foldl (count slot) 0

/-- Every offset counts the bytes that were transferred. -/
def Exact (trace : List (Call × Reply)) (fileSystem : FileSystem) : Prop :=
  ∀ slot openFile, fileSystem.openFileTable slot = some openFile
    → openFile.currentOffset = transferred trace slot

/-- A read or write that returned -1 has left the offsets and the files as they were. -/
def FailsCleanly (before : FileSystem) (after : FileSystem) : Call × Reply → Prop
  | (.readFile _ _, reply) | (.writeFile _ _ _, reply) =>
      reply.returned = -1
      → after.openFileTable = before.openFileTable
        ∧ after.host.contents = before.host.contents
  | _ => True

variable {fileSystem after : FileSystem} {trace : List (Call × Reply)} {reply : Reply}

theorem transferred_snoc (label : Call × Reply) (slot : Fin maxOpenFiles)
    : transferred (trace ++ [label]) slot = count slot (transferred trace slot) label := by
  rw [transferred, List.foldl_append]
  rfl

/-- The count of a slot is that of its entry in the map. -/
theorem exact_iff (sound : fileSystem.Sound)
    : Exact trace fileSystem
      ↔ ∀ slot entry, fileSystem.openFiles.entries slot = some entry
        → (entry.offset : Int) = transferred trace slot := by
  constructor
  · intro exact slot entry held
    obtain ⟨openFile, stored, made⟩ := Option.bind_eq_some_iff.mp held
    obtain ⟨_, _, rfl⟩ := Option.map_eq_some_iff.mp made
    rw [Int.toNat_of_nonneg (sound.offset slot openFile stored).1]
    exact exact slot openFile stored
  · intro counted slot openFile stored
    obtain ⟨description, opened⟩ := sound.opened slot openFile stored
    have held
        : fileSystem.openFiles.entries slot
          = some
              {
                file := description.file
                offset := openFile.currentOffset.toNat
                descriptor := openFile.file
              } := by
      simp [FileSystem.openFiles, stored, FileSystem.entryOf, opened]
    rw [← counted slot _ held, Int.toNat_of_nonneg (sound.offset slot openFile stored).1]

-----------------------------------------------------------------------------------------
-- Calls with sizes that are not negative
-----------------------------------------------------------------------------------------

/-- For sizes that are not negative this is the reading of the abstract host. -/
theorem readFile_of_nonneg {size : Int} (nonneg : 0 ≤ size) (id : Int)
    : readFile fileSystem size id = fileSystem.readFile size.toNat id := by
  have partially (host : Host) (fd : Nat)
      : Host.readPartial host fd size = host.readPartial fd size.toNat :=
    if_neg (not_lt.mpr nonneg)
  have reading (openFile : OpenFile) (host : Host)
      : OpenFile.read openFile host size = openFile.read host size.toNat := by
    simp only [OpenFile.read, OpenFile.readAt, partially]
    rfl
  rw [readFile, FileSystem.readFile]
  rcases fileSystem.lookup id with _ | ⟨slot, openFile⟩
  · rfl
  · dsimp only
    rw [reading]

/-- For sizes inside the buffer this is the writing of the abstract host. -/
theorem writeFile_of_nonneg {buffer : List Byte} {size : Int} (nonneg : 0 ≤ size)
    (inside : size ≤ buffer.length) (id : Int)
    : writeFile fileSystem buffer size id
      = fileSystem.writeFile (buffer.take size.toNat) id := by
  have length : ((buffer.take size.toNat).length : Int) = size := by
    rw [List.length_take]
    omega
  have whole (host : Host) (fd : Nat)
      : Host.writeFile host fd buffer size = host.writeFile fd (buffer.take size.toNat) := by
    rw [Host.writeFile, if_neg (not_lt.mpr nonneg), if_pos inside]
  have writing (openFile : OpenFile) (host : Host)
      : OpenFile.write openFile host buffer size
        = openFile.write host (buffer.take size.toNat) := by
    simp only [OpenFile.write, OpenFile.writeAt, whole, FileSysStub.OpenFile.write,
      FileSysStub.OpenFile.writeAt, length]
  rw [writeFile, FileSystem.writeFile]
  rcases fileSystem.lookup id with _ | ⟨slot, openFile⟩
  · rfl
  · dsimp only
    rw [writing]

/-- A write to an open file that returned had a size that its buffer has, or -1. -/
theorem size_of_writeFile {buffer : List Byte} {size id : Int} {slot : Fin maxOpenFiles}
    {openFile : OpenFile} (found : fileSystem.lookup id = some (slot, openFile))
    (returned : writeFile fileSystem buffer size id = .ok (reply, after))
    : size = -1 ∨ (0 ≤ size ∧ size ≤ buffer.length) := by
  rw [writeFile, found] at returned
  obtain ⟨_, wrote, _⟩ := of_bind_ok returned
  obtain ⟨_, placed, _⟩ := of_bind_ok wrote
  obtain ⟨_, _, placed⟩ := of_bind_ok placed
  obtain ⟨_, written, _⟩ := of_bind_ok placed
  unfold Host.writeFile at written
  split at written
  · split at written
    · exact .inl ‹_›
    · exact nomatch written
  · split at written
    · exact .inr ⟨by omega, ‹_›⟩
    · exact nomatch written

-----------------------------------------------------------------------------------------
-- Steps
-----------------------------------------------------------------------------------------

theorem entries_put (files : OpenFiles) (id : Fin maxOpenFiles) (entry : Option Entry)
    : (files.put id entry).entries = Function.update files.entries id entry :=
  rfl

/-- What an operation on the map does to a count. -/
def recount (slot : Fin maxOpenFiles) (total : Int) (event : FileSystem.Event) : Int :=
  match event.operation with
  | .openAFile _ => if event.reply.returned = (slot : Nat) then 0 else total
  | .readFile _ id | .writeFile _ id =>
      if id = (slot : Nat) ∧ 0 ≤ event.reply.returned then total + event.reply.returned
      else total
  | .closeFile _ | .elsewhere _ _ _ => total

/-- A step of the map keeps the counts, by cases on it. -/
theorem counted_step {files next : OpenFiles} {event : FileSystem.Event}
    {total : Fin maxOpenFiles → Int}
    (counted
      : ∀ slot entry, files.entries slot = some entry → (entry.offset : Int) = total slot)
    (step : OpenFiles.Step files event next)
    : ∀ slot entry, next.entries slot = some entry
      → (entry.offset : Int) = recount slot (total slot) event := by
  -- A transfer through one id moves its entry, and counts for no other.
  have moved {id : Int} {own : Fin maxOpenFiles} {entry : Entry} {count : Nat}
      (holds : files.Holds id own entry) (slot : Fin maxOpenFiles) (now : Entry)
      (held
        : Function.update files.entries own
              (some { entry with offset := entry.offset + count }) slot
            = some now)
      : (now.offset : Int)
        = if id = (slot : Nat) ∧ (0 : Int) ≤ count then total slot + count else total slot := by
    obtain ⟨rfl, there⟩ := holds
    by_cases same : slot = own
    · subst same
      rw [Function.update_self] at held
      obtain rfl := Option.some.inj held
      rw [if_pos ⟨rfl, Int.natCast_nonneg _⟩, ← counted slot entry there]
      exact Int.natCast_add ..
    · rw [Function.update_of_ne same] at held
      rw [if_neg (fun own => same (Fin.ext (Int.ofNat_inj.mp own.1)).symm)]
      exact counted slot now held
  intro slot now held
  cases step with
  | @opened id name fd file free least unused =>
      simp only [recount]
      by_cases same : slot = id
      · subst same
        rw [entries_put, Function.update_self] at held
        obtain rfl := Option.some.inj held
        rw [if_pos rfl]
        rfl
      · rw [entries_put, Function.update_of_ne same] at held
        rw [if_neg (fun own => same (Fin.ext (Int.ofNat_inj.mp own)).symm)]
        exact counted slot now held
  | refused | full _ =>
      change (now.offset : Int) = if (-1 : Int) = (slot : Nat) then 0 else total slot
      rw [if_neg (by omega)]
      exact counted slot now held
  | @invalid id operation uses lacks =>
      have kept := counted slot now held
      cases operation with
      | openAFile name | elsewhere names contents descriptors => exact uses.elim
      | readFile size other | writeFile data other => simpa [recount, OpenFiles.failed] using kept
      | closeFile other => exact kept
  | read holds there => exact moved holds slot now held
  | written holds => exact moved holds slot now held
  | @closed id own entry holds =>
      by_cases same : slot = own
      · subst same
        rw [entries_put, Function.update_self] at held
        exact nomatch held
      · rw [entries_put, Function.update_of_ne same] at held
        exact counted slot now held
  | elsewhere => exact counted slot now held

/-- To seek is no call that is logged, by cases on the descriptor. -/
theorem calls_of_lseek {host sought : Host} {fd : Nat} {offset : Int}
    (done : host.lseek fd offset = .ok sought)
    : sought.calls = host.calls := by
  unfold FileSysStub.Host.lseek at done
  split at done
  · split at done
    · obtain rfl := Except.ok.inj done
      rfl
    · exact nomatch done
  · exact nomatch done

theorem calls_of_readPartial (host : Host) (fd nBytes : Nat)
    : (host.readPartial fd nBytes).2.2.calls = host.calls := by
  unfold FileSysStub.Host.readPartial
  split <;> rfl

/-- `WriteFile` itself logs no call, by cases on the descriptor. -/
theorem calls_of_writeFile {host written : Host} {fd : Nat} {data : List Byte}
    (done : host.writeFile fd data = .ok written)
    : written.calls = host.calls := by
  unfold FileSysStub.Host.writeFile at done
  split at done
  · split at done
    · obtain rfl := Except.ok.inj done
      rfl
    · exact nomatch done
  · exact nomatch done

/-- Operations only add to the calls that are kept for reference. -/
theorem exists_calls {operation : FileSystem.Operation}
    (performed : fileSystem.perform operation = .ok (reply, after))
    : ∃ calls, after.host.calls = fileSystem.host.calls ++ calls := by
  cases operation with
  | openAFile name =>
      have done := Except.ok.inj performed
      unfold FileSystem.openAFile FileSysStub.Host.openForReadWrite at done
      split at done
      · obtain ⟨_, rfl⟩ := Prod.mk.inj done
        exact ⟨[], (List.append_nil _).symm⟩
      · cases given : fileSystem.host.answer name with
        | none =>
            rw [given] at done
            obtain ⟨_, rfl⟩ := Prod.mk.inj done
            exact ⟨[], (List.append_nil _).symm⟩
        | some pair =>
            rw [given] at done
            obtain ⟨_, rfl⟩ := Prod.mk.inj done
            exact ⟨_, rfl⟩
  | readFile size id =>
      simp only [FileSystem.perform, FileSystem.readFile] at performed
      split at performed
      · obtain ⟨_, rfl⟩ := Prod.mk.inj (Except.ok.inj performed)
        exact ⟨[], (List.append_nil _).symm⟩
      · rename_i slot openFile _
        obtain ⟨_, read, rest⟩ := of_bind_ok performed
        obtain ⟨partly, placed, last⟩ := of_bind_ok read
        obtain ⟨sought, lseek, done⟩ := of_bind_ok placed
        have same := (calls_of_readPartial sought openFile.file size).trans (calls_of_lseek lseek)
        rw [Except.ok.inj done] at same
        obtain rfl := Except.ok.inj last
        refine ⟨[], ?_⟩
        rw [List.append_nil, ← same]
        dsimp only at rest
        split at rest <;> (obtain ⟨_, rfl⟩ := Prod.mk.inj (Except.ok.inj rest); rfl)
  | writeFile data id =>
      simp only [FileSystem.perform, FileSystem.writeFile] at performed
      split at performed
      · obtain ⟨_, rfl⟩ := Prod.mk.inj (Except.ok.inj performed)
        exact ⟨[], (List.append_nil _).symm⟩
      · obtain ⟨_, wrote, rest⟩ := of_bind_ok performed
        obtain ⟨_, placed, last⟩ := of_bind_ok wrote
        obtain ⟨sought, lseek, placed⟩ := of_bind_ok placed
        obtain ⟨_, written, done⟩ := of_bind_ok placed
        obtain rfl := Except.ok.inj done
        obtain rfl := Except.ok.inj last
        have same := (calls_of_writeFile written).trans (calls_of_lseek lseek)
        refine ⟨[], ?_⟩
        rw [List.append_nil, ← same]
        dsimp only at rest
        split at rest <;> (obtain ⟨_, rfl⟩ := Prod.mk.inj (Except.ok.inj rest); rfl)
  | closeFile id =>
      simp only [FileSystem.perform, FileSystem.closeFile] at performed
      split at performed
      · obtain ⟨_, rfl⟩ := Prod.mk.inj (Except.ok.inj performed)
        exact ⟨[], (List.append_nil _).symm⟩
      · obtain ⟨_, closed, done⟩ := of_bind_ok performed
        obtain ⟨_, rfl⟩ := Prod.mk.inj (Except.ok.inj done)
        unfold FileSysStub.Host.close at closed
        split at closed
        · obtain rfl := Except.ok.inj closed
          exact ⟨_, rfl⟩
        · cases closed
  | elsewhere names contents descriptors =>
      obtain ⟨_, rfl⟩ := Prod.mk.inj (Except.ok.inj performed)
      exact ⟨[], (List.append_nil _).symm⟩

/-- A call on an open file does not return -1. -/
theorem returned_nonneg {files next : OpenFiles} {event : FileSystem.Event} {id : Int}
    {slot : Fin maxOpenFiles} {entry : Entry} (step : OpenFiles.Step files event next)
    (uses : OpenFiles.Uses id event.operation) (holds : files.Holds id slot entry)
    : 0 ≤ event.reply.returned := by
  cases step with
  | opened _ _ _ | refused | full _ | elsewhere => exact uses.elim
  | @invalid other operation own lacks =>
      have same : other = id := by
        cases operation with
        | readFile _ _ | writeFile _ _ | closeFile _ => exact own.symm.trans uses
        | openAFile _ | elsewhere _ _ _ => exact own.elim
      exact absurd holds (same ▸ lacks slot entry)
  | read _ _ | written _ => exact Int.natCast_nonneg _
  | closed _ => exact Int.one_nonneg

/-- A call that is an operation of the table keeps the counts. -/
theorem of_performed (sound : fileSystem.Sound) (exact : Exact trace fileSystem)
    {operation : FileSystem.Operation} {label : Call × Reply} (legal : fileSystem.Legal operation)
    (performed : fileSystem.perform operation = .ok (label.2, after))
    (same
      : ∀ slot total answer calls,
        recount slot total { operation, answer, reply := label.2, calls }
        = count slot total label)
    : after.Sound
      ∧ Exact (trace ++ [label]) after
      ∧ ∀ id slot openFile, OpenFiles.Uses id operation
        → fileSystem.lookup id = some (slot, openFile)
        → 0 ≤ label.2.returned := by
  obtain ⟨calls, logged⟩ := exists_calls performed
  obtain ⟨kept, step⟩ :=
    sound.step (⟨legal, rfl, performed, logged⟩ : FileSystem.Step fileSystem
      { operation, answer := fileSystem.answer operation, reply := label.2, calls } after)
  refine ⟨kept, (exact_iff kept).mpr (fun slot entry held => ?_),
    fun id slot openFile uses found => ?_⟩
  · rw [transferred_snoc, ← same]
    exact counted_step ((exact_iff sound).mp exact) step slot entry held
  · obtain ⟨_, _, holds⟩ := sound.holds found
    exact returned_nonneg step uses holds

/-- A call with an id that is not open does nothing. -/
theorem exact_of_invalid (sound : fileSystem.Sound) (exact : Exact trace fileSystem)
    (label : Call × Reply) (nothing : fileSystem = after)
    (uncounted : ∀ slot total, count slot total label = total)
    : after.Sound ∧ Exact (trace ++ [label]) after := by
  subst nothing
  refine ⟨sound, fun slot openFile stored => ?_⟩
  rw [transferred_snoc, uncounted]
  exact exact slot openFile stored

/-- Harmless calls keep the counts, by cases on the call. -/
theorem exact_of_harmless (sound : fileSystem.Sound) (exact : Exact trace fileSystem)
    {label : Call × Reply} (harmless : Harmless fileSystem label.1)
    (step : Step fileSystem label after)
    : after.Sound ∧ Exact (trace ++ [label]) after ∧ FailsCleanly fileSystem after label := by
  obtain ⟨call, reply⟩ := label
  have uncounted (slot : Fin maxOpenFiles) (total id : Int)
      : (if id = (slot : Nat) ∧ (0 : Int) ≤ -1 then total + -1 else total) = total :=
    if_neg (fun counts => absurd counts.2 (by decide))
  cases call with
  | openAFile name =>
      obtain ⟨kept, counted, _⟩ :=
        @of_performed _ _ _ sound exact (.openAFile name) (.openAFile name, reply) trivial step
          (fun _ _ _ _ => rfl)
      exact ⟨kept, counted, trivial⟩
  | closeFile id =>
      obtain ⟨kept, counted, _⟩ :=
        @of_performed _ _ _ sound exact (.closeFile id) (.closeFile id, reply) trivial step
          (fun _ _ _ _ => rfl)
      exact ⟨kept, counted, trivial⟩
  | readFile size id =>
      have returned : readFile fileSystem size id = .ok (reply, after) := step
      cases found : fileSystem.lookup id with
      | none =>
          rw [readFile, found] at returned
          obtain ⟨rfl, rfl⟩ := Prod.mk.inj (Except.ok.inj returned)
          obtain ⟨kept, counted⟩ := exact_of_invalid sound exact
            (.readFile size id, { returned := -1, data := [] }) rfl
            (fun slot total => uncounted slot total id)
          exact ⟨kept, counted, fun _ => ⟨rfl, rfl⟩⟩
      | some pair =>
          obtain ⟨slot, openFile⟩ := pair
          have nonneg : 0 ≤ size := harmless.resolve_left (by simp [found])
          rw [readFile_of_nonneg nonneg] at returned
          obtain ⟨kept, counted, moves⟩ :=
            @of_performed _ _ _ sound exact (.readFile size.toNat id) (.readFile size id, reply)
              trivial returned (fun _ _ _ _ => rfl)
          refine ⟨kept, counted, fun failed => ?_⟩
          have nonneg : 0 ≤ reply.returned := moves id slot openFile rfl found
          omega
  | writeFile buffer size id =>
      have returned : writeFile fileSystem buffer size id = .ok (reply, after) := step
      cases found : fileSystem.lookup id with
      | none =>
          rw [writeFile, found] at returned
          obtain ⟨rfl, rfl⟩ := Prod.mk.inj (Except.ok.inj returned)
          obtain ⟨kept, counted⟩ := exact_of_invalid sound exact
            (.writeFile buffer size id, { returned := -1, data := [] }) rfl
            (fun slot total => uncounted slot total id)
          exact ⟨kept, counted, fun _ => ⟨rfl, rfl⟩⟩
      | some pair =>
          obtain ⟨slot, openFile⟩ := pair
          have other : size ≠ -1 := harmless.resolve_left (by simp [found])
          obtain ⟨nonneg, inside⟩ := (size_of_writeFile found returned).resolve_left other
          rw [writeFile_of_nonneg nonneg inside] at returned
          obtain ⟨kept, counted, moves⟩ :=
            @of_performed _ _ _ sound exact (.writeFile (buffer.take size.toNat) id)
              (.writeFile buffer size id, reply) trivial returned (fun _ _ _ _ => rfl)
          refine ⟨kept, counted, fun failed => ?_⟩
          have nonneg : 0 ≤ reply.returned := moves id slot openFile rfl found
          omega

-----------------------------------------------------------------------------------------
-- Calls that move an offset by -1
-----------------------------------------------------------------------------------------

/-- An offset that fell by one no longer counts the bytes. -/
theorem not_exact_of_fallen (sound : fileSystem.Sound) (exact : Exact trace fileSystem)
    {label : Call × Reply} {slot : Fin maxOpenFiles} {openFile fallen : OpenFile}
    (stored : fileSystem.openFileTable slot = some openFile)
    (moved : after.openFileTable slot = some fallen)
    (offset : fallen.currentOffset = CInt.wrap (openFile.currentOffset + -1))
    (uncounted : ∀ total, count slot total label = total)
    : ¬ Exact (trace ++ [label]) after := by
  intro still
  have before := exact slot openFile stored
  have now := still slot fallen moved
  rw [transferred_snoc, uncounted, ← before, offset] at now
  have range := sound.offset slot openFile stored
  rw [offsetMaximum] at range
  rw [CInt.wrap] at now
  omega

/-- A read of a negative size moves the offset by the -1 that it returns. -/
theorem of_negative_read {size id : Int} {slot : Fin maxOpenFiles} {openFile : OpenFile}
    (found : fileSystem.lookup id = some (slot, openFile)) (negative : size < 0)
    (returned : readFile fileSystem size id = .ok (reply, after))
    : reply.returned = -1
      ∧ after.openFileTable slot
        = some { openFile with currentOffset := CInt.wrap (openFile.currentOffset + -1) } := by
  rw [readFile, found] at returned
  obtain ⟨_, read, rest⟩ := of_bind_ok returned
  obtain ⟨_, placed, last⟩ := of_bind_ok read
  obtain ⟨sought, _, done⟩ := of_bind_ok placed
  have refused : Host.readPartial sought openFile.file size = (-1, [], sought) :=
    if_pos negative
  rw [refused] at done
  obtain rfl := Except.ok.inj done
  obtain rfl := Except.ok.inj last
  obtain ⟨rfl, rfl⟩ := Prod.mk.inj (Except.ok.inj rest)
  exact ⟨rfl, Function.update_self ..⟩

/-- A write of size -1 moves the offset by the -1 that it returns. -/
theorem of_negative_write {buffer : List Byte} {id : Int} {slot : Fin maxOpenFiles}
    {openFile : OpenFile} (found : fileSystem.lookup id = some (slot, openFile))
    (returned : writeFile fileSystem buffer (-1) id = .ok (reply, after))
    : reply.returned = -1
      ∧ after.openFileTable slot
        = some { openFile with currentOffset := CInt.wrap (openFile.currentOffset + -1) } := by
  rw [writeFile, found] at returned
  obtain ⟨_, wrote, rest⟩ := of_bind_ok returned
  obtain ⟨_, placed, last⟩ := of_bind_ok wrote
  obtain ⟨_, _, placed⟩ := of_bind_ok placed
  obtain ⟨_, _, done⟩ := of_bind_ok placed
  obtain rfl := Except.ok.inj done
  obtain rfl := Except.ok.inj last
  obtain ⟨rfl, rfl⟩ := Prod.mk.inj (Except.ok.inj rest)
  exact ⟨rfl, Function.update_self ..⟩

/-- A call that is not harmless breaks the count of its slot. -/
theorem harmless_of_exact (sound : fileSystem.Sound) (exact : Exact trace fileSystem)
    {label : Call × Reply} (step : Step fileSystem label after)
    (still : Exact (trace ++ [label]) after)
    : Harmless fileSystem label.1 := by
  obtain ⟨call, reply⟩ := label
  cases call with
  | openAFile _ | closeFile _ => trivial
  | readFile size id =>
      by_contra harmful
      obtain ⟨opened, negative⟩ := not_or.mp harmful
      obtain ⟨⟨slot, openFile⟩, found⟩ := Option.ne_none_iff_exists'.mp opened
      obtain ⟨failed, moved⟩ := of_negative_read found (not_le.mp negative) step
      refine not_exact_of_fallen sound exact (FileSystem.lookup_eq_some found).2 moved rfl
        (fun total => ?_) still
      exact if_neg (fun counts => absurd (failed ▸ counts.2) (by decide))
  | writeFile buffer size id =>
      by_contra harmful
      obtain ⟨opened, negative⟩ := not_or.mp harmful
      obtain ⟨⟨slot, openFile⟩, found⟩ := Option.ne_none_iff_exists'.mp opened
      obtain rfl := not_not.mp negative
      obtain ⟨failed, moved⟩ := of_negative_write found step
      refine not_exact_of_fallen sound exact (FileSystem.lookup_eq_some found).2 moved rfl
        (fun total => ?_) still
      exact if_neg (fun counts => absurd (failed ▸ counts.2) (by decide))

-----------------------------------------------------------------------------------------
-- Runs
-----------------------------------------------------------------------------------------

/-- A call that returns and is harmless. -/
def HarmlessStep (fileSystem : FileSystem) (label : Call × Reply) (after : FileSystem) : Prop :=
  Step fileSystem label after ∧ Harmless fileSystem label.1

/-- Every run of harmless steps keeps the offsets exact, by induction on its steps. -/
theorem exact_of_run {host : FileSysStub.Host} {final : FileSystem}
    (run : Runs.Run HarmlessStep (FileSystem.initial host) trace final)
    : final.Sound ∧ Exact trace final := by
  induction run with
  | nil => exact ⟨FileSystem.initial_sound host, fun _ _ stored => nomatch stored⟩
  | snoc _ last ih =>
      obtain ⟨kept, counted, _⟩ := exact_of_harmless ih.1 ih.2 last.2 last.1
      exact ⟨kept, counted⟩

/-- After harmless calls the offsets count the bytes that were transferred, and the next call
that returns keeps this, and does nothing when it fails, exactly when it is harmless, too.
-/
theorem offsets_exact_iff_harmless (host : FileSysStub.Host) (trace : List (Call × Reply))
    (final : FileSystem) (run : Runs.Run HarmlessStep (FileSystem.initial host) trace final)
    : Exact trace final
      ∧ ∀ label after, Step final label after
        → (Exact (trace ++ [label]) after ∧ FailsCleanly final after label
          ↔ Harmless final label.1) := by
  obtain ⟨sound, exact⟩ := exact_of_run run
  refine ⟨exact, fun label after step => ⟨fun kept => ?_, fun harmless => ?_⟩⟩
  · exact harmless_of_exact sound exact step kept.1
  · exact (exact_of_harmless sound exact harmless step).2

section OneFile

/-- One file of three bytes, named `f`. -/
def oneFile : FileSysStub.Host where
  names name := if name = [102] then some 5 else none
  contents _ := [7, 8, 9]
  descriptors := [some { file := 0, position := 0 }, none]
  calls := []

/-- The file is opened, and a read of two bytes moves its offset to 2. -/
theorem offsets_exact_of_one_read
    : ∃ (final : FileSystem) (openFile : OpenFile),
      Exact
        [
          (.openAFile [102], { returned := 0, data := [] }),
          (.readFile 2 0, { returned := 2, data := [7, 8] })
        ]
        final
      ∧ final.openFileTable ⟨0, by decide⟩ = some openFile
      ∧ openFile.currentOffset = 2 := by
  have opened : Runs.Run HarmlessStep (FileSystem.initial oneFile) [_] _ :=
    .snoc (.nil _) (⟨rfl, trivial⟩ : HarmlessStep (FileSystem.initial oneFile)
      (.openAFile [102], { returned := 0, data := [] }) _)
  have read
      : Runs.Run HarmlessStep (FileSystem.initial oneFile)
          [_, (.readFile 2 0, { returned := 2, data := [7, 8] })] _ :=
    opened.snoc ⟨rfl, .inr (by decide)⟩
  have exact := (offsets_exact_iff_harmless oneFile _ _ read).1
  exact ⟨_, _, exact, rfl, (exact ⟨0, by decide⟩ _ rfl).trans (by decide)⟩

/-- A write of size -1 to the file that was just opened returns -1 and moves its offset to -1,
where the next read stops the kernel.
-/
theorem offset_falls_of_negative_write
    : ∃ opened after : FileSystem,
      Step (FileSystem.initial oneFile) (.openAFile [102], { returned := 0, data := [] }) opened
      ∧ Step opened (.writeFile [1] (-1) 0, { returned := -1, data := [] }) after
      ∧ opened.openFileTable ⟨0, by decide⟩ = some { file := 1, currentOffset := 0 }
      ∧ after.openFileTable ⟨0, by decide⟩ = some { file := 1, currentOffset := -1 }
      ∧ ¬ Exact
          [
            (.openAFile [102], { returned := 0, data := [] }),
            (.writeFile [1] (-1) 0, { returned := -1, data := [] })
          ]
          after
      ∧ perform after (.readFile 2 0) = .error .assertion := by
  refine ⟨_, _, rfl, rfl, rfl, rfl, fun exact => ?_, rfl⟩
  exact absurd (exact ⟨0, by decide⟩ { file := 1, currentOffset := -1 } rfl) (by decide)

end OneFile

end Unchecked

end Nachos.FileSysStub
