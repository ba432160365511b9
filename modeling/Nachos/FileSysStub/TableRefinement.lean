import Nachos.FileSysStub.OpenFiles

/-! Every call on the table of open files is one on the map that it stands for. -/

namespace Nachos.FileSysStub
open Bytes Outcome FileSystem

-----------------------------------------------------------------------------------------
-- Reading and writing
-----------------------------------------------------------------------------------------

namespace OpenFile

variable {openFile : OpenFile} {host : Host} {description : Description}

/-- The host after a transfer: one descriptor has moved. -/
structure Moved (host after : Host) (fd : Nat) (file : FileId) : Prop where
  there : ∃ position, after.description fd = some { file, position }
  others : ∀ other, other ≠ fd → after.description other = host.description other
  calls : after.calls = host.calls

theorem lseek_eq {fd : Nat} (opened : host.description fd = some description) {offset : Int}
    (nonneg : 0 ≤ offset)
    : host.lseek fd offset
      = .ok (host.setDescription fd
          (some { description with position := offset.toNat })) := by
  simp [Host.lseek, opened, nonneg]

theorem moved_setDescription {fd before position : Nat} {file : FileId}
    (opened : host.description fd = some { file, position := before })
    : Moved host (host.setDescription fd (some { file, position })) fd file where
  there := ⟨position, Host.description_set opened⟩
  others _ apart := Host.description_set_of_ne apart
  calls := rfl

theorem Moved.trans {middle after : Host} {fd : Nat} {file : FileId}
    (first : Moved host middle fd file) (second : Moved middle after fd file)
    : Moved host after fd file where
  there := second.there
  others other apart := (second.others other apart).trans (first.others other apart)
  calls := second.calls.trans first.calls

theorem delivered_length_le (file : List Byte) (position nBytes : Nat)
    : (delivered file position nBytes).length ≤ offsetMaximum - position := by
  rw [delivered, List.length_take]
  omega

/-- A read delivers the bytes at the offset and moves it by their number. -/
theorem read_eq (opened : host.description openFile.file = some description)
    (offset : 0 ≤ openFile.currentOffset ∧ openFile.currentOffset ≤ offsetMaximum)
    (numBytes : Nat)
    : let data :=
        delivered (host.contents description.file) openFile.currentOffset.toNat numBytes
      ∃ after,
        openFile.read host numBytes
          = .ok (data.length, data,
              { openFile with currentOffset := openFile.currentOffset + data.length }, after)
        ∧ (0 ≤ openFile.currentOffset + data.length
          ∧ openFile.currentOffset + data.length ≤ offsetMaximum)
        ∧ after.contents = host.contents
        ∧ Moved host after openFile.file description.file := by
  intro data
  have length := delivered_length_le (host.contents description.file)
    openFile.currentOffset.toNat numBytes
  have small : openFile.currentOffset + data.length ≤ offsetMaximum := by
    change data.length ≤ _ at length
    omega
  have wrapped : CInt.wrap (openFile.currentOffset + data.length)
      = openFile.currentOffset + data.length :=
    CInt.wrap_of_lt (by omega) (lt_of_le_of_lt small (by decide))
  let position := openFile.currentOffset.toNat
  let sought := host.setDescription openFile.file (some { description with position })
  have reopened : sought.description openFile.file = some { description with position } :=
    Host.description_set opened
  refine ⟨
    sought.setDescription openFile.file
      (some { description with position := position + data.length }),
    ?_, ⟨by omega, small⟩, rfl,
    (moved_setDescription opened).trans (moved_setDescription reopened)
  ⟩
  have partially : sought.readPartial openFile.file numBytes
      = ((data.length : Int), data,
          sought.setDescription openFile.file
            (some { description with position := position + data.length })) := by
    rw [Host.readPartial, reopened]
    rfl
  have reading : openFile.readAt host numBytes openFile.currentOffset
      = .ok (sought.readPartial openFile.file numBytes) :=
    bind_ok (lseek_eq opened offset.1) _
  rw [partially] at reading
  rw [read, bind_ok reading]
  change Except.ok (_, _, { openFile with currentOffset := CInt.wrap _ }, _) = _
  rw [wrapped]

/-- A write of the host at its offset, by cases on whether the offset goes past the largest one. -/
theorem writeFile_eq {fd : Nat} (opened : host.description fd = some description)
    (data : List Byte)
    : host.writeFile fd data
      = if description.position + data.length ≤ offsetMaximum then
          .ok {
            host.setDescription fd
              (some { description with position := description.position + data.length }) with
            contents := Function.update host.contents description.file
              (spliced (host.contents description.file) description.position data)
          }
        else .error .assertion := by
  rw [Host.writeFile, opened]

/-- A write that the host takes as a whole puts its bytes at the offset and moves it by their
number.
-/
theorem write_eq (opened : host.description openFile.file = some description)
    (nonneg : 0 ≤ openFile.currentOffset) {data : List Byte}
    (fits : openFile.currentOffset.toNat + data.length ≤ offsetMaximum)
    : ∃ after,
        openFile.write host data
          = .ok (data.length,
              { openFile with currentOffset := openFile.currentOffset + data.length }, after)
        ∧ (0 ≤ openFile.currentOffset + data.length
          ∧ openFile.currentOffset + data.length ≤ offsetMaximum)
        ∧ after.contents
          = Function.update host.contents description.file
              (spliced (host.contents description.file) openFile.currentOffset.toNat data)
        ∧ Moved host after openFile.file description.file := by
  have small : openFile.currentOffset + data.length ≤ offsetMaximum := by omega
  have wrapped : CInt.wrap (openFile.currentOffset + data.length)
      = openFile.currentOffset + data.length :=
    CInt.wrap_of_lt (by omega) (lt_of_le_of_lt small (by decide))
  let position := openFile.currentOffset.toNat
  let sought := host.setDescription openFile.file (some { description with position })
  have reopened : sought.description openFile.file = some { description with position } :=
    Host.description_set opened
  have moved : Moved host
      (sought.setDescription openFile.file
        (some { description with position := position + data.length }))
      openFile.file description.file :=
    (moved_setDescription opened).trans (moved_setDescription reopened)
  have taken := writeFile_eq reopened data
  rw [if_pos fits] at taken
  have writing := bind_ok (lseek_eq opened nonneg)
    (fun sought => (sought.writeFile openFile.file data).bind
      (fun after => .ok ((data.length : Int), after)))
  have writing : openFile.writeAt host data openFile.currentOffset = .ok (_, _) :=
    writing.trans (bind_ok taken _)
  refine ⟨
    {
      sought.setDescription openFile.file
        (some { description with position := position + data.length }) with
      contents := Function.update host.contents description.file
        (spliced (host.contents description.file) position data)
    },
    ?_, ⟨by omega, small⟩, rfl,
    { there := moved.there, others := moved.others, calls := moved.calls }
  ⟩
  rw [write, bind_ok writing]
  change Except.ok (_, { openFile with currentOffset := CInt.wrap _ }, _) = _
  rw [wrapped]
  rfl

/-- A write past the largest offset fails. -/
theorem write_too_long (opened : host.description openFile.file = some description)
    (nonneg : 0 ≤ openFile.currentOffset) {data : List Byte}
    (long : ¬openFile.currentOffset.toNat + data.length ≤ offsetMaximum)
    : openFile.write host data = .error .assertion := by
  let position := openFile.currentOffset.toNat
  have reopened
      : (host.setDescription openFile.file (some { description with position })).description
          openFile.file
        = some { description with position } :=
    Host.description_set opened
  have refused := writeFile_eq reopened data
  rw [if_neg long] at refused
  rw [write, writeAt, bind_ok (lseek_eq opened nonneg), refused]
  rfl

end OpenFile

-----------------------------------------------------------------------------------------
-- Calls
-----------------------------------------------------------------------------------------

namespace FileSystem

variable {fileSystem after : FileSystem} {event : Event}

/-- The slot that `OpenAFile` takes is free, and all slots before it are in use. -/
theorem of_freeSlot {id : Fin maxOpenFiles} (found : fileSystem.freeSlot = some id)
    : fileSystem.openFileTable id = none
      ∧ ∀ other < id, fileSystem.openFileTable other ≠ none := by
  obtain ⟨free, before, rest, split, used⟩ := List.find?_eq_some_iff_append.mp found
  refine ⟨Option.isNone_iff_eq_none.mp free, fun other lower none => ?_⟩
  have member : other ∈ before ++ id :: rest := split ▸ List.mem_finRange other
  have sorted : (before ++ id :: rest).Pairwise (· < ·) :=
    split ▸ List.pairwise_lt_finRange maxOpenFiles
  rcases List.mem_append.mp member with early | late
  · have := used other early
    rw [none] at this
    exact nomatch this
  · rcases List.mem_cons.mp late with same | later
    · exact absurd (same ▸ lower) (lt_irrefl _)
    · have higher :=
        (List.pairwise_cons.mp (List.pairwise_append.mp sorted).2.1).1 other later
      exact absurd (lower.trans higher) (lt_irrefl _)

theorem of_freeSlot_none (none : fileSystem.freeSlot = none) (id : Fin maxOpenFiles)
    : fileSystem.openFileTable id ≠ Option.none := by
  intro free
  have used := List.find?_eq_none.mp none id (List.mem_finRange id)
  rw [free] at used
  exact used rfl

theorem calls_eq_nil {calls other : List HostCall} (same : calls = calls ++ other)
    : other = [] :=
  List.self_eq_append_right.mp same

/-- Open is a step of the abstract table. Witness: the first free slot, when the host opens the
file.
-/
theorem Sound.openAFile (sound : fileSystem.Sound) {name : List Byte} {reply : Reply}
    {calls : List HostCall}
    (performed : fileSystem.openAFile name = (reply, after))
    (logged : after.host.calls = fileSystem.host.calls ++ calls)
    : after.Sound
      ∧ OpenFiles.Step fileSystem.openFiles
          {
            operation := .openAFile name
            answer := fileSystem.host.answer name
            reply
            calls
          }
          after.openFiles := by
  unfold FileSystem.openAFile at performed
  split at performed
  · rename_i none
    obtain ⟨rfl, rfl⟩ := Prod.mk.inj performed
    obtain rfl := calls_eq_nil logged
    refine ⟨sound, .full (fun id free => ?_)⟩
    exact of_freeSlot_none none id ((sound.entries_eq_none_iff id).mp free)
  · rename_i id found
    obtain ⟨free, least⟩ := of_freeSlot found
    rw [Host.openForReadWrite] at performed
    cases given : fileSystem.host.answer name with
    | none =>
        rw [given] at performed
        obtain ⟨rfl, rfl⟩ := Prod.mk.inj performed
        obtain rfl := calls_eq_nil logged
        exact ⟨sound, .refused⟩
    | some pair =>
        obtain ⟨fd, file⟩ := pair
        rw [given] at performed
        obtain ⟨rfl, rfl⟩ := Prod.mk.inj performed
        obtain rfl : calls = [.opened fd] := (List.append_cancel_left logged).symm
        obtain ⟨unused, opened⟩ := @Host.of_answer _ _ (some { file, position := 0 }) _ _ given
        have apart (other : Fin maxOpenFiles) (stored : OpenFile)
            (there : fileSystem.openFileTable other = some stored)
            : stored.file ≠ fd := by
          intro same
          obtain ⟨description, before⟩ := sound.opened other stored there
          rw [same, unused] at before
          exact nomatch before
        have spares
            : fileSystem.Spares id
                {
                  fileSystem.host.setDescription fd (some { file, position := 0 }) with
                  calls := fileSystem.host.calls ++ [.opened fd]
                } :=
          fun other stored _ there => Host.description_set_of_ne (apart other stored there)
        refine ⟨sound.setSlot spares ?_, ?_⟩
        · rintro _ ⟨⟩
          exact ⟨⟨_, opened⟩, ⟨le_refl _, Int.natCast_nonneg _⟩,
            fun other stored _ there => apart other stored there⟩
        · rw [openFiles_setSlot spares]
          have entry
              : entryOf
                  {
                    fileSystem.host.setDescription fd (some { file, position := 0 }) with
                    calls := fileSystem.host.calls ++ [.opened fd]
                  }
                  { file := fd, currentOffset := 0 }
                = some { file, offset := 0, descriptor := fd } := by
            rw [entryOf]
            change (Host.description (fileSystem.host.setDescription fd _) fd).map _ = _
            rw [opened]
            rfl
          rw [Option.bind_some, entry]
          refine .opened ((sound.entries_eq_none_iff id).mpr free) ?_ ?_
          · intro other lower none
            exact least other lower ((sound.entries_eq_none_iff other).mp none)
          · intro other held there same
            obtain ⟨stored, found, made⟩ := Option.bind_eq_some_iff.mp there
            obtain ⟨_, _, rfl⟩ := Option.map_eq_some_iff.mp made
            exact apart other stored found same

/-- An open file of the table is the entry of its id. -/
theorem Sound.holds (sound : fileSystem.Sound) {id : Int} {slot : Fin maxOpenFiles}
    {openFile : OpenFile} (found : fileSystem.lookup id = some (slot, openFile))
    : ∃ description,
        fileSystem.host.description openFile.file = some description
        ∧ fileSystem.openFiles.Holds id slot
            {
              file := description.file
              offset := openFile.currentOffset.toNat
              descriptor := openFile.file
            } := by
  obtain ⟨same, stored⟩ := lookup_eq_some found
  obtain ⟨description, opened⟩ := sound.opened slot openFile stored
  refine ⟨description, opened, same, ?_⟩
  simp [openFiles, stored, entryOf, opened]

/-- The map after a transfer that moved one entry. -/
theorem Sound.transferred (sound : fileSystem.Sound) {slot : Fin maxOpenFiles}
    {openFile moved : OpenFile} {file : FileId} {host : Host}
    (stored : fileSystem.openFileTable slot = some openFile)
    (same : moved.file = openFile.file)
    (inside : 0 ≤ moved.currentOffset ∧ moved.currentOffset ≤ offsetMaximum)
    (move : OpenFile.Moved fileSystem.host host openFile.file file)
    : (fileSystem.setSlot slot (some moved) host).Sound
      ∧ (fileSystem.setSlot slot (some moved) host).openFiles
        = {
            fileSystem.openFiles.put slot
              (some
                {
                  file
                  offset := moved.currentOffset.toNat
                  descriptor := openFile.file
                }) with
            contents := host.contents
          } := by
  have spares := sound.spares stored move.others
  obtain ⟨position, there⟩ := move.there
  refine ⟨sound.setSlot spares ?_, ?_⟩
  · rintro _ ⟨⟩
    refine ⟨⟨_, same ▸ there⟩, inside, ?_⟩
    intro id other apart found equal
    exact apart (sound.distinct id slot other openFile found stored (equal.trans same))
  · have entry
        : entryOf host moved
          = some
              {
                file
                offset := moved.currentOffset.toNat
                descriptor := openFile.file
              } := by
      rw [entryOf, same, there]
      rfl
    rw [openFiles_setSlot spares, Option.bind_some, entry]
    rfl

theorem toNat_add_natCast {offset : Int} (nonneg : 0 ≤ offset) (count : Nat)
    : (offset + count).toNat = offset.toNat + count := by
  omega

/-- Read is a step of the abstract table, by cases on the lookup of the id. -/
theorem Sound.readFile (sound : fileSystem.Sound) {size : Nat} {id : Int} {reply : Reply}
    {calls : List HostCall}
    (performed : fileSystem.readFile size id = .ok (reply, after))
    (logged : after.host.calls = fileSystem.host.calls ++ calls)
    : after.Sound
      ∧ OpenFiles.Step fileSystem.openFiles
          { operation := .readFile size id, answer := none, reply, calls }
          after.openFiles := by
  unfold FileSystem.readFile at performed
  cases found : fileSystem.lookup id with
  | none =>
      rw [found] at performed
      obtain ⟨rfl, rfl⟩ := Prod.mk.inj (Except.ok.inj performed)
      obtain rfl := calls_eq_nil logged
      exact ⟨sound, .invalid rfl (sound.lacks found)⟩
  | some pair =>
      obtain ⟨slot, openFile⟩ := pair
      have stored := (lookup_eq_some found).2
      have offset := sound.offset slot openFile stored
      obtain ⟨description, opened, holds⟩ := sound.holds found
      obtain ⟨host, run, inside, contents, move⟩ := OpenFile.read_eq opened offset size
      rw [found] at performed
      dsimp only at performed
      rw [bind_ok run] at performed
      dsimp only at performed
      rw [if_neg (by omega)] at performed
      obtain ⟨rfl, rfl⟩ := Prod.mk.inj (Except.ok.inj performed)
      obtain rfl := calls_eq_nil (move.calls.symm.trans logged)
      obtain ⟨kept, same⟩ :=
        @Sound.transferred _ sound slot openFile
          { openFile with currentOffset := openFile.currentOffset + _ } _ _ stored rfl inside
          move
      refine ⟨kept, ?_⟩
      rw [same, contents]
      dsimp only
      rw [toNat_add_natCast offset.1]
      exact .read holds rfl

/-- Write is a step of the abstract table, by cases on the lookup of the id. -/
theorem Sound.writeFile (sound : fileSystem.Sound) {data : List Byte} {id : Int}
    {reply : Reply} {calls : List HostCall}
    (performed : fileSystem.writeFile data id = .ok (reply, after))
    (logged : after.host.calls = fileSystem.host.calls ++ calls)
    : after.Sound
      ∧ OpenFiles.Step fileSystem.openFiles
          { operation := .writeFile data id, answer := none, reply, calls }
          after.openFiles := by
  unfold FileSystem.writeFile at performed
  cases found : fileSystem.lookup id with
  | none =>
      rw [found] at performed
      obtain ⟨rfl, rfl⟩ := Prod.mk.inj (Except.ok.inj performed)
      obtain rfl := calls_eq_nil logged
      exact ⟨sound, .invalid rfl (sound.lacks found)⟩
  | some pair =>
      obtain ⟨slot, openFile⟩ := pair
      have stored := (lookup_eq_some found).2
      have offset := sound.offset slot openFile stored
      obtain ⟨description, opened, holds⟩ := sound.holds found
      rw [found] at performed
      dsimp only at performed
      by_cases fits : openFile.currentOffset.toNat + data.length ≤ offsetMaximum
      · obtain ⟨host, run, inside, contents, move⟩ := OpenFile.write_eq opened offset.1 fits
        rw [bind_ok run] at performed
        dsimp only at performed
        rw [if_neg (by omega)] at performed
        obtain ⟨rfl, rfl⟩ := Prod.mk.inj (Except.ok.inj performed)
        obtain rfl := calls_eq_nil (move.calls.symm.trans logged)
        obtain ⟨kept, same⟩ :=
          @Sound.transferred _ sound slot openFile
            { openFile with currentOffset := openFile.currentOffset + _ } _ _ stored rfl
            inside move
        refine ⟨kept, ?_⟩
        rw [same, contents]
        dsimp only
        rw [toNat_add_natCast offset.1]
        exact .written holds
      · rw [OpenFile.write_too_long opened offset.1 fits] at performed
        exact nomatch performed

/-- Close is a step of the abstract table, by cases on the lookup of the id. -/
theorem Sound.closeFile (sound : fileSystem.Sound) {id : Int} {reply : Reply}
    {calls : List HostCall}
    (performed : fileSystem.closeFile id = .ok (reply, after))
    (logged : after.host.calls = fileSystem.host.calls ++ calls)
    : after.Sound
      ∧ OpenFiles.Step fileSystem.openFiles
          { operation := .closeFile id, answer := none, reply, calls }
          after.openFiles := by
  unfold FileSystem.closeFile at performed
  cases found : fileSystem.lookup id with
  | none =>
      rw [found] at performed
      obtain ⟨rfl, rfl⟩ := Prod.mk.inj (Except.ok.inj performed)
      obtain rfl := calls_eq_nil logged
      exact ⟨sound, .invalid rfl (sound.lacks found)⟩
  | some pair =>
      obtain ⟨slot, openFile⟩ := pair
      have stored := (lookup_eq_some found).2
      obtain ⟨description, opened, holds⟩ := sound.holds found
      have closed
          : fileSystem.host.close openFile.file
            = .ok {
                fileSystem.host.setDescription openFile.file none with
                calls := fileSystem.host.calls ++ [.closed openFile.file]
              } := by
        rw [Host.close, opened]
      rw [found] at performed
      dsimp only at performed
      rw [bind_ok closed] at performed
      obtain ⟨rfl, rfl⟩ := Prod.mk.inj (Except.ok.inj performed)
      obtain rfl : calls = [.closed openFile.file] := (List.append_cancel_left logged).symm
      have spares
          : fileSystem.Spares slot
              {
                fileSystem.host.setDescription openFile.file none with
                calls := fileSystem.host.calls ++ [.closed openFile.file]
              } :=
        sound.spares stored (fun _ apart => Host.description_set_of_ne apart)
      refine ⟨sound.setSlot spares (fun _ absurd => nomatch absurd), ?_⟩
      rw [openFiles_setSlot spares]
      exact .closed holds

/-- Other programs at the host may change names and contents, but not the open files of this one. -/
theorem Sound.elsewhere (sound : fileSystem.Sound) {names : List Byte → Option FileId}
    {contents : FileId → List Byte} {descriptors : List (Option Description)}
    (legal : fileSystem.Legal (.elsewhere names contents descriptors))
    : let after :=
        {
          fileSystem with
          host := { fileSystem.host with names, contents, descriptors }
        }
      Sound after ∧ after.openFiles = { fileSystem.openFiles with contents } := by
  have kept (id : Fin maxOpenFiles) (openFile : OpenFile)
      (stored : fileSystem.openFileTable id = some openFile)
      : Host.description { fileSystem.host with names, contents, descriptors } openFile.file
        = fileSystem.host.description openFile.file :=
    congrArg Option.join (legal id openFile stored)
  refine ⟨{ opened := ?_, offset := sound.offset, distinct := sound.distinct }, ?_⟩
  · intro id openFile stored
    obtain ⟨description, before⟩ := sound.opened id openFile stored
    exact ⟨description, (kept id openFile stored).trans before⟩
  · rw [openFiles]
    congr
    funext id
    change (fileSystem.openFileTable id).bind _ = (fileSystem.openFileTable id).bind _
    cases stored : fileSystem.openFileTable id with
    | none => rfl
    | some openFile =>
        change Option.map _ (Host.description _ _) = _
        rw [kept id openFile stored]
        rfl

/-- Every step of the table is one of the map, by cases on the operation. -/
theorem Sound.step (sound : fileSystem.Sound) (step : Step fileSystem event after)
    : after.Sound ∧ OpenFiles.Step fileSystem.openFiles event after.openFiles := by
  obtain ⟨operation, answer, reply, calls⟩ := event
  obtain ⟨legal, answered, performed, logged⟩ := step
  dsimp only at legal answered performed logged
  subst answered
  cases operation with
  | openAFile name => exact sound.openAFile (Except.ok.inj performed) logged
  | readFile size id => exact sound.readFile performed logged
  | writeFile data id => exact sound.writeFile performed logged
  | closeFile id => exact sound.closeFile performed logged
  | elsewhere names contents descriptors =>
      obtain ⟨rfl, rfl⟩ := Prod.mk.inj (Except.ok.inj performed)
      obtain rfl := calls_eq_nil logged
      obtain ⟨kept, same⟩ := sound.elsewhere legal
      exact ⟨kept, same ▸ .elsewhere⟩

-----------------------------------------------------------------------------------------
-- Runs
-----------------------------------------------------------------------------------------

/-- Which writes the host takes as a whole: those that end within the largest offset. -/
def Transfers (fileSystem : FileSystem) : Operation → Prop
  | .writeFile data id =>
      ∀ slot entry, fileSystem.openFiles.Holds id slot entry
        → entry.offset + data.length ≤ offsetMaximum
  | _ => True

/-- No call stops on an assertion, by cases on the operation. -/
theorem Sound.returns (sound : fileSystem.Sound) {operation : Operation}
    (transfers : fileSystem.Transfers operation)
    : ∃ reply after, fileSystem.perform operation = .ok (reply, after) := by
  cases operation with
  | openAFile name => exact ⟨_, _, rfl⟩
  | elsewhere names contents descriptors => exact ⟨_, _, rfl⟩
  | readFile size id =>
      rw [perform, FileSystem.readFile]
      cases found : fileSystem.lookup id with
      | none => exact ⟨_, _, rfl⟩
      | some pair =>
          obtain ⟨slot, openFile⟩ := pair
          have offset := sound.offset slot openFile (lookup_eq_some found).2
          obtain ⟨_, opened, _⟩ := sound.holds found
          obtain ⟨_, run, _⟩ := OpenFile.read_eq opened offset size
          dsimp only
          rw [bind_ok run]
          dsimp only
          rw [if_neg (by omega)]
          exact ⟨_, _, rfl⟩
  | writeFile data id =>
      rw [perform, FileSystem.writeFile]
      cases found : fileSystem.lookup id with
      | none => exact ⟨_, _, rfl⟩
      | some pair =>
          obtain ⟨slot, openFile⟩ := pair
          have offset := sound.offset slot openFile (lookup_eq_some found).2
          obtain ⟨_, opened, holds⟩ := sound.holds found
          obtain ⟨_, run, _⟩ :=
            OpenFile.write_eq opened offset.1 (transfers slot _ holds)
          dsimp only
          rw [bind_ok run]
          dsimp only
          rw [if_neg (by omega)]
          exact ⟨_, _, rfl⟩
  | closeFile id =>
      rw [perform, FileSystem.closeFile]
      cases found : fileSystem.lookup id with
      | none => exact ⟨_, _, rfl⟩
      | some pair =>
          obtain ⟨slot, openFile⟩ := pair
          obtain ⟨_, opened, _⟩ := sound.holds found
          dsimp only
          rw [Host.close, opened]
          exact ⟨_, _, rfl⟩

/-- The constructor, on any host. -/
def initial (host : Host) : FileSystem where
  openFileTable _ := none
  host := host

theorem initial_sound (host : Host) : (initial host).Sound where
  opened _ _ stored := nomatch stored
  offset _ _ stored := nomatch stored
  distinct _ _ _ _ stored := nomatch stored

/-- Every run of the table is a run of the map with the same replies and the same descriptors
opened and closed, in which each descriptor belongs to one entry. All further calls return.
-/
theorem table_refines_map (host : Host) (trace : List Event) (final : FileSystem)
    (run : Runs.Run Step (initial host) trace final)
    : Runs.Run OpenFiles.Step { entries := fun _ => none, contents := host.contents } trace
        final.openFiles
      ∧ final.Sound
      ∧ ∀ operation, final.Transfers operation
        → ∃ reply after, final.perform operation = .ok (reply, after) := by
  obtain ⟨_, mapped, rfl, sound⟩ :=
    @Runs.Run.simulate _ _ _ _ _ _ _ OpenFiles.Step
      (fun table files => table.openFiles = files ∧ table.Sound) run (initial host).openFiles
      ⟨rfl, initial_sound host⟩ (by
        rintro table event after _ ⟨rfl, sound⟩ step
        obtain ⟨kept, next⟩ := sound.step step
        exact ⟨_, next, rfl, kept⟩)
  exact ⟨mapped, sound, fun _ transfers => sound.returns transfers⟩

/-- A file is opened, read, closed, and read again. -/
theorem table_refines_map_of_one_file
    : let name : List Byte := [102]
      let trace : List Event :=
        [
          {
            operation := .openAFile name
            answer := some (1, 5)
            reply := { returned := 0, data := [] }
            calls := [.opened 1]
          },
          {
            operation := .readFile 2 0
            answer := none
            reply := { returned := 2, data := [7, 8] }
            calls := []
          },
          {
            operation := .closeFile 0
            answer := none
            reply := { returned := 1, data := [] }
            calls := [.closed 1]
          },
          { operation := .readFile 2 0, answer := none, reply := OpenFiles.failed, calls := [] }
        ]
      ∃ final : FileSystem,
        Runs.Run OpenFiles.Step { entries := fun _ => none, contents := fun _ => [7, 8, 9] }
          trace final.openFiles
        ∧ final.Sound := by
  let host : Host :=
    {
      names := fun name => if name = [102] then some 5 else none
      contents := fun _ => [7, 8, 9]
      descriptors := [some { file := 0, position := 0 }, none]
      calls := []
    }
  have opened : Runs.Run Step (initial host) [_] _ :=
    .snoc (.nil _) (⟨trivial, rfl, rfl, rfl⟩ : Step (initial host)
      {
        operation := .openAFile [102]
        answer := some (1, 5)
        reply := { returned := 0, data := [] }
        calls := [.opened 1]
      } _)
  have read : Runs.Run Step (initial host) [_, _] _ :=
    opened.snoc (⟨trivial, rfl, rfl, rfl⟩ : Step _
      {
        operation := .readFile 2 0
        answer := none
        reply := { returned := 2, data := [7, 8] }
        calls := []
      } _)
  have closed : Runs.Run Step (initial host) [_, _, _] _ :=
    read.snoc (⟨trivial, rfl, rfl, rfl⟩ : Step _
      {
        operation := .closeFile 0
        answer := none
        reply := { returned := 1, data := [] }
        calls := [.closed 1]
      } _)
  have again : Runs.Run Step (initial host) [_, _, _, _] _ :=
    closed.snoc (⟨trivial, rfl, rfl, rfl⟩ : Step _
      { operation := .readFile 2 0, answer := none, reply := OpenFiles.failed, calls := [] } _)
  obtain ⟨mapped, sound, _⟩ := table_refines_map host _ _ again
  exact ⟨_, mapped, sound⟩

end FileSystem

end Nachos.FileSysStub
