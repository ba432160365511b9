import Nachos.FileSys.Refinement

/-! Files outlive the kernel: between operations of programs the machine may be restarted without
formatting, which loses the open files and nothing else, and the names can be listed.
-/

namespace Nachos.FileSys

open Bytes Routines

-----------------------------------------------------------------------------------------
-- Listing
-----------------------------------------------------------------------------------------

/-- What `printf` shows of a name: up to a NUL, and past the field into its padding if need be. -/
def DirectoryEntry.printedName (entry : DirectoryEntry) : List Byte :=
  cString entry.nameBytes 0 (fileNameMaxLen + 2)

/-- The character behind the nine that count is NUL. -/
def DirectoryEntry.Terminated (entry : DirectoryEntry) : Prop :=
  entry.nameBytes fileNameMaxLen = 0

/-- The names that `List` prints. -/
def Directory.list {tableSize : Nat} (directory : Directory tableSize) : List (List Byte) :=
  (List.finRange tableSize).filterMap (fun slot =>
    if (directory.entry slot).inUse then some (directory.entry slot).printedName else none)

/-- `List`. -/
def FileSystem.list (files : FileSystem) : DiskRoutine (List (List Byte)) := do
  let directory ← files.fetchDirectory
  return directory.list

/-- A name with its NUL is printed as it was given, since the bytes end in the field. -/
theorem DirectoryEntry.Terminated.printedName_eq {entry : DirectoryEntry}
    (terminated : entry.Terminated)
    : entry.printedName = entry.key := by
  have padding : entry.nameBytes (0 + (fileNameMaxLen + 1)) = 0 := by
    rw [nameBytes, Vector.getElem?_eq_none (Nat.le_of_eq (Nat.zero_add _).symm)]
    rfl
  have field : entry.nameBytes (0 + fileNameMaxLen) = 0 := by
    rw [Nat.zero_add]
    exact terminated
  rw [printedName, cString_of_terminated padding, cString_of_terminated field, key, nameKey]

/-- A new name leaves the character behind the ninth alone. -/
theorem DirectoryEntry.Terminated.taken {entry : DirectoryEntry} (terminated : entry.Terminated)
    (name : Buffer) (newSector : Int)
    : (entry.taken name newSector).Terminated := by
  have inside : fileNameMaxLen < fileNameMaxLen + 1 := Nat.lt_succ_self _
  rw [Terminated, nameBytes, DirectoryEntry.taken, Vector.getElem?_eq_getElem inside,
    Vector.getElem_ofFn, Option.getD_some, strncpy, if_neg (Nat.lt_irrefl _)]
  exact terminated

theorem DirectoryEntry.terminated_empty : DirectoryEntry.empty.Terminated := rfl

/-- Every name in the table ends in its field. -/
def Directory.Terminated {tableSize : Nat} (directory : Directory tableSize) : Prop :=
  ∀ slot, (directory.entry slot).Terminated

/-- A new entry that is terminated keeps the table so, by cases on the slot. -/
theorem Directory.Terminated.put {tableSize : Nat} {directory : Directory tableSize}
    (terminated : directory.Terminated) {slot : Fin tableSize} {entry : DirectoryEntry}
    (new : entry.Terminated)
    : (directory.put slot entry).Terminated := by
  intro other
  by_cases same : other = slot
  · rw [same, entry_put_self]
    exact new
  · rw [entry_put_of_ne _ same]
    exact terminated other

/-- The printed names are the keys of the slots in use. -/
theorem Directory.Terminated.mem_list {tableSize : Nat} {directory : Directory tableSize}
    (terminated : directory.Terminated) {key : List Byte}
    : key ∈ directory.list
      ↔ ∃ slot, (directory.entry slot).inUse = true ∧ (directory.entry slot).key = key := by
  rw [Directory.list, List.mem_filterMap]
  constructor
  · rintro ⟨slot, -, printed⟩
    by_cases used : (directory.entry slot).inUse = true
    · rw [if_pos used, (terminated slot).printedName_eq] at printed
      exact ⟨slot, used, Option.some.inj printed⟩
    · rw [if_neg used] at printed
      exact absurd printed.symm (Option.some_ne_none key)
  · rintro ⟨slot, used, rfl⟩
    exact ⟨slot, List.mem_finRange slot, by rw [if_pos used, (terminated slot).printedName_eq]⟩

/-- No name is listed twice when the keys in use differ, since the names printed are the keys. -/
theorem Directory.Terminated.nodup_list {tableSize : Nat} {directory : Directory tableSize}
    (terminated : directory.Terminated)
    (keys
      : ∀ slot other, (directory.entry slot).inUse = true
        → (directory.entry other).inUse = true
        → (directory.entry slot).key = (directory.entry other).key
        → slot = other)
    : directory.list.Nodup := by
  refine List.Nodup.filterMap (fun slot other key first second => ?_) (List.nodup_finRange _)
  obtain ⟨used, same⟩ := Option.ite_none_right_eq_some.mp (Option.mem_def.mp first)
  obtain ⟨otherUsed, otherSame⟩ := Option.ite_none_right_eq_some.mp (Option.mem_def.mp second)
  rw [(terminated slot).printedName_eq, Option.some.injEq] at same
  rw [(terminated other).printedName_eq, Option.some.injEq] at otherSame
  exact keys slot other used otherUsed (same.trans otherSame.symm)

-----------------------------------------------------------------------------------------
-- Restarting
-----------------------------------------------------------------------------------------

/-- What happens to a file system over time. -/
inductive Event where
  | operation (operation : Operation) (answer : Answer)
  /-- The machine is restarted without formatting. -/
  | reboot
  | list (names : List (List Byte))

namespace World

/-- A new kernel on the same disk: no file is open. -/
def reboot : WorldRoutine Unit := do
  let files ← onDisk FileSystem.openDisk
  let world ← Routine.get
  Routine.set { world with files, handles := [] }

inductive Happens (allowed : World → Operation → Prop) : World → Event → World → Prop
  | operation {world after : World} {operation : Operation} {answer : Answer}
      (step : Step allowed world (operation, answer) after)
      : Happens allowed world (.operation operation answer) after
  | reboot {world after : World} (ran : reboot.run world = (.ok (), after))
      : Happens allowed world .reboot after
  | list {world after : World} {names : List (List Byte)}
      (ran : (onDisk world.files.list).run world = (.ok names, after))
      : Happens allowed world (.list names) after

end World

namespace NamedFiles

/-- What happens to named byte arrays: a restart closes the open files, and a list has every name
once.
-/
inductive Happens : NamedFiles → Event → NamedFiles → Prop
  | operation {files next : NamedFiles} {operation : Operation} {answer : Answer}
      (step : Step files (operation, answer) next)
      : Happens files (.operation operation answer) next
  | reboot {files : NamedFiles} : Happens files .reboot { files with handles := [] }
  | list {files : NamedFiles} {names : List (List Byte)} (once : names.Nodup)
      (all : ∀ key, key ∈ names ↔ files.contents key ≠ none)
      : Happens files (.list names) files

end NamedFiles

namespace World

variable {world after : World} {layout : Layout} {files : NamedFiles}

/-- The disk of a world determines its directory. -/
theorem Consistent.directory_eq {other : Layout} (consistent : world.Consistent layout)
    (also : world.Consistent other)
    : layout.directory = other.directory := by
  have first := consistent.onDisk.run_fetchDirectory consistent.sound
  have second := also.onDisk.run_fetchDirectory also.sound
  rw [← consistent.files] at first
  rw [← also.files] at second
  exact Except.ok.inj (Prod.mk.inj (first.symm.trans second)).1

/-- The world stands for the files, and its names end in their fields. -/
def Keeps (world : World) (files : NamedFiles) : Prop :=
  ∃ layout, world.Consistent layout ∧ world.Represents layout files
    ∧ layout.directory.Terminated

/-- An operation keeps every name terminated, by cases on its effect. -/
theorem Effect.terminated {operation : Operation} {next : Layout}
    (effect : Effect layout world operation next after)
    (terminated : layout.directory.Terminated)
    : next.directory.Terminated := by
  cases effect with
  | created created => exact terminated.put ((terminated _).taken _ _)
  | removed removed => exact terminated.put (terminated _)
  | opened found => exact terminated
  | touched touches => exact terminated

/-- A regular operation has the same answer on the files that the world stands for. -/
theorem Keeps.operation (keeps : world.Keeps files) {operation : Operation} {answer : Answer}
    (step : Step Regular world (operation, answer) after)
    : ∃ next, NamedFiles.Step files (operation, answer) next ∧ after.Keeps next := by
  obtain ⟨layout, consistent, represents, terminated⟩ := keeps
  obtain ⟨regular, performed⟩ := step
  obtain ⟨answer', final, next, ran, followed, there, consistent', represents'⟩ :=
    represents.follow consistent regular
  obtain ⟨same, rfl⟩ := Prod.mk.inj (performed.symm.trans ran)
  obtain rfl : answer = answer' := Except.ok.inj same
  obtain ⟨other, effect⟩ := consistent.effect regular.cautious
  rw [performed] at effect
  have kept := effect.consistent consistent regular.cautious
  refine ⟨next, followed, there, consistent', represents', ?_⟩
  rw [consistent'.directory_eq kept]
  exact effect.terminated terminated

/-- A restart finds the same files. -/
theorem Keeps.run_reboot (keeps : world.Keeps files)
    : reboot.run world = (.ok (), { world with handles := [] })
      ∧ Keeps { world with handles := [] } { files with handles := [] } := by
  obtain ⟨layout, consistent, represents, terminated⟩ := keeps
  have opened : (onDisk FileSystem.openDisk).run world = (.ok world.files, world) := by
    have ran := @run_onDisk_ok world _ _ _ _ (consistent.onDisk.run_openDisk consistent.sound)
    rw [← consistent.files] at ran
    exact ran
  constructor
  · rw [reboot, Routine.run_bind_ok opened, Routine.run_bind_ok (Routine.run_get _),
      Routine.run_set]
  · exact ⟨layout,
      ⟨consistent.sound, consistent.onDisk, consistent.files,
        fun _ member => absurd member List.not_mem_nil⟩,
      ⟨represents.present, represents.absent, represents.slots, represents.sectors, rfl,
        fun _ member => absurd member List.not_mem_nil⟩,
      terminated⟩

/-- `List` prints every name once. -/
theorem Keeps.run_list (keeps : world.Keeps files)
    : ∃ names, (onDisk world.files.list).run world = (.ok names, world) ∧ names.Nodup
      ∧ ∀ key, key ∈ names ↔ files.contents key ≠ none := by
  obtain ⟨layout, consistent, represents, terminated⟩ := keeps
  have listed : world.files.list.run world.disk = (.ok layout.directory.list, world.disk) := by
    rw [consistent.files, FileSystem.list,
      Routine.run_bind_ok (consistent.onDisk.run_fetchDirectory consistent.sound),
      Routine.run_pure]
  refine ⟨layout.directory.list, run_onDisk_ok listed,
    terminated.nodup_list consistent.sound.keys, fun key => ?_⟩
  rw [terminated.mem_list]
  constructor
  · rintro ⟨slot, used, rfl⟩
    rw [represents.present slot used]
    exact Option.some_ne_none _
  · intro there
    by_contra missing
    exact there (represents.absent key (fun slot used same => missing ⟨slot, used, same⟩))

/-- Whatever happens after formatting, operations of programs, restarts and lists in any order,
happens to named byte arrays with the same answers: every file that was created and not removed
has, after any number of restarts, the bytes last written to it. A restart and a list never fault.
-/
theorem files_outlive_kernel (mapAddress dirAddress : FileSystem.Addresses) (disk : Disk)
    : ∃ start,
        formatted mapAddress dirAddress disk = .ok start
        ∧ ∀ trace world, Runs.Run (Happens Regular) start trace world
          → ∃ files, Runs.Run NamedFiles.Happens .empty trace files
            ∧ world.Refines files
            ∧ (∀ operation, world.Regular operation
              → ∃ answer after, Happens Regular world (.operation operation answer) after)
            ∧ (∃ after, Happens Regular world .reboot after ∧ after.disk = world.disk)
            ∧ ∃ names, Happens Regular world (.list names) world := by
  obtain ⟨start, layout, isStart, noHandles, consistent, isFormatted⟩ :=
    formatted_spec mapAddress dirAddress disk
  obtain ⟨start', isStart', layout', consistent', represents⟩ :=
    formatted_refines mapAddress dirAddress disk
  cases Except.ok.inj (isStart.symm.trans isStart')
  have terminated : layout'.directory.Terminated := by
    rw [consistent'.directory_eq consistent, isFormatted.empty]
    intro slot
    rw [Directory.entry_new]
    exact DirectoryEntry.terminated_empty
  have initial : start.Keeps .empty := ⟨layout', consistent', represents, terminated⟩
  refine ⟨start, isStart, fun trace world run => ?_⟩
  obtain ⟨files, abstractRun, keeps⟩ := run.simulate initial
    (fun state event after image kept happens => by
      cases happens with
      | operation step =>
          obtain ⟨next, followed, kept'⟩ := kept.operation step
          exact ⟨next, NamedFiles.Happens.operation followed, kept'⟩
      | reboot ran =>
          obtain ⟨rebooted, kept'⟩ := kept.run_reboot
          cases (Prod.mk.inj (rebooted.symm.trans ran)).2
          exact ⟨_, NamedFiles.Happens.reboot, kept'⟩
      | list ran =>
          obtain ⟨names, listed, once, all⟩ := kept.run_list
          obtain ⟨same, rfl⟩ := Prod.mk.inj (listed.symm.trans ran)
          cases Except.ok.inj same
          exact ⟨image, NamedFiles.Happens.list once all, kept⟩)
  obtain ⟨rebooted, -⟩ := keeps.run_reboot
  obtain ⟨names, listed, -⟩ := keeps.run_list
  obtain ⟨current, consistentNow, representsNow, -⟩ := keeps
  refine ⟨files, abstractRun, ⟨current, consistentNow, representsNow⟩, fun operation regular => ?_,
    ⟨_, .reboot rebooted, rfl⟩, names, .list listed⟩
  obtain ⟨answer, after, next, ran, -, -⟩ := representsNow.follow consistentNow regular
  exact ⟨answer, after, .operation ⟨regular, ran⟩⟩

end World

end Nachos.FileSys
