import Nachos.FileSys.Refinement
import Nachos.FileSys.SystemCalls

/-! The purpose of open file ids, a table from ids to positions in files, and when the system
calls serve it.
-/

namespace Nachos.FileSys

open Bytes Routines

-----------------------------------------------------------------------------------------
-- A table of open files
-----------------------------------------------------------------------------------------

/-- What an id stands for. -/
structure Descriptor where
  key : List Byte
  position : Int
  deriving DecidableEq

structure Descriptors where
  contents : List Byte → Option (List Byte)
  table : Int → Option Descriptor

namespace Descriptors

/-- An id that is open, and the bytes of its file. -/
structure Reads (descriptors : Descriptors) (id : Int) (descriptor : Descriptor)
    (bytes : List Byte) : Prop where
  isOpen : descriptors.table id = some descriptor
  contents : descriptors.contents descriptor.key = some bytes

/-- Move the position of one id. -/
def advance (descriptors : Descriptors) (id : Int) (descriptor : Descriptor) (count : Int)
    : Int → Option Descriptor :=
  Function.update descriptors.table id
    (some { descriptor with position := descriptor.position + count })

/-- The calls with their replies: a name that is not there gives no id, an open id acts on
its own file, and any other id is refused without an effect.
-/
inductive Step : Descriptors → Call × Reply → Descriptors → Prop where
  | missing {descriptors : Descriptors} {name : Buffer}
      (absent : descriptors.contents (nameKey name) = none)
      : Step descriptors (.openFile name, .status (-1)) descriptors
  | opened {descriptors : Descriptors} {name : Buffer} {bytes : List Byte} {id : Int}
      (there : descriptors.contents (nameKey name) = some bytes) (positive : 0 < id)
      (fresh : descriptors.table id = none)
      : Step descriptors (.openFile name, .status id)
          {
            descriptors with
            table :=
              Function.update descriptors.table id (some { key := nameKey name, position := 0 })
          }
  | read {descriptors : Descriptors} {id : Int} {descriptor : Descriptor} {bytes : List Byte}
      {into : Buffer} {size count : Int} (reads : descriptors.Reads id descriptor bytes)
      (moved : count = transferCount bytes.length size descriptor.position)
      : Step descriptors
          (.read into size id,
            .filled count (NamedFiles.copied bytes into descriptor.position count))
          { descriptors with table := descriptors.advance id descriptor count }
  | write {descriptors : Descriptors} {id : Int} {descriptor : Descriptor} {bytes : List Byte}
      {source : Buffer} {size count : Int} (reads : descriptors.Reads id descriptor bytes)
      (moved : count = transferCount bytes.length size descriptor.position)
      : Step descriptors (.write source size id, .status count)
          {
            contents :=
              Function.update descriptors.contents descriptor.key
                (some (NamedFiles.overwrite bytes source descriptor.position count))
            table := descriptors.advance id descriptor count
          }
  | close {descriptors : Descriptors} {id : Int} {descriptor : Descriptor}
      (isOpen : descriptors.table id = some descriptor)
      : Step descriptors (.close id, .status 1)
          { descriptors with table := Function.update descriptors.table id none }
  | refused {descriptors : Descriptors} {call : Call} {reply : Reply} {id : Int}
      (passed : call.id? = some id) (notOpen : descriptors.table id = none)
      (failed : reply.value ≤ 0)
      : Step descriptors (call, reply) descriptors

/-- No file is open. -/
def closed (contents : List Byte → Option (List Byte)) : Descriptors :=
  { contents, table := fun _ => none }

/-- One file is open, under the id 1. -/
def single (contents : List Byte → Option (List Byte)) (name : OpenName) : Descriptors :=
  {
    contents
    table :=
      Function.update (fun _ => none) 1 (some { key := name.key, position := name.position })
  }

theorem reads_single {files : NamedFiles} {number : Nat} {name : OpenName} {bytes : List Byte}
    (reads : files.Reads number name bytes)
    : (single files.contents name).Reads 1 { key := name.key, position := name.position }
        bytes where
  isOpen := rfl
  contents := reads.contents

theorem advance_single (contents : List Byte → Option (List Byte)) (name : OpenName)
    (count : Int)
    : (single contents name).advance 1 { key := name.key, position := name.position } count
      = (single contents { name with position := name.position + count }).table := by
  rw [advance, single, Function.update_idem]
  rfl

/-- A name that is not there opens nothing. -/
theorem Step.of_absent {descriptors next : Descriptors} {name : Buffer} {reply : Reply}
    (absent : descriptors.contents (nameKey name) = none)
    (step : Step descriptors (.openFile name, reply) next)
    : reply = .status (-1) ∧ next = descriptors := by
  cases step with
  | missing => exact ⟨rfl, rfl⟩
  | opened there =>
      rw [absent] at there
      cases there
  | refused passed => cases passed

end Descriptors

namespace Session

variable {session after : Session} {layout : Layout}

-----------------------------------------------------------------------------------------
-- Calls
-----------------------------------------------------------------------------------------

theorem run_onWorld_ok {α : Type} {routine : World.WorldRoutine α} {value : α} {world : World}
    (returned : routine.run session.world = (.ok value, world))
    : (onWorld routine).run session = (.ok value, { session with world }) := by
  rw [onWorld, Routine.run_onPart, returned]

theorem run_setOpenedFile (openedFile : FilePointer) (session : Session)
    : (setOpenedFile openedFile).run session = (.ok (), { session with openedFile }) :=
  rfl

/-- Opening a file, by the two outcomes of the search. -/
theorem perform_openFile (consistent : session.world.Consistent layout) (name : Buffer)
    : (layout.directory.findIndex name = none
        ∧ (perform (.openFile name)).run session
          = (.ok (.status 1), { session with openedFile := .null }))
      ∨ ∃ slot,
          layout.directory.findIndex name = some slot
          ∧ (perform (.openFile name)).run session
            = (.ok (.status 1),
              {
                world :=
                  {
                    session.world with
                    handles := session.world.handles ++ [World.newHandle layout name slot]
                  }
                openedFile := .object session.world.handles.length
              }) := by
  rcases World.run_openAsOpenFile consistent name with ⟨absent, ran⟩ | ⟨slot, found, ran⟩
  · have opened : (openFile name).run session = (.ok 1, { session with openedFile := .null }) := by
      rw [openFile, Routine.run_bind_ok (Routine.run_get session),
        Routine.run_bind_ok (run_onWorld_ok (World.run_onDisk_ok ran))]
      exact Routine.run_bind_ok (run_setOpenedFile _ _) _
    exact .inl ⟨absent, by rw [perform, Routine.run_bind_ok opened, Routine.run_pure]⟩
  · let opening : World :=
      {
        session.world with
        handles := session.world.handles ++ [World.newHandle layout name slot]
      }
    let after : Session :=
      { world := opening, openedFile := .object session.world.handles.length }
    have opened : (openFile name).run session = (.ok 1, after) := by
      rw [openFile, Routine.run_bind_ok (Routine.run_get session),
        Routine.run_bind_ok (run_onWorld_ok (World.run_onDisk_ok ran))]
      simp only
      rw [Routine.run_bind_ok (run_onWorld_ok (World.run_updateHandles _ _))]
      exact Routine.run_bind_ok (run_setOpenedFile _ _) _
    exact .inr ⟨slot, found, by rw [perform, Routine.run_bind_ok opened, Routine.run_pure]⟩

/-- The open file behind the pointer. -/
structure Holds (session : Session) (number : Nat) (handle : Handle) : Prop where
  pointer : session.openedFile = .object number
  opened : session.world.Opened number handle

theorem Holds.target {number : Nat} {handle : Handle} (holds : session.Holds number handle)
    : session.openedFile.target = .ok number := by
  rw [holds.pointer, FilePointer.target]

section Perform

variable {number : Nat} {handle : Handle} {size : Int} {answer : Answer} {final : World}

/-- Reading through the pointer is reading through the object behind it. -/
theorem perform_read (holds : session.Holds number handle) {into : Buffer} (id : Int)
    (ran : (World.perform (.read number into size)).run session.world = (.ok answer, final))
    : ∃ count filled,
        answer = .bytesRead count filled
        ∧ (perform (.read into size id)).run session
          = (.ok (.filled count filled), { session with world := final }) := by
  have found := World.fileOf_of_found holds.opened.found holds.opened.kept
  rw [World.perform, Routine.run_bind_ok (Routine.run_get _), found,
    Routine.run_bind_ok (Routine.run_lift _ _)] at ran
  obtain ⟨⟨count, filled, moved⟩, middle, transferred, rest⟩ := Routine.of_run_bind_ok ran
  obtain ⟨⟨⟩, last, put, rest⟩ := Routine.of_run_bind_ok rest
  obtain ⟨same, rfl⟩ := Prod.mk.inj rest
  refine ⟨count, filled, (Except.ok.inj same).symm, ?_⟩
  have done : (read into size id).run session
      = (.ok (count, filled), { session with world := last }) := by
    rw [read, Routine.run_bind_ok (Routine.run_get _), holds.target,
      Routine.run_bind_ok (Routine.run_lift _ _), found,
      Routine.run_bind_ok (Routine.run_lift _ _),
      Routine.run_bind_ok (run_onWorld_ok transferred)]
    exact Routine.run_bind_ok (@run_onWorld_ok { session with world := middle } _ _ _ _ put) _
  rw [perform, Routine.run_bind_ok done, Routine.run_pure]

/-- Writing through the pointer is writing through the object behind it. -/
theorem perform_write (holds : session.Holds number handle) {source : Buffer} (id : Int)
    (ran : (World.perform (.write number source size)).run session.world = (.ok answer, final))
    : ∃ count,
        answer = .bytesWritten count
        ∧ (perform (.write source size id)).run session
          = (.ok (.status count), { session with world := final }) := by
  have found := World.fileOf_of_found holds.opened.found holds.opened.kept
  rw [World.perform, Routine.run_bind_ok (Routine.run_get _), found,
    Routine.run_bind_ok (Routine.run_lift _ _)] at ran
  obtain ⟨⟨count, moved⟩, middle, transferred, rest⟩ := Routine.of_run_bind_ok ran
  obtain ⟨⟨⟩, last, put, rest⟩ := Routine.of_run_bind_ok rest
  obtain ⟨same, rfl⟩ := Prod.mk.inj rest
  refine ⟨count, (Except.ok.inj same).symm, ?_⟩
  have done : (write source size id).run session
      = (.ok count, { session with world := last }) := by
    rw [write, Routine.run_bind_ok (Routine.run_get _), holds.target,
      Routine.run_bind_ok (Routine.run_lift _ _), found,
      Routine.run_bind_ok (Routine.run_lift _ _),
      Routine.run_bind_ok (run_onWorld_ok transferred)]
    exact Routine.run_bind_ok (@run_onWorld_ok { session with world := middle } _ _ _ _ put) _
  rw [perform, Routine.run_bind_ok done, Routine.run_pure]

/-- Closing deletes the object behind the pointer and leaves the pointer as it is. -/
theorem perform_close (holds : session.Holds number handle) (id : Int)
    (ran : (World.perform (.delete number)).run session.world = (.ok answer, final))
    : (perform (.close id)).run session
      = (.ok (.status 1), { session with world := final }) := by
  have found := World.fileOf_of_found holds.opened.found holds.opened.kept
  rw [World.perform, Routine.run_bind_ok (Routine.run_get _), found,
    Routine.run_bind_ok (Routine.run_lift _ _)] at ran
  obtain ⟨⟨⟩, last, put, rest⟩ := Routine.of_run_bind_ok ran
  obtain ⟨_, rfl⟩ := Prod.mk.inj rest
  obtain ⟨world, pointer⟩ := session
  obtain rfl := holds.pointer
  have done : (close id).run { world, openedFile := .object number }
      = (.ok 1, { world := last, openedFile := .object number }) := by
    rw [close, Routine.run_bind_ok (Routine.run_get _)]
    simp only
    rw [holds.target, Routine.run_bind_ok (Routine.run_lift _ _), found,
      Routine.run_bind_ok (Routine.run_lift _ _), Routine.run_bind_ok (run_onWorld_ok put),
      Routine.run_pure]
  rw [perform, Routine.run_bind_ok done, Routine.run_pure]

end Perform

-----------------------------------------------------------------------------------------
-- Ordinary calls
-----------------------------------------------------------------------------------------

/-- One file at a time: a name is opened when it is in the directory and no file is open,
and other calls pass the id 1 while a file is open. They stay in the range of `int` if they begin
within the file.
-/
def Ordinary (session : Session) : Call → Prop
  | .openFile name =>
      (∀ number handle, ¬session.Holds number handle)
      ∧ ∃ directory slot,
          (session.world.files.fetchDirectory.run session.world.disk).1 = .ok directory
          ∧ directory.findIndex name = some slot
  | .read _ size id =>
      id = 1
      ∧ ∃ number handle,
          session.Holds number handle
          ∧ (handle.file.seekPosition < handle.file.hdr.size
            → handle.file.seekPosition + size < 2147483648)
  | .write _ size id =>
      id = 1
      ∧ ∃ number handle,
          session.Holds number handle
          ∧ (handle.file.seekPosition < handle.file.hdr.size
            → handle.file.seekPosition + size < 2147483648)
  | .close id => id = 1 ∧ ∃ number handle, session.Holds number handle

/-- An open file that the id 1 stands for. -/
structure Serves (files : NamedFiles) (number : Nat) (name : OpenName) : Prop where
  found : files.handles[number]? = some name
  kept : name.deleted = false
  live : name.status = .live
  nonneg : 0 ≤ name.position

/-- The session stands for a table with at most the id 1. -/
inductive Shows (session : Session) (files : NamedFiles) : Descriptors → Prop where
  | closed (noFile : ∀ number handle, ¬session.Holds number handle)
      : Shows session files (.closed files.contents)
  | serves {number : Nat} {name : OpenName} (pointer : session.openedFile = .object number)
      (serves : Serves files number name)
      : Shows session files (.single files.contents name)

/-- The session stands for a table, by way of the named byte arrays of its disk. -/
def Follows (session : Session) (descriptors : Descriptors) : Prop :=
  ∃ files, session.world.Refines files ∧ session.Shows files descriptors

theorem transferCount_nonneg {size numBytes position : Int}
    : 0 ≤ transferCount size numBytes position := by
  unfold transferCount
  split <;> omega

section Follow

variable {files : NamedFiles} {number : Nat} {handle : Handle}

/-- The open file of a session, seen from the named byte arrays. -/
theorem Shows.view {descriptors : Descriptors} (shows : session.Shows files descriptors)
    (refines : session.world.Refines files) (holds : session.Holds number handle)
    : Serves files number handle.view ∧ descriptors = .single files.contents handle.view := by
  obtain ⟨layout, _, represents⟩ := refines
  cases shows with
  | closed noFile => exact absurd holds (noFile number handle)
  | serves pointer serves =>
      obtain rfl := FilePointer.object.inj (holds.pointer.symm.trans pointer)
      have found := serves.found
      rw [represents.handles, List.getElem?_map, holds.opened.found, Option.map_some] at found
      obtain rfl := Option.some.inj found
      exact ⟨serves, rfl⟩

/-- Without an open file the table is empty. -/
theorem Shows.closed_of {descriptors : Descriptors} (shows : session.Shows files descriptors)
    (refines : session.world.Refines files)
    (noFile : ∀ number handle, ¬session.Holds number handle)
    : descriptors = .closed files.contents := by
  obtain ⟨layout, _, represents⟩ := refines
  cases shows with
  | closed => rfl
  | @serves number name pointer serves =>
      have found := serves.found
      rw [represents.handles, List.getElem?_map] at found
      obtain ⟨handle, there, rfl⟩ := Option.map_eq_some_iff.mp found
      exact absurd ⟨pointer, there, serves.kept⟩ (noFile number handle)

/-- The table after a transfer through the id 1. -/
theorem Serves.advanced {name : OpenName} {count : Int} (serves : Serves files number name)
    (nonneg : 0 ≤ count) (contents : List Byte → Option (List Byte))
    (pointer : session.openedFile = .object number)
    : session.Shows
        { files with contents, handles := files.setPosition number (name.position + count) }
        (.single contents { name with position := name.position + count }) := by
  refine @Shows.serves session
    { files with contents, handles := files.setPosition number (name.position + count) } number
    { name with position := name.position + count } pointer ⟨?_, serves.kept, serves.live, ?_⟩
  · simp only [NamedFiles.setPosition, List.getElem?_modify, serves.found, if_true]
    rfl
  · exact Int.add_nonneg serves.nonneg nonneg

/-- A request that the world serves. -/
theorem Serves.request (serves : Serves files number handle.view)
    (holds : session.Holds number handle) {size : Int}
    (fits
      : handle.file.seekPosition < handle.file.hdr.size
        → handle.file.seekPosition + size < 2147483648)
    : session.world.Request number handle handle.file.seekPosition size :=
  ⟨holds.opened, serves.live, serves.nonneg, fits⟩

/-- Every ordinary call returns, and the table of open files gives the same reply, by cases
on the call.
-/
theorem Follows.follow {descriptors : Descriptors} (follows : session.Follows descriptors)
    {call : Call} (ordinary : session.Ordinary call)
    : ∃ reply after next,
        (perform call).run session = (.ok reply, after)
        ∧ Descriptors.Step descriptors (call, reply) next
        ∧ after.Follows next := by
  obtain ⟨files, refines, shows⟩ := follows
  obtain ⟨layout, consistent, represents⟩ := id refines
  cases call with
  | openFile name =>
      obtain ⟨noFile, directory, slot, fetched, found⟩ := ordinary
      rw [consistent.files, consistent.onDisk.run_fetchDirectory consistent.sound] at fetched
      obtain rfl := Except.ok.inj fetched
      obtain rfl := shows.closed_of refines noFile
      rcases perform_openFile consistent name with ⟨absent, _⟩ | ⟨own, again, ran⟩
      · rw [found] at absent
        cases absent
      refine ⟨_, _, _, ran, .opened (represents.contents_of_some found) (by decide) rfl, _,
        ⟨layout, consistent.opened again, represents.opened name own⟩, ?_⟩
      refine @Shows.serves _ _ session.world.handles.length
        { key := nameKey name, position := 0, status := .live, deleted := false } rfl
        ⟨?_, rfl, rfl, le_refl 0⟩
      simp [represents.handles]
  | read into size id =>
      obtain ⟨rfl, number, handle, holds, fits⟩ := ordinary
      obtain ⟨serves, rfl⟩ := shows.view refines holds
      have regular : session.world.Regular (.read number into size) :=
        ⟨handle, serves.request holds fits⟩
      obtain ⟨answer, final, next, ran, step, refined⟩ := represents.follow consistent regular
      obtain ⟨count, filled, rfl, done⟩ := perform_read holds 1 ran
      cases step with
      | read reads =>
          obtain rfl := Option.some.inj (serves.found.symm.trans reads.found)
          refine ⟨_, _, _, done, .read (Descriptors.reads_single reads) rfl, _, refined, ?_⟩
          rw [Descriptors.advance_single]
          exact serves.advanced transferCount_nonneg files.contents holds.pointer
  | write source size id =>
      obtain ⟨rfl, number, handle, holds, fits⟩ := ordinary
      obtain ⟨serves, rfl⟩ := shows.view refines holds
      have regular : session.world.Regular (.write number source size) :=
        ⟨handle, serves.request holds fits⟩
      obtain ⟨answer, final, next, ran, step, refined⟩ := represents.follow consistent regular
      obtain ⟨count, rfl, done⟩ := perform_write holds 1 ran
      cases step with
      | write reads =>
          obtain rfl := Option.some.inj (serves.found.symm.trans reads.found)
          refine ⟨_, _, _, done, .write (Descriptors.reads_single reads) rfl, _, refined, ?_⟩
          rw [Descriptors.advance_single]
          exact serves.advanced transferCount_nonneg _ holds.pointer
  | close id =>
      obtain ⟨rfl, number, handle, holds⟩ := ordinary
      obtain ⟨serves, rfl⟩ := shows.view refines holds
      have regular : session.world.Regular (.delete number) := ⟨handle, holds.opened⟩
      obtain ⟨answer, final, next, ran, step, refined⟩ := represents.follow consistent regular
      have done := perform_close holds 1 ran
      cases step with
      | delete found kept =>
          refine ⟨_, _, _, done, .close rfl, _, refined, ?_⟩
          rw [Descriptors.single, Function.update_idem, Function.update_eq_self_iff.mpr rfl]
          refine .closed (fun other own again => ?_)
          obtain rfl := FilePointer.object.inj (holds.pointer.symm.trans again.pointer)
          obtain ⟨_, _, shown⟩ := refined
          have listed := congrArg (fun names => names[number]?) shown.handles
          simp only [List.getElem?_modify, found, List.getElem?_map, again.opened.found] at listed
          have gone := congrArg OpenName.deleted (Option.some.inj listed)
          exact Bool.noConfusion (gone.trans again.opened.kept)

end Follow

-----------------------------------------------------------------------------------------
-- Runs
-----------------------------------------------------------------------------------------

/-- On any file system in use, ordinary calls always return, and a table of open files gives
the same replies to every run of them.
-/
theorem ordinary_serves_descriptors (mapAddress dirAddress : FileSystem.Addresses) (disk : Disk)
    : ∃ fresh,
        World.formatted mapAddress dirAddress disk = .ok fresh
        ∧ ∀ world, Runs.Reachable (World.Step World.Regular) fresh world
          → ∃ files,
              world.Refines files
              ∧ ∀ trace session, Runs.Run (Step Ordinary) (start world) trace session
                → (∃ descriptors,
                    Runs.Run Descriptors.Step (.closed files.contents) trace descriptors)
                  ∧ ∀ call, session.Ordinary call
                    → ∃ reply after, Step Ordinary session (call, reply) after := by
  obtain ⟨fresh, isFresh, refined⟩ := World.formatted_refines mapAddress dirAddress disk
  refine ⟨fresh, isFresh, fun world reachable => ?_⟩
  obtain ⟨files, refines⟩ : ∃ files, world.Refines files := by
    refine @Runs.Reachable.invariant _ _ _ _ _ (fun state => ∃ files, state.Refines files)
      reachable ⟨_, refined⟩ ?_
    rintro state event final ⟨files, layout, kept, shown⟩ ⟨regular, ran⟩
    obtain ⟨answer, again, next, followed, _, refines⟩ := shown.follow kept regular
    obtain rfl := (Prod.mk.inj (ran.symm.trans followed)).2
    exact ⟨next, refines⟩
  refine ⟨files, refines, fun trace session run => ?_⟩
  have initial : (start world).Follows (.closed files.contents) :=
    ⟨files, refines, .closed (fun _ _ holds => FilePointer.noConfusion holds.pointer)⟩
  obtain ⟨descriptors, abstractRun, follows⟩ :=
    run.simulate initial (fun state event after image follows step => by
      obtain ⟨reply, final, next, ran, followed, again⟩ := follows.follow step.1
      obtain ⟨same, rfl⟩ := Prod.mk.inj (step.2.symm.trans ran)
      obtain rfl : event.2 = reply := Except.ok.inj same
      exact ⟨next, followed, again⟩)
  refine ⟨⟨descriptors, abstractRun⟩, fun call ordinary => ?_⟩
  obtain ⟨reply, after, next, ran, _⟩ := follows.follow ordinary
  exact ⟨reply, after, ordinary, ran⟩

/-- Opening a name that is not in the directory returns the id 1, which no table of open
files does, and reading through that id follows a null pointer.
-/
theorem open_absent_returns_one
    : ∃ fresh directory opened,
        World.formatted (fun _ => 0) (fun _ => 0) (fun _ => Vector.replicate _ 0) = .ok fresh
        ∧ (fresh.files.fetchDirectory.run fresh.disk).1 = .ok directory
        ∧ directory.findIndex World.firstName = none
        ∧ (perform (.openFile World.firstName)).run (start fresh) = (.ok (.status 1), opened)
        ∧ (∀ next,
          ¬Descriptors.Step (.closed fun _ => none) (.openFile World.firstName, .status 1) next)
        ∧ ((perform (.read (fun _ => 0) 1 1)).run opened).1 = .error .nullPointer := by
  obtain ⟨fresh, layout, isFresh, _, consistent, isFormatted⟩ :=
    World.formatted_spec (fun _ => 0) (fun _ => 0) (fun _ => Vector.replicate _ 0)
  have fetched := consistent.onDisk.run_fetchDirectory consistent.sound
  rw [← consistent.files] at fetched
  have absent : layout.directory.findIndex World.firstName = none := by
    refine (Directory.findIndex_eq_none_iff _ _).mpr (fun slot used => ?_)
    rw [isFormatted.unused] at used
    cases used
  rcases @perform_openFile (start fresh) layout consistent World.firstName with
    ⟨_, ran⟩ | ⟨slot, found, _⟩
  · refine ⟨fresh, layout.directory, _, isFresh, congrArg Prod.fst fetched, absent, ran, ?_, rfl⟩
    intro next step
    obtain ⟨same, _⟩ := step.of_absent rfl
    exact absurd (Reply.status.inj same) (by decide)
  · rw [absent] at found
    cases found

end Session

end Nachos.FileSys
