import Nachos.UserProg.Mp2.SystemCalls

/-! Whether a system call keeps to the memory of its caller. The kernel takes the address that
the program passes for an index of `mainMemory`, so it does only where pages and frames agree.
-/

namespace Nachos.UserProg.Mp2

open Bytes

inductive SystemCall where
  | create (val : Int)
  | openAFile (val : Int)
  | write (val numChar fileID : Int)
  | read (val numChar fileID : Int)

namespace SystemCall

/-- `ExceptionHandler` for the call. -/
def serve (host : Host) (caller : Caller) : SystemCall → Served
  | create val => caller.create host val
  | openAFile val => caller.openAFile host val
  | write val numChar fileID => caller.write val numChar fileID
  | read val numChar fileID => caller.read val numChar fileID

/-- A virtual address of a buffer, which may wrap around. -/
def InBuffer (start length : Int) (address : Nat) : Prop :=
  ∃ offset : Nat,
    (offset : Int) < CInt.unsigned length ∧ (address : Int) = CInt.unsigned (start + offset)

/-- A virtual address of a string, up to its NUL or the first byte that is not mapped. -/
def InName (caller : Caller) (start : Int) (address : Nat) : Prop :=
  ∃ offset : Nat,
    (address : Int) = CInt.unsigned (start + offset)
    ∧ ∀ earlier < offset,
        ∃ byte,
          byte ≠ 0
          ∧ caller.space.byteAt caller.memory (CInt.unsigned (start + earlier)).toNat
              = some byte

/-- The virtual addresses that the program passed. -/
def Passed (caller : Caller) : SystemCall → Nat → Prop
  | create val => InName caller val
  | openAFile val => InName caller val
  | write val numChar _ => InBuffer val numChar
  | read val numChar _ => InBuffer val numChar

/-- A call accesses only bytes of `mainMemory` that the page table maps what the program passed
to, and returns -1 without a change if a part of that is not mapped.
-/
structure Respects (caller : Caller) (passed : Nat → Prop) (served : Served) : Prop where
  accessed
    : ∀ index ∈ served.accessed,
        0 ≤ index
        ∧ index < memorySize
        ∧ ∃ address, passed address ∧ caller.space.physicalAddress address = some index.toNat
  unmapped
    : ∀ address, passed address → caller.space.physicalAddress address = none
      → served.status = .ok (-1) ∧ served.after.memory = caller.memory

-----------------------------------------------------------------------------------------
-- When a call does
-----------------------------------------------------------------------------------------

/-- Everything that the program passed is mapped. -/
def Mapped (caller : Caller) (passed : Nat → Prop) : Prop :=
  ∀ address, passed address → caller.space.physicalAddress address ≠ none

/-- Each of these indices is the physical address of something that the program passed. -/
def Reached (caller : Caller) (passed : Nat → Prop) (indices : List Int) : Prop :=
  ∀ index ∈ indices,
    0 ≤ index ∧ ∃ address, passed address ∧ caller.space.physicalAddress address = some index.toNat

/-- The addresses passed, taken for physical ones, are those that they are mapped to; or nothing
is accessed and -1 is returned anyway.
-/
def Harmless (host : Host) (caller : Caller) (call : SystemCall) : Prop :=
  match call with
  | create val =>
      Reached caller (InName caller val) (caller.nameIndices val)
      ∧ Mapped caller (InName caller val)
  | openAFile val =>
      Reached caller (InName caller val) (caller.nameIndices val)
      ∧ (Mapped caller (InName caller val)
        ∨ ∃ name,
            caller.fileName val = some name
            ∧ (caller.freeSlot = none ∨ host.openForReadWrite name = none))
  | write val numChar fileID =>
      ∀ openFile, caller.openFile fileID = some openFile
        → (0 ≤ openFile.currentOffset
            → Reached caller (InBuffer val numChar) (indices val numChar.toNat))
          ∧ (Mapped caller (InBuffer val numChar)
            ∨ 0 ≤ openFile.currentOffset ∧ numChar = -1)
  | read val numChar fileID =>
      (val < 0 ∨ numChar < 0 ∨ CInt.wrap (val + numChar) > memorySize)
      ∨ ∀ openFile, caller.openFile fileID = some openFile
          → Mapped caller (InBuffer val numChar)
            ∧ ∀ data, openFile.file.readAt numChar openFile.currentOffset = .ok data
                → Reached caller (InBuffer val numChar) (indices val data.length)

variable {host : Host} {caller : Caller} {passed : Nat → Prop} {served : Served}

/-- A call respects its caller when it reaches only what is mapped, or fails and leaves the memory.
-/
theorem respects_iff
    : Respects caller passed served
      ↔ Reached caller passed served.accessed
        ∧ (Mapped caller passed
          ∨ served.status = .ok (-1) ∧ served.after.memory = caller.memory) := by
  constructor
  · rintro ⟨accessed, unmapped⟩
    refine ⟨fun index member => ?_, ?_⟩
    · obtain ⟨nonneg, _, reached⟩ := accessed index member
      exact ⟨nonneg, reached⟩
    · by_cases mapped : Mapped caller passed
      · exact .inl mapped
      · simp only [Mapped, not_forall, not_not] at mapped
        obtain ⟨address, isPassed, none⟩ := mapped
        exact .inr (unmapped address isPassed none)
  · rintro ⟨reached, either⟩
    refine ⟨fun index member => ?_, fun address isPassed none => ?_⟩
    · obtain ⟨nonneg, address, isPassed, maps⟩ := reached index member
      refine ⟨nonneg, ?_, address, isPassed, maps⟩
      have small := AddrSpace.physicalAddress_lt maps
      omega
    · rcases either with mapped | refused
      · exact absurd none (mapped address isPassed)
      · exact refused

theorem reached_nil : Reached caller passed [] := fun _ absent => absurd absent List.not_mem_nil

/-- A call that fails or returns something else must have everything mapped. -/
theorem respects_iff_of_ne (other : served.status ≠ .ok (-1))
    : Respects caller passed served
      ↔ Reached caller passed served.accessed ∧ Mapped caller passed := by
  rw [respects_iff, or_iff_left (fun refused => other refused.1)]

theorem respects_reply
    : Respects caller passed (caller.reply (.ok (-1))) :=
  respects_iff.mpr ⟨reached_nil, .inr ⟨rfl, rfl⟩⟩

theorem respects_fault {fault : Fault}
    : Respects caller passed (caller.reply (.error fault)) ↔ Mapped caller passed := by
  rw [respects_iff_of_ne (by simp [Caller.reply])]
  exact and_iff_right reached_nil

/-- Reading into a buffer, when the range check is passed. -/
theorem respects_readFile (val numChar fileID : Int)
    : Respects caller passed (caller.readFile val numChar fileID)
      ↔ ∀ openFile, caller.openFile fileID = some openFile
          → Mapped caller passed
            ∧ ∀ data, openFile.file.readAt numChar openFile.currentOffset = .ok data
                → Reached caller passed (indices val data.length) := by
  rw [Caller.readFile]
  cases found : caller.openFile fileID with
  | none =>
      refine iff_of_true respects_reply (fun openFile same => ?_)
      cases same
  | some openFile =>
      simp only [Option.some.injEq, forall_eq']
      cases outcome : openFile.file.readAt numChar openFile.currentOffset with
      | error fault =>
          rw [respects_fault]
          exact (and_iff_left (fun data same => by cases same)).symm
      | ok data =>
          rw [respects_iff_of_ne, and_comm]
          · simp only [Except.ok.injEq, forall_eq']
          · simp only
            split
            · rw [Ne, Except.ok.injEq]
              omega
            · exact fun same => by cases same

/-- Writing from a buffer. -/
theorem respects_writeFile (val numChar fileID : Int)
    : Respects caller passed (caller.writeFile val numChar fileID)
      ↔ ∀ openFile, caller.openFile fileID = some openFile
          → (0 ≤ openFile.currentOffset → Reached caller passed (indices val numChar.toNat))
            ∧ (Mapped caller passed ∨ 0 ≤ openFile.currentOffset ∧ numChar = -1) := by
  rw [Caller.writeFile]
  cases found : caller.openFile fileID with
  | none =>
      refine iff_of_true respects_reply (fun openFile same => ?_)
      cases same
  | some openFile =>
      simp only [Option.some.injEq, forall_eq']
      by_cases bad : openFile.currentOffset < 0
      · rw [if_pos bad, respects_fault]
        simp [not_le.mpr bad]
      · rw [if_neg bad]
        have good := not_lt.mp bad
        by_cases negative : numChar < 0
        · have nothing : indices val numChar.toNat = [] := by
            rw [Int.toNat_of_nonpos negative.le]
            rfl
          rw [if_pos negative, nothing]
          by_cases minusOne : numChar = -1
          · rw [if_pos minusOne]
            exact iff_of_true (respects_iff.mpr ⟨reached_nil, .inr ⟨rfl, rfl⟩⟩)
              ⟨fun _ => reached_nil, .inr ⟨good, minusOne⟩⟩
          · rw [if_neg minusOne, respects_fault]
            simp [minusOne, reached_nil]
        · have proper : numChar ≠ -1 := by omega
          rw [if_neg negative, respects_iff_of_ne]
          · simp [good, proper]
          · simp only
            split
            · rwa [Ne, Except.ok.injEq]
            · exact fun same => by cases same

/-- A system call keeps to the memory of its caller exactly when the addresses that the program
passed are harmless as physical ones.
-/
theorem respects_iff_harmless (host : Host) (caller : Caller) (call : SystemCall)
    : Respects caller (Passed caller call) (serve host caller call)
      ↔ Harmless host caller call := by
  cases call with
  | create val =>
      refine respects_iff_of_ne ?_
      simp only [serve, Caller.create]
      split
      · exact fun same => by cases same
      · split
        · decide
        · exact fun same => by cases same
  | openAFile val =>
      simp only [serve, Passed, Harmless]
      rw [respects_iff]
      refine and_congr_right (fun _ => or_congr_right ?_)
      simp only [Caller.openAFile]
      cases fileName : caller.fileName val with
      | none => simp
      | some name =>
          cases slot : caller.freeSlot with
          | none => simp
          | some id =>
              cases opens : host.openForReadWrite name with
              | none => simp [opens]
              | some file =>
                  have notMinusOne : (id : Int) ≠ -1 := by omega
                  simp [opens, notMinusOne]
  | write val numChar fileID => exact respects_writeFile val numChar fileID
  | read val numChar fileID =>
      simp only [serve, Passed, Harmless, Caller.read]
      by_cases refused : val < 0 ∨ numChar < 0 ∨ CInt.wrap (val + numChar) > memorySize
      · rw [if_pos refused]
        exact iff_of_true respects_reply (.inl refused)
      · rw [if_neg refused, respects_readFile, or_iff_right refused]

-----------------------------------------------------------------------------------------
-- Other programs
-----------------------------------------------------------------------------------------

/-- The indices of a buffer are those from its start to before its end. -/
theorem mem_indices {start index : Int} {count : Nat}
    : index ∈ indices start count ↔ start ≤ index ∧ index < start + count := by
  rw [indices, List.mem_map]
  constructor
  · rintro ⟨offset, member, rfl⟩
    have small := List.mem_range.mp member
    omega
  · rintro ⟨low, high⟩
    exact ⟨(index - start).toNat, List.mem_range.mpr (by omega), by omega⟩

/-- Bytes that a call does not access stay as they are. -/
theorem unchanged (host : Host) (caller : Caller) (call : SystemCall) {index : Nat}
    (untouched : (index : Int) ∉ (serve host caller call).accessed)
    : (serve host caller call).after.memory.mainMemory index
      = caller.memory.mainMemory index := by
  cases call with
  | create val => rfl
  | openAFile val =>
      simp only [serve, Caller.openAFile]
      split <;> rfl
  | write val numChar fileID =>
      simp only [serve, Caller.write, Caller.writeFile]
      split
      · rfl
      · split
        · rfl
        · split
          · split <;> rfl
          · rfl
  | read val numChar fileID =>
      revert untouched
      simp only [serve, Caller.read]
      split
      · exact fun _ => rfl
      · rename_i checked
        simp only [Caller.readFile]
        split
        · exact fun _ => rfl
        · split
          · exact fun _ => rfl
          · intro untouched
            rw [mem_indices] at untouched
            exact blit_outside _ _ (by omega)

/-- A call that keeps to the memory of its caller neither reads nor changes what a program in
other frames maps.
-/
theorem isolated_of_respects {host : Host} {caller : Caller} {call : SystemCall}
    (respects : Respects caller (Passed caller call) (serve host caller call))
    {other : AddrSpace}
    (apart : ∀ frame ∈ caller.space.frames, frame ∉ other.frames) {address physical : Nat}
    (maps : other.physicalAddress address = some physical)
    : (physical : Int) ∉ (serve host caller call).accessed
      ∧ other.byteAt (serve host caller call).after.memory address
        = other.byteAt caller.memory address := by
  have untouched : (physical : Int) ∉ (serve host caller call).accessed := by
    intro member
    obtain ⟨_, _, own, _, ownMaps⟩ := respects.accessed _ member
    exact apart _ (AddrSpace.frame_of_physicalAddress ownMaps)
      (AddrSpace.frame_of_physicalAddress maps)
  refine ⟨untouched, ?_⟩
  rw [AddrSpace.byteAt, AddrSpace.byteAt, maps, Option.map_some, Option.map_some,
    unchanged host caller call untouched]

-----------------------------------------------------------------------------------------
-- Two programs
-----------------------------------------------------------------------------------------

/-- A program of nine pages in the frames after those of the first program, and a file of one
byte that it opened.
-/
def secondProgram : Caller :=
  {
    space := {
      pageTable := .entries ((List.range 9).map (fun (page : Nat) =>
        {
          virtualPage := (page : Int)
          physicalPage := (page : Int) + 9
          valid := true
          readOnly := false
          use := false
          dirty := false
        }))
      numPages := 9
    }
    memory := { frames := .new numPhysPages, mainMemory := fun _ => 0 }
    openFileTable := [some { file := [7], currentOffset := 0 }]
  }

theorem inBuffer_one {address : Nat} (passed : InBuffer 0 1 address) : address = 0 := by
  obtain ⟨offset, small, same⟩ := passed
  obtain rfl : offset = 0 := Nat.lt_one_iff.mp (Int.ofNat_lt.mp small)
  exact Int.natCast_inj.mp same

/-- Reading one byte to virtual address 0 writes it to frame 0, which is another program's. -/
theorem read_writes_other_program
    : ¬∀ (host : Host) (caller : Caller) (call : SystemCall),
        Respects caller (Passed caller call) (serve host caller call) := by
  intro all
  have respects := all
    { openForWrite := fun _ => false, openForReadWrite := fun _ => none } secondProgram (.read 0 1 0)
  obtain ⟨_, _, address, passed, maps⟩ := respects.accessed 0 (by decide)
  obtain rfl := inBuffer_one passed
  revert maps
  decide

end SystemCall

end Nachos.UserProg.Mp2
