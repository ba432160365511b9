import Mathlib.Data.BitVec
import Mathlib.Tactic.SplitIfs
import Nachos.Coff2Noff.Conversion
import Nachos.Lib.Folds

/-! When the output of `coff2noff` stands for the same memory as its input. -/

namespace Nachos.Coff2Noff
open Bytes

-----------------------------------------------------------------------------------------
-- Images
-----------------------------------------------------------------------------------------

/-- A byte of a section in the object file, if it is there. -/
def Section.content (scn : Section) (coff : List Byte) (index : Nat) : Option Byte :=
  if scn.scnptr.msb then none else coff[scn.scnptr.toNat + index]?

def Section.Covers (scn : Section) (address : BitVec 32) : Prop :=
  ∃ index < scn.size.toNat, scn.paddr + BitVec.ofNat 32 index = address

def Segment.Covers (segment : Segment) (address : BitVec 32) : Prop :=
  ∃ place < segment.size.toNat, segment.virtualAddr + BitVec.ofNat 32 place = address

/-- The sections for memory without contents, but the empty ones. -/
def reserved (sections : List Section) : List Section :=
  sections.filter (fun scn => scn.name = .bss ∧ scn.size ≠ 0#32)

/-- The sections of a kind, but the empty ones. -/
def loadedAs (kind : Kind) (sections : List Section) : List Section :=
  sections.filter (fun scn => scn.name = .loaded kind ∧ scn.size ≠ 0#32)

/-- The output stands for the memory of the sections: every byte of a section is in the segment of
its kind, the segments have no other addresses, and sections without contents are merged only where
one begins at the end of those before.
-/
structure SameImage (coff : List Byte) (sections : List Section) (noff : Noff) : Prop where
  loaded
    : ∀ scn ∈ sections, ∀ kind, scn.name = .loaded kind
      → ∀ index < scn.size.toNat,
          ∃ place < (noff.header.segment kind).size.toNat,
            (noff.header.segment kind).virtualAddr + BitVec.ofNat 32 place
                = scn.paddr + BitVec.ofNat 32 index
            ∧ ∃ byte,
                noff.file[(noff.header.segment kind).inFileAddr.toNat + place]? = some byte
                ∧ scn.content coff index = some byte
  uninitialized
    : ∀ address,
        noff.header.uninitData.Covers address
        ↔ ∃ scn ∈ sections, scn.name = .bss ∧ scn.Covers address
  only
    : ∀ kind address,
        (noff.header.segment kind).Covers address
        → ∃ scn ∈ sections, scn.name = .loaded kind ∧ scn.Covers address
  merged
    : ∀ before scn after,
        reserved sections = before ++ scn :: after
        → ∀ first ∈ before.head?, scn.paddr = first.paddr + (before.map Section.size).sum

/-- The program stops with an error and without output, or its output stands for the same memory. -/
def Preserves (host : Host) (uninitialized : NoffHeader) (sections : List Section) : Prop :=
  main host uninitialized sections = (1, none)
  ∨ ∃ noff,
      main host uninitialized sections = (0, some noff) ∧ SameImage host.coff sections noff

-----------------------------------------------------------------------------------------
-- Condition
-----------------------------------------------------------------------------------------

/-- The range of sections without contents, merged with one more. -/
def merge (range : BitVec 32 × BitVec 32) (scn : Section) : BitVec 32 × BitVec 32 :=
  if range.2 ≠ 0#32 then (range.1, range.2 + scn.size) else (scn.paddr, scn.size)

def mergedRange (sections : List Section) : BitVec 32 × BitVec 32 :=
  (reserved sections).foldl merge (0#32, 0#32)

/-- The number of bytes that are copied for a section. -/
def Section.fileSize (scn : Section) : Nat :=
  match scn.name with
  | .loaded _ => transferred scn.size
  | _ => 0

def loadedSize (sections : List Section) : Nat := (sections.map Section.fileSize).sum

/-- Where the bytes of a section are read, when the offset was `position` before. -/
def Section.start (scn : Section) (position : Nat) : Nat :=
  if scn.scnptr.msb then position else scn.scnptr.toNat

/-- The offset in the object file after a section. -/
def advance (position : Nat) (scn : Section) : Nat :=
  match scn.name with
  | .loaded _ =>
      if scn.size = 0#32 then position else scn.start position + transferred scn.size
  | _ => position

def positionAfter (numsections : Nat) (sections : List Section) : Nat :=
  sections.foldl advance (tablesSize numsections)

/-- A section that the program stops at: its bytes can not be read or written, it begins where the
sections without contents before it end, or its name is unknown.
-/
def StopsAt (host : Host) (numsections : Nat) (before : List Section) (scn : Section) : Prop :=
  scn.size ≠ 0#32
  ∧ match scn.name with
    | .loaded _ =>
        ¬host.Reads (scn.start (positionAfter numsections before)) scn.size
        ∨ ¬host.Writes (headerSize + loadedSize before) scn.size
    | .bss =>
        (mergedRange before).2 ≠ 0#32
        ∧ scn.paddr = (mergedRange before).1 + (mergedRange before).2
    | .unknown => True

def Stops (host : Host) (sections : List Section) : Prop :=
  (∃ before scn after,
    sections = before ++ scn :: after ∧ StopsAt host sections.length before scn)
  ∨ host.accepts 0 headerSize = false

/-- The bytes of every section are in the object file, and the same bytes are in the last section of
its kind, at the same addresses.
-/
def Repeated (coff : List Byte) (sections : List Section) : Prop :=
  ∀ kind,
    ∀ scn ∈ loadedAs kind sections, ∀ last ∈ (loadedAs kind sections).getLast?,
      ∀ index < scn.size.toNat,
        ∃ place < last.size.toNat,
          last.paddr + BitVec.ofNat 32 place = scn.paddr + BitVec.ofNat 32 index
          ∧ ∃ byte, last.content coff place = some byte ∧ scn.content coff index = some byte

/-- The program stops, or no section is lost and none is merged. -/
def Harmless (host : Host) (sections : List Section) : Prop :=
  Stops host sections
  ∨ (Repeated host.coff sections ∧ (reserved sections).length ≤ 1)

-----------------------------------------------------------------------------------------
-- Lists of sections
-----------------------------------------------------------------------------------------

variable {done sections : List Section} {scn : Section} {kind : Kind}

theorem loadedAs_append_singleton (kind : Kind) (done : List Section) (scn : Section)
    : loadedAs kind (done ++ [scn])
      = loadedAs kind done ++ if scn.name = .loaded kind ∧ scn.size ≠ 0#32 then [scn] else [] := by
  simp only [loadedAs, List.filter_append, List.filter_cons, List.filter_nil, decide_eq_true_eq]

theorem mergedRange_append_singleton (done : List Section) (scn : Section)
    : mergedRange (done ++ [scn])
      = if scn.name = .bss ∧ scn.size ≠ 0#32 then merge (mergedRange done) scn
        else mergedRange done := by
  simp only [mergedRange, reserved, List.filter_append, List.filter_cons, List.filter_nil,
    decide_eq_true_eq, List.foldl_append]
  split_ifs <;> rfl

theorem loadedSize_append_singleton (done : List Section) (scn : Section)
    : loadedSize (done ++ [scn]) = loadedSize done + scn.fileSize := by
  simp [loadedSize]

theorem positionAfter_append_singleton (numsections : Nat) (done : List Section) (scn : Section)
    : positionAfter numsections (done ++ [scn]) = advance (positionAfter numsections done) scn := by
  simp [positionAfter]

theorem mem_loadedAs_iff
    : scn ∈ loadedAs kind sections
      ↔ scn ∈ sections ∧ scn.name = .loaded kind ∧ scn.size ≠ 0#32 := by
  simp [loadedAs]

theorem mem_reserved_iff
    : scn ∈ reserved sections ↔ scn ∈ sections ∧ scn.name = .bss ∧ scn.size ≠ 0#32 := by
  simp [reserved]

-----------------------------------------------------------------------------------------
-- Sections within the object file
-----------------------------------------------------------------------------------------

/-- All bytes of a section are in the object file. -/
structure Section.Inside (scn : Section) (coff : List Byte) : Prop where
  nonneg : scn.scnptr.msb = false
  within : scn.scnptr.toNat + scn.size.toNat ≤ coff.length

def AllInside (coff : List Byte) (sections : List Section) : Prop :=
  ∀ kind, ∀ scn ∈ loadedAs kind sections, scn.Inside coff

variable {coff written : List Byte} {host : Host} {progress next : Progress} {numsections : Nat}

theorem toNat_ne_zero {word : BitVec 32} (nonzero : word ≠ 0#32) : word.toNat ≠ 0 := by
  intro zero
  exact nonzero (BitVec.eq_of_toNat_eq zero)

/-- A section with all bytes in the object file is one whose bytes all have a value. -/
theorem Section.inside_of_content (nonempty : scn.size ≠ 0#32)
    (known : ∀ index < scn.size.toNat, (scn.content coff index).isSome)
    : scn.Inside coff := by
  have some := toNat_ne_zero nonempty
  have first := known (scn.size.toNat - 1) (by omega)
  rw [Section.content] at first
  cases negative : scn.scnptr.msb with
  | true => simp [negative] at first
  | false =>
      rw [negative, if_neg Bool.false_ne_true, isSome_getElem?] at first
      exact ⟨negative, by omega⟩

theorem Section.Inside.content (inside : scn.Inside coff) (index : Nat)
    : scn.content coff index = coff[scn.scnptr.toNat + index]? := by
  rw [Section.content, inside.nonneg, if_neg Bool.false_ne_true]

theorem Section.Inside.start (inside : scn.Inside coff) (position : Nat)
    : scn.start position = scn.scnptr.toNat := by
  rw [Section.start, inside.nonneg, if_neg Bool.false_ne_true]

/-- No more bytes than a count can tell are in the object file. -/
theorem Section.Inside.msb_size (inside : scn.Inside host.coff) : scn.size.msb = false := by
  have within := inside.within
  have small := host.coff_lt
  rw [BitVec.msb_eq_decide, decide_eq_false_iff_not]
  omega

theorem Section.Inside.transferred (inside : scn.Inside host.coff)
    : transferred scn.size = scn.size.toNat := by
  rw [Coff2Noff.transferred, inside.msb_size, if_neg Bool.false_ne_true]

theorem AllInside.of_append (inside : AllInside coff (done ++ [scn])) : AllInside coff done := by
  intro kind other member
  refine inside kind other ?_
  rw [loadedAs_append_singleton]
  exact List.mem_append_left _ member

theorem AllInside.last (inside : AllInside coff (done ++ [scn])) (name : scn.name = .loaded kind)
    (nonempty : scn.size ≠ 0#32)
    : scn.Inside coff :=
  inside kind scn (mem_loadedAs_iff.mpr
    ⟨List.mem_append_right _ (List.mem_singleton_self _), name, nonempty⟩)

-----------------------------------------------------------------------------------------
-- Rounds
-----------------------------------------------------------------------------------------

/-- What the program has after some of the sections, wherever their bytes are. -/
structure Tracks (numsections : Nat) (done : List Section) (progress : Progress) : Prop where
  position : progress.position = positionAfter numsections done
  length : progress.written.length = loadedSize done
  size : progress.noffH.uninitData.size = (mergedRange done).2
  virtualAddr (used : (mergedRange done).2 ≠ 0#32)
    : progress.noffH.uninitData.virtualAddr = (mergedRange done).1

/-- A segment has the bytes of a section. -/
structure Placed (coff written : List Byte) (segment : Segment) (scn : Section) : Prop where
  virtualAddr : segment.virtualAddr = scn.paddr
  size : segment.size = scn.size
  inside : scn.Inside coff
  start : headerSize ≤ segment.inFileAddr.toNat
  bytes
    : ∀ place < scn.size.toNat,
        written[segment.inFileAddr.toNat - headerSize + place]? = coff[scn.scnptr.toNat + place]?

/-- What it has besides if all their bytes are in the object file. -/
structure Holds (host : Host) (done : List Section) (progress : Progress) : Prop where
  inNoffFile : progress.inNoffFile.toNat = headerSize + progress.written.length
  room : progress.inNoffFile.toNat < 2 ^ 31
  none (kind : Kind) (none : (loadedAs kind done).getLast? = none)
    : (progress.noffH.segment kind).size = 0#32
  placed (kind : Kind) (last : Section) (some : (loadedAs kind done).getLast? = some last)
    : Placed host.coff progress.written (progress.noffH.segment kind) last

theorem initial_tracks (uninitialized : NoffHeader) (numsections : Nat)
    : Tracks numsections [] (Progress.initial uninitialized numsections) where
  position := rfl
  length := rfl
  size := rfl
  virtualAddr used := absurd rfl used

theorem initial_holds (host : Host) (uninitialized : NoffHeader) (numsections : Nat)
    : Holds host [] (Progress.initial uninitialized numsections) where
  inNoffFile := rfl
  room := (by decide : headerSize < 2 ^ 31)
  none kind _ := by cases kind <;> rfl
  placed _ _ some := nomatch some

/-- Bytes that are written stay where they are. -/
theorem Placed.append {segment : Segment} (placed : Placed coff written segment scn)
    (more : List Byte)
    : Placed coff (written ++ more) segment scn where
  virtualAddr := placed.virtualAddr
  size := placed.size
  inside := placed.inside
  start := placed.start
  bytes place within := by
    have here := placed.bytes place within
    have inside := placed.inside.within
    rw [List.getElem?_eq_getElem (by omega : scn.scnptr.toNat + place < coff.length)] at here ⊢
    obtain ⟨old, _⟩ := List.getElem?_eq_some_iff.mp here
    rw [List.getElem?_append_left old, here]

/-- A section that is not loaded as a kind leaves its last section as it was. -/
theorem loadedAs_append_other (apart : ¬(scn.name = .loaded kind ∧ scn.size ≠ 0#32))
    : loadedAs kind (done ++ [scn]) = loadedAs kind done := by
  rw [loadedAs_append_singleton, if_neg apart, List.append_nil]

/-- A round that leaves the bytes and the loaded segments keeps what they have. -/
theorem Holds.keep (holds : Holds host done progress)
    (others : ∀ kind, loadedAs kind (done ++ [scn]) = loadedAs kind done)
    (inNoffFile : next.inNoffFile = progress.inNoffFile)
    (written : next.written = progress.written)
    (segments : ∀ kind, next.noffH.segment kind = progress.noffH.segment kind)
    : Holds host (done ++ [scn]) next where
  inNoffFile := by rw [inNoffFile, written, holds.inNoffFile]
  room := by rw [inNoffFile]; exact holds.room
  none := by simpa only [others, segments] using holds.none
  placed := by simpa only [others, segments, written] using holds.placed

/-- A round for an empty section does nothing. -/
theorem Tracks.skip (tracks : Tracks numsections done progress) (empty : scn.size = 0#32)
    : Tracks numsections (done ++ [scn]) progress := by
  have none : scn.fileSize = 0 := by
    unfold Section.fileSize
    split
    · rw [empty]
      rfl
    · rfl
  have stays (position : Nat) : advance position scn = position := by
    unfold advance
    split
    · rw [if_pos empty]
    · rfl
  have range : mergedRange (done ++ [scn]) = mergedRange done := by
    rw [mergedRange_append_singleton, if_neg (fun both => both.2 empty)]
  constructor
  · rw [positionAfter_append_singleton, stays]
    exact tracks.position
  · rw [loadedSize_append_singleton, none]
    exact tracks.length
  · rw [range]
    exact tracks.size
  · rw [range]
    exact tracks.virtualAddr

/-- What a round for a section without contents leaves. -/
theorem kept_of_reserve (ran : progress.reserve scn = .ok next)
    : next.inNoffFile = progress.inNoffFile
      ∧ next.position = progress.position
      ∧ next.written = progress.written
      ∧ ∀ kind, next.noffH.segment kind = progress.noffH.segment kind := by
  rw [Progress.reserve] at ran
  split_ifs at ran
  · obtain rfl := Except.ok.inj ran
    exact ⟨rfl, rfl, rfl, fun kind => by cases kind <;> rfl⟩
  · obtain rfl := Except.ok.inj ran
    exact ⟨rfl, rfl, rfl, fun kind => by cases kind <;> rfl⟩

/-- A round for a section without contents merges the ranges. -/
theorem Tracks.reserve (tracks : Tracks numsections done progress) (name : scn.name = .bss)
    (nonempty : scn.size ≠ 0#32) (ran : progress.reserve scn = .ok next)
    : Tracks numsections (done ++ [scn]) next := by
  have none : scn.fileSize = 0 := by
    rw [Section.fileSize, name]
  have stays (position : Nat) : advance position scn = position := by
    rw [advance, name]
  have range : mergedRange (done ++ [scn]) = merge (mergedRange done) scn := by
    rw [mergedRange_append_singleton, if_pos ⟨name, nonempty⟩]
  obtain ⟨_, position, written, _⟩ := kept_of_reserve ran
  have merged : next.noffH.uninitData.size = (merge (mergedRange done) scn).2
      ∧ next.noffH.uninitData.virtualAddr = (merge (mergedRange done) scn).1 := by
    rw [Progress.reserve, tracks.size] at ran
    rw [merge]
    split_ifs at ran ⊢ with used
    · obtain rfl := Except.ok.inj ran
      exact ⟨by rw [← tracks.size], tracks.virtualAddr used⟩
    · obtain rfl := Except.ok.inj ran
      exact ⟨rfl, rfl⟩
  constructor
  · rw [positionAfter_append_singleton, stays, position]
    exact tracks.position
  · rw [loadedSize_append_singleton, none, written]
    exact tracks.length
  · rw [range]
    exact merged.1
  · rw [range]
    exact fun _ => merged.2

/-- The bytes that are read for a section from an offset. -/
def Section.contents (scn : Section) (coff : List Byte) (start : Nat) : List Byte :=
  (coff.drop start).take (transferred scn.size)

/-- A `read` that returns what it was asked for has read that many bytes. -/
theorem Section.length_contents {start : Nat} (readable : host.Reads start scn.size)
    : (scn.contents host.coff start).length = Coff2Noff.transferred scn.size := by
  rw [Section.contents, List.length_take, List.length_drop]
  rw [Host.Reads] at readable
  rw [Coff2Noff.transferred]
  split_ifs at readable ⊢ with negative
  · exact Nat.zero_min _
  · have within := readable.2
    omega

theorem Section.getElem?_contents (inside : scn.Inside host.coff) {place : Nat}
    (within : place < scn.size.toNat)
    : (scn.contents host.coff scn.scnptr.toNat)[place]?
      = host.coff[scn.scnptr.toNat + place]? := by
  rw [Section.contents, inside.transferred, List.getElem?_take_of_lt within, List.getElem?_drop]

/-- The state after a round for a section with contents. -/
def Progress.loaded (host : Host) (progress : Progress) (kind : Kind) (scn : Section)
    : Progress :=
  let start := scn.start progress.position
  {
    noffH :=
      progress.noffH.setSegment kind
        { virtualAddr := scn.paddr, inFileAddr := progress.inNoffFile, size := scn.size }
    inNoffFile := progress.inNoffFile + scn.size
    position := start + transferred scn.size
    written := progress.written ++ scn.contents host.coff start
  }

/-- What a round for a section with contents does, or why it can not. -/
theorem load_eq (host : Host) (progress : Progress) (kind : Kind) (scn : Section)
    : progress.load host kind scn
      = if host.Reads (scn.start progress.position) scn.size then
          if host.Writes (headerSize + progress.written.length) scn.size then
            .ok (progress.loaded host kind scn)
          else .error .unableToWriteFile
        else .error .fileIsTooShort := by
  have sought (before : Progress)
      : before.seek scn.scnptr = { before with position := scn.start before.position } := by
    rw [Progress.seek, Section.start]
    split_ifs <;> rfl
  unfold Progress.load Progress.read
  simp only [sought]
  split_ifs with readable writable
  · change (Progress.write host _ (scn.contents host.coff _) _ >>= _) = _
    rw [Progress.write, if_pos writable]
    rfl
  · change (Progress.write host _ (scn.contents host.coff _) _ >>= _) = _
    rw [Progress.write, if_neg writable]
    rfl
  · rfl

/-- A round for a section with contents moves the offset and writes its bytes. -/
theorem Tracks.load (tracks : Tracks numsections done progress) (name : scn.name = .loaded kind)
    (nonempty : scn.size ≠ 0#32) (readable : host.Reads (scn.start progress.position) scn.size)
    : Tracks numsections (done ++ [scn]) (progress.loaded host kind scn) := by
  have fileSize : scn.fileSize = transferred scn.size := by
    rw [Section.fileSize, name]
  have range : mergedRange (done ++ [scn]) = mergedRange done := by
    rw [mergedRange_append_singleton, if_neg (fun both => by simp [name] at both)]
  constructor
  · rw [positionAfter_append_singleton, advance, name, ← tracks.position]
    exact (if_neg nonempty).symm
  · rw [loadedSize_append_singleton, fileSize, ← tracks.length,
      ← Section.length_contents readable]
    exact List.length_append
  · rw [range, ← tracks.size]
    exact congrArg Segment.size (NoffHeader.uninitData_setSegment _ _ _)
  · rw [range]
    intro used
    rw [← tracks.virtualAddr used]
    exact congrArg Segment.virtualAddr (NoffHeader.uninitData_setSegment _ _ _)

/-- A round for a section with contents makes it the last of its kind. -/
theorem Holds.load (holds : Holds host done progress) (name : scn.name = .loaded kind)
    (nonempty : scn.size ≠ 0#32) (inside : scn.Inside host.coff)
    (readable : host.Reads (scn.start progress.position) scn.size)
    (writable : host.Writes (headerSize + progress.written.length) scn.size)
    : Holds host (done ++ [scn]) (progress.loaded host kind scn) := by
  have others (other : Kind) (apart : other ≠ kind)
      : loadedAs other (done ++ [scn]) = loadedAs other done := by
    refine loadedAs_append_other ?_
    rintro ⟨same, _⟩
    rw [name] at same
    exact apart (SectionName.loaded.inj same).symm
  have newest : (loadedAs kind (done ++ [scn])).getLast? = some scn := by
    rw [loadedAs_append_singleton, if_pos ⟨name, nonempty⟩, List.getLast?_concat]
  have accepted
      : host.accepts (headerSize + progress.written.length) scn.size.toNat = true := by
    rwa [Host.Writes, inside.msb_size, if_neg Bool.false_ne_true] at writable
  have limit := host.accepts_lt accepted
  have position := holds.inNoffFile
  have length
      : (progress.loaded host kind scn).written.length
        = progress.written.length + scn.size.toNat := by
    rw [← inside.transferred, ← Section.length_contents readable]
    exact List.length_append
  have address
      : (progress.loaded host kind scn).inNoffFile.toNat
        = headerSize + progress.written.length + scn.size.toNat := by
    change (progress.inNoffFile + scn.size).toNat = _
    rw [BitVec.toNat_add, position]
    omega
  constructor
  · rw [address, length]
    omega
  · rw [address]
    exact limit
  · intro other none
    by_cases same : other = kind
    · rw [same, newest] at none
      exact nomatch none
    · rw [others other same] at none
      rw [Progress.loaded, NoffHeader.segment_setSegment, if_neg same]
      exact holds.none other none
  · intro other last some
    rw [Progress.loaded, inside.start]
    dsimp only
    by_cases same : other = kind
    · rw [same, newest] at some
      obtain rfl := Option.some.inj some
      rw [NoffHeader.segment_setSegment, if_pos same]
      refine ⟨rfl, rfl, inside, ?_, ?_⟩
      · dsimp only
        omega
      · intro place within
        dsimp only
        rw [position, Nat.add_sub_cancel_left, List.getElem?_append_right (by omega),
          Nat.add_sub_cancel_left]
        exact Section.getElem?_contents inside within
    · rw [NoffHeader.segment_setSegment, if_neg same]
      rw [others other same] at some
      exact (holds.placed other last some).append _

/-- What every round goes on with. -/
def Goes (host : Host) (numsections : Nat) (done : List Section) (progress : Progress) : Prop :=
  Tracks numsections done progress ∧ (AllInside host.coff done → Holds host done progress)

/-- Every round goes on with what the program has, by the cases of the loop. -/
theorem Goes.round (goes : Goes host numsections done progress)
    (ran : progress.round host scn = .ok next)
    : Goes host numsections (done ++ [scn]) next := by
  obtain ⟨tracks, holds⟩ := goes
  rw [Progress.round] at ran
  split_ifs at ran with empty
  · obtain rfl := Except.ok.inj ran
    refine ⟨tracks.skip empty, fun inside => (holds inside.of_append).keep ?_ rfl rfl ?_⟩
    · exact fun kind => loadedAs_append_other (fun both => both.2 empty)
    · exact fun kind => rfl
  · cases name : scn.name with
    | loaded kind =>
        rw [name] at ran
        dsimp only at ran
        rw [load_eq] at ran
        split_ifs at ran with readable writable
        obtain rfl := Except.ok.inj ran
        refine ⟨tracks.load name empty readable, fun inside => ?_⟩
        exact (holds inside.of_append).load name empty (inside.last name empty) readable writable
    | bss =>
        rw [name] at ran
        obtain ⟨inNoffFile, _, written, segments⟩ := kept_of_reserve ran
        refine ⟨tracks.reserve name empty ran, fun inside => ?_⟩
        refine (holds inside.of_append).keep ?_ inNoffFile written segments
        exact fun kind => loadedAs_append_other (fun both => by simp [name] at both)
    | unknown =>
        rw [name] at ran
        cases ran

/-- The rounds that fail. -/
theorem Tracks.round_fails_iff (tracks : Tracks numsections done progress)
    : (∃ error, progress.round host scn = .error error)
      ↔ StopsAt host numsections done scn := by
  rw [Progress.round, StopsAt]
  split_ifs with empty
  · simp [empty]
  · rw [and_iff_right empty]
    cases scn.name with
    | loaded kind =>
        dsimp only
        rw [load_eq, tracks.length, tracks.position]
        split_ifs with readable writable
        · simp [readable, writable]
        · simp [writable]
        · simp [readable]
    | bss =>
        dsimp only
        rw [Progress.reserve, tracks.size]
        split_ifs with used contiguous
        · rw [tracks.virtualAddr used] at contiguous
          simp [used, contiguous]
        · rw [tracks.virtualAddr used] at contiguous
          simp [contiguous]
        · simp [used]
    | unknown => simp

-----------------------------------------------------------------------------------------
-- Outputs
-----------------------------------------------------------------------------------------

variable {uninitialized : NoffHeader}

/-- The output of a run that went through all sections. -/
def Progress.noff (progress : Progress) : Noff where
  header := progress.noffH
  file := progress.noffH.bytes ++ progress.written

/-- The program stops exactly at its conditions, and else has all sections in its output. By what
every round goes on with, and by the rounds that fail.
-/
theorem main_cases (host : Host) (uninitialized : NoffHeader) (sections : List Section)
    : (Stops host sections ∧ main host uninitialized sections = (1, none))
      ∨ (¬Stops host sections
        ∧ ∃ progress,
            Goes host sections.length sections progress
            ∧ main host uninitialized sections = (0, some progress.noff)) := by
  have start : Goes host sections.length [] (Progress.initial uninitialized sections.length) :=
    ⟨initial_tracks _ _, fun _ => initial_holds _ _ _⟩
  have fails :=
    @Folds.foldlM_error_iff _ _ _ (Progress.round host) (Goes host sections.length)
      (StopsAt host sections.length) [] sections _ Goes.round (fun goes => goes.1.round_fails_iff)
      start
  cases ran
      : sections.foldlM (Progress.round host)
          (Progress.initial uninitialized sections.length) with
  | error error =>
      refine .inl ⟨.inl (fails.mp ⟨error, ran⟩), ?_⟩
      rw [main, convert, ran]
      rfl
  | ok progress =>
      have goes : Goes host sections.length sections progress :=
        Folds.of_foldlM_ok Goes.round start ran
      have through
          : ¬∃ before scn after,
              sections = before ++ scn :: after
              ∧ StopsAt host sections.length before scn := by
        intro stops
        obtain ⟨_, failed⟩ := fails.mpr stops
        cases ran.symm.trans failed
      have converted
          : convert host uninitialized sections
            = if host.accepts 0 headerSize = true then .ok progress.noff
              else .error .unableToWriteFile := by
        rw [convert, ran]
        rfl
      rw [main, converted]
      by_cases accepted : host.accepts 0 headerSize = true
      · refine .inr ⟨?_, progress, goes, ?_⟩
        · rintro (stops | refused)
          · exact through stops
          · exact absurd (accepted.symm.trans refused) (by decide)
        · rw [if_pos accepted]
      · refine .inl ⟨.inr (eq_false_of_ne_true accepted), ?_⟩
        rw [if_neg accepted]

/-- A section of a kind has a last one of its kind. -/
theorem exists_last (member : scn ∈ loadedAs kind sections)
    : ∃ last, (loadedAs kind sections).getLast? = some last ∧ last ∈ loadedAs kind sections := by
  cases found : (loadedAs kind sections).getLast? with
  | none =>
      rw [List.getLast?_eq_none_iff.mp found] at member
      exact nomatch member
  | some last => exact ⟨last, rfl, List.mem_of_getLast? found⟩

/-- The bytes of a placed segment in the whole file. -/
theorem Placed.file {segment : Segment} (placed : Placed coff progress.written segment scn)
    {place : Nat} (within : place < scn.size.toNat)
    : progress.noff.file[segment.inFileAddr.toNat + place]? = scn.content coff place := by
  have start := placed.start
  change (progress.noffH.bytes ++ progress.written)[_]? = _
  rw [placed.inside.content, List.getElem?_append_right (by rw [NoffHeader.length_bytes]; omega),
    NoffHeader.length_bytes, ← placed.bytes place within]
  congr 1
  omega

/-- Every byte of a loaded section is in the segment of its kind, where it has its own value. -/
def Loaded (coff : List Byte) (sections : List Section) (noff : Noff) : Prop :=
  ∀ scn ∈ sections, ∀ kind, scn.name = .loaded kind
    → ∀ index < scn.size.toNat,
        ∃ place < (noff.header.segment kind).size.toNat,
          (noff.header.segment kind).virtualAddr + BitVec.ofNat 32 place
              = scn.paddr + BitVec.ofNat 32 index
          ∧ ∃ byte,
              noff.file[(noff.header.segment kind).inFileAddr.toNat + place]? = some byte
              ∧ scn.content coff index = some byte

/-- Where every byte of the sections has a value, all of them are in the object file. -/
theorem Loaded.allInside {noff : Noff} (loaded : Loaded coff sections noff)
    : AllInside coff sections := by
  intro kind scn member
  obtain ⟨here, name, nonempty⟩ := mem_loadedAs_iff.mp member
  refine Section.inside_of_content nonempty ?_
  intro index within
  obtain ⟨_, _, _, _, _, found⟩ := loaded scn here kind name index within
  exact Option.isSome_of_eq_some found

/-- Sections whose bytes are all repeated lie in the image, since every byte that is loaded is
found there.
-/
theorem Repeated.allInside (repeats : Repeated coff sections) : AllInside coff sections := by
  intro kind scn member
  obtain ⟨_, _, nonempty⟩ := mem_loadedAs_iff.mp member
  obtain ⟨last, isLast, _⟩ := exists_last member
  refine Section.inside_of_content nonempty ?_
  intro index within
  obtain ⟨_, _, _, _, _, found⟩ := repeats kind scn member last isLast index within
  exact Option.isSome_of_eq_some found

/-- The bytes of all sections are found when those of repeated sections agree. -/
theorem Holds.loaded_iff (holds : Holds host sections progress)
    : Loaded host.coff sections progress.noff ↔ Repeated host.coff sections := by
  constructor
  · intro loaded kind scn member last isLast index within
    obtain ⟨here, name, _⟩ := mem_loadedAs_iff.mp member
    obtain ⟨place, inside, address, byte, found, expected⟩ :=
      loaded scn here kind name index within
    have placed := holds.placed kind last isLast
    have within : place < last.size.toNat := placed.size ▸ inside
    refine ⟨place, within, ?_, byte, ?_, expected⟩
    · exact placed.virtualAddr ▸ address
    · exact (placed.file within).symm.trans found
  · intro repeats scn here kind name index within
    have nonempty : scn.size ≠ 0#32 := by
      rintro zero
      rw [zero] at within
      exact absurd within (Nat.not_lt_zero _)
    have member := mem_loadedAs_iff.mpr ⟨here, name, nonempty⟩
    obtain ⟨last, isLast, _⟩ := exists_last member
    obtain ⟨place, inside, address, byte, found, expected⟩ :=
      repeats kind scn member last isLast index within
    have placed := holds.placed kind last isLast
    refine ⟨place, ?_, ?_, byte, ?_, expected⟩
    · exact placed.size ▸ inside
    · exact placed.virtualAddr ▸ address
    · exact (placed.file inside).trans found

/-- A segment has no addresses but those of the last section of its kind. -/
theorem Holds.only (holds : Holds host sections progress) {address : BitVec 32}
    (covers : (progress.noffH.segment kind).Covers address)
    : ∃ scn ∈ sections, scn.name = .loaded kind ∧ scn.Covers address := by
  obtain ⟨place, inside, rfl⟩ := covers
  cases isLast : (loadedAs kind sections).getLast? with
  | none =>
      rw [holds.none kind isLast] at inside
      exact absurd inside (Nat.not_lt_zero _)
  | some last =>
      have placed := holds.placed kind last isLast
      obtain ⟨here, name, _⟩ := mem_loadedAs_iff.mp (List.mem_of_getLast? isLast)
      rw [placed.size] at inside
      rw [placed.virtualAddr]
      exact ⟨last, here, name, place, inside, rfl⟩

/-- With one section without contents at most, the range is its own. -/
theorem Tracks.covers_uninitData_iff (tracks : Tracks numsections sections progress)
    (single : (reserved sections).length ≤ 1) (address : BitVec 32)
    : progress.noffH.uninitData.Covers address
      ↔ ∃ scn ∈ sections, scn.name = .bss ∧ scn.Covers address := by
  have members (scn : Section)
      : (scn ∈ sections ∧ scn.name = .bss ∧ scn.Covers address)
        ↔ scn ∈ reserved sections ∧ scn.Covers address := by
    rw [mem_reserved_iff]
    constructor
    · rintro ⟨here, name, index, within, covers⟩
      refine ⟨⟨here, name, ?_⟩, index, within, covers⟩
      rintro zero
      rw [zero] at within
      exact absurd within (Nat.not_lt_zero _)
    · rintro ⟨⟨here, name, _⟩, covers⟩
      exact ⟨here, name, covers⟩
  have size := tracks.size
  have virtualAddr := tracks.virtualAddr
  simp only [members]
  unfold mergedRange at size virtualAddr
  match all : reserved sections, single with
  | [], _ =>
      rw [all] at size
      refine iff_of_false ?_ (by simp)
      rintro ⟨place, inside, _⟩
      rw [size] at inside
      exact absurd inside (Nat.not_lt_zero _)
  | [scn], _ =>
      rw [all] at size virtualAddr
      have used : scn.size ≠ 0#32 :=
        (mem_reserved_iff.mp (all ▸ List.mem_singleton_self scn)).2.2
      change _ = scn.size at size
      rw [Segment.Covers, size, virtualAddr used]
      simp [Section.Covers, merge]

/-- A second section without contents stands after the first. -/
theorem exists_second {first second : Section} {rest : List Section}
    (two : reserved sections = first :: second :: rest)
    : ∃ before after, sections = before ++ second :: after ∧ reserved before = [first] := by
  obtain ⟨before, middle, rfl, none, isFirst, others⟩ := List.filter_eq_cons_iff.mp two
  obtain ⟨between, after, rfl, none', _, _⟩ := List.filter_eq_cons_iff.mp others
  refine ⟨before ++ first :: between, after, by simp, ?_⟩
  rw [reserved, List.filter_append, List.filter_eq_nil_iff.mpr none, List.nil_append,
    List.filter_cons, if_pos isFirst, List.filter_eq_nil_iff.mpr none']

/-- A program that goes on at a second section without contents merges it where it does not begin at
the end of the first.
-/
theorem single_of_merged (through : ¬Stops host sections)
    (merged
      : ∀ before scn after,
          reserved sections = before ++ scn :: after
          → ∀ first ∈ before.head?, scn.paddr = first.paddr + (before.map Section.size).sum)
    : (reserved sections).length ≤ 1 := by
  match all : reserved sections with
  | [] => exact Nat.zero_le 1
  | [_] => exact Nat.le_refl 1
  | first :: second :: rest =>
      have contiguous := merged [first] second rest all first rfl
      obtain ⟨before, after, split, one⟩ := exists_second all
      have range : mergedRange before = (first.paddr, first.size) := by
        rw [mergedRange, one]
        rfl
      have firstMember : first ∈ reserved sections := all ▸ List.mem_cons_self
      have secondMember : second ∈ reserved sections :=
        all ▸ List.mem_cons_of_mem first List.mem_cons_self
      obtain ⟨_, _, used⟩ := mem_reserved_iff.mp firstMember
      obtain ⟨_, name, nonempty⟩ := mem_reserved_iff.mp secondMember
      refine absurd (.inl ⟨before, second, after, split, nonempty, ?_⟩) through
      rw [name, range]
      exact ⟨used, by simpa using contiguous⟩

/-- The output stands for the same memory exactly when the bytes of all sections are in the object
file, no section is lost and none is merged.
-/
theorem Goes.sameImage_iff (goes : Goes host numsections sections progress)
    (through : ¬Stops host sections)
    : SameImage host.coff sections progress.noff
      ↔ Repeated host.coff sections ∧ (reserved sections).length ≤ 1 := by
  obtain ⟨tracks, holds⟩ := goes
  constructor
  · intro image
    have loaded : Loaded host.coff sections progress.noff := image.loaded
    exact ⟨(holds loaded.allInside).loaded_iff.mp loaded, single_of_merged through image.merged⟩
  · rintro ⟨repeats, single⟩
    have holds := holds repeats.allInside
    refine ⟨holds.loaded_iff.mpr repeats, tracks.covers_uninitData_iff single,
      fun _ _ => holds.only, ?_⟩
    intro before scn after all first isFirst
    obtain ⟨rest, rfl⟩ := List.head?_eq_some_iff.mp isFirst
    rw [all] at single
    simp at single

/-- The program keeps the memory image when it stops, or when the bytes of all sections are in the
object file, no kind of section is there twice with different bytes and at most one section has no
contents.
-/
theorem preserves_iff_harmless (host : Host) (uninitialized : NoffHeader)
    (sections : List Section)
    : Preserves host uninitialized sections ↔ Harmless host sections := by
  rw [Preserves, Harmless]
  rcases main_cases host uninitialized sections with ⟨stops, ran⟩ | ⟨through, progress, goes, ran⟩
  · exact iff_of_true (.inl ran) (.inl stops)
  · rw [ran, or_iff_right (by simp), or_iff_right through, ← goes.sameImage_iff through]
    constructor
    · rintro ⟨noff, same, image⟩
      obtain rfl := Option.some.inj (Prod.mk.inj same).2
      exact image
    · exact fun image => ⟨_, rfl, image⟩

/-- A host where everything fits, and no more bytes are transferred than a count can tell. -/
def roomyHost (coff : List Byte) (small : coff.length < 2 ^ 31) : Host where
  coff
  coff_lt := small
  grants _ := true
  accepts start count := decide (start + count < 2 ^ 31)
  accepts_lt := of_decide_eq_true
  readFails _ := true
  writeFails _ := true

def zeros : NoffHeader where
  code := { virtualAddr := 0#32, inFileAddr := 0#32, size := 0#32 }
  initData := { virtualAddr := 0#32, inFileAddr := 0#32, size := 0#32 }
  readonlyData := { virtualAddr := 0#32, inFileAddr := 0#32, size := 0#32 }
  uninitData := { virtualAddr := 0#32, inFileAddr := 0#32, size := 0#32 }

set_option maxRecDepth 4000 in
/-- The sections of four object files: two of code at different addresses, where the first one is
lost; two without contents that are apart, and merged; code of 2^32 - 1 bytes, for which `read` and
`write` return -1 as they are meant to; code at a negative offset, which is not moved to.
-/
theorem not_preserves_of_sections
    : ¬Preserves (roomyHost (List.replicate 158 1) (by decide)) zeros
          [⟨.loaded .text, 0#32, 1#32, 156#32⟩, ⟨.loaded .text, 16#32, 1#32, 157#32⟩]
      ∧ ¬Preserves (roomyHost (List.replicate 156 1) (by decide)) zeros
          [⟨.bss, 0#32, 4#32, 0#32⟩, ⟨.bss, 16#32, 4#32, 0#32⟩]
      ∧ ¬Preserves (roomyHost (List.replicate 157 1) (by decide)) zeros
          [⟨.loaded .text, 0#32, 0xffffffff#32, 156#32⟩, ⟨.loaded .data, 0#32, 1#32, 156#32⟩]
      ∧ ¬Preserves (roomyHost (List.replicate 117 1) (by decide)) zeros
          [⟨.loaded .text, 0#32, 1#32, 0x80000000#32⟩] := by
  refine ⟨?_, ?_, ?_, ?_⟩
  · rintro (stopped | ⟨noff, ran, image⟩)
    · exact absurd (congrArg Prod.fst stopped) (by decide)
    · obtain rfl := Option.some.inj (Prod.mk.inj ran).2
      obtain ⟨place, inside, address, _⟩ :=
        image.loaded _ List.mem_cons_self .text rfl 0 (by decide)
      obtain rfl : place = 0 := by
        have one : place < 1 := inside
        omega
      exact absurd address (by decide)
  · rintro (stopped | ⟨noff, ran, image⟩)
    · exact absurd (congrArg Prod.fst stopped) (by decide)
    · exact absurd (image.merged [_] _ [] rfl _ rfl) (by decide)
  · rintro (stopped | ⟨noff, _, image⟩)
    · exact absurd (congrArg Prod.fst stopped) (by decide)
    · obtain ⟨_, _, _, _, _, found⟩ :=
        image.loaded _ List.mem_cons_self .text rfl 1 (by decide)
      cases found
  · rintro (stopped | ⟨noff, _, image⟩)
    · exact absurd (congrArg Prod.fst stopped) (by decide)
    · obtain ⟨_, _, _, _, _, found⟩ :=
        image.loaded _ List.mem_cons_self .text rfl 0 (by decide)
      cases found

end Nachos.Coff2Noff
