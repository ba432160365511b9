import Nachos.UserProg.Mp3.Copying

/-! What `Load` does to the rest of memory. Code and initialized data go through the new page
table; the read-only data goes to the bytes of memory with the same numbers as its virtual
addresses, whoever has the frames there.
-/

namespace Nachos.UserProg.Mp3

open Bytes Routines

variable {taken : List Int} {file : HostFile} {segment : Segment} {noffH : NoffHeader}
  {state after : Loading} {stack : Buffer} {heap : Nat → TranslationEntry}

/-- The segments that are copied. -/
def copiedSegments (noffH : NoffHeader) : List Segment :=
  [noffH.code, noffH.initData, noffH.readonlyData]

/-- `Load` changed only bytes of frames that it allocated, and each byte of the segments is found
where the new page table maps its address.
-/
structure Isolates (state after : Loading) (file : HostFile) (noffH : NoffHeader) : Prop where
  changed
    : ∀ address, after.memory.mainMemory address ≠ state.memory.mainMemory address
      → state.memory.frames.testBit (address / pageSize) = false
        ∧ after.memory.frames.testBit (address / pageSize) = true
  found
    : ∀ segment ∈ copiedSegments noffH, ∀ i ∈ turns segment, ∀ byte,
        fileByte file segment i = some byte
        → after.space.byteAt after.memory (byteAddress segment i) = some byte

/-- The read-only data, written to its virtual addresses as if they were physical ones, does no
harm: the segments agree where they overlap, bytes outside the new frames are as they were,
bytes of the new frames are overwritten only with what belongs there, and what belongs
elsewhere was there before or is copied with another segment.
-/
structure Undisturbed (taken : List Int) (file : HostFile) (noffH : NoffHeader)
    (before : Buffer)
    : Prop where
  agree
    : ∀ left ∈ copiedSegments noffH, ∀ right ∈ copiedSegments noffH,
      ∀ i ∈ turns left, ∀ j ∈ turns right, byteAddress left i = byteAddress right j
        → ∀ leftByte rightByte, fileByte file left i = some leftByte
          → fileByte file right j = some rightByte
          → leftByte = rightByte
  spared
    : ∀ k ∈ turns noffH.readonlyData, ∀ byte, fileByte file noffH.readonlyData k = some byte
      → ((byteAddress noffH.readonlyData k / pageSize : Nat) : Int) ∉ taken
      → before (byteAddress noffH.readonlyData k) = byte
  hit
    : ∀ segment ∈ copiedSegments noffH, ∀ i ∈ turns segment, ∀ byte,
        fileByte file segment i = some byte
        → ∀ k ∈ turns noffH.readonlyData,
            place taken (byteAddress segment i) = some (byteAddress noffH.readonlyData k)
            → ∀ other, fileByte file noffH.readonlyData k = some other → other = byte
  missed
    : ∀ i ∈ turns noffH.readonlyData, ∀ byte physical,
        fileByte file noffH.readonlyData i = some byte
        → place taken (byteAddress noffH.readonlyData i) = some physical
        → (∀ k ∈ turns noffH.readonlyData, byteAddress noffH.readonlyData k = physical
            → fileByte file noffH.readonlyData k = none)
        → before physical = byte
          ∨ ∃ segment ∈ [noffH.code, noffH.initData], ∃ j ∈ turns segment,
              byteAddress segment j = byteAddress noffH.readonlyData i
              ∧ fileByte file segment j ≠ none

-----------------------------------------------------------------------------------------
-- A run of `Load`
-----------------------------------------------------------------------------------------

/-- Positions that do not become negative are those of the file, as an `int` starts over
below zero.
-/
theorem positions_of_readable (range : CInt.InRange segment.inFileAddr)
    (readable : ∀ i ∈ turns segment, 0 ≤ CInt.wrap (segment.inFileAddr + i))
    : ∀ i ∈ turns segment,
        0 ≤ segment.inFileAddr + i
        ∧ CInt.wrap (segment.inFileAddr + i) = segment.inFileAddr + i := by
  intro i member
  have small := List.mem_range.mp member
  have first := readable 0 (List.mem_range.mpr (Nat.zero_lt_of_lt small))
  rw [Int.natCast_zero, Int.add_zero, CInt.wrap_of_inRange range] at first
  obtain ⟨_, high⟩ := range
  have below : segment.inFileAddr + i < 2147483648 := by
    by_contra beyond
    have turn := readable (2147483648 - segment.inFileAddr).toNat (List.mem_range.mpr (by omega))
    rw [Int.toNat_of_nonneg (by omega), CInt.wrap] at turn
    omega
  exact ⟨by omega, CInt.wrap_of_lt (by omega) below⟩

/-- What a loop over a segment did when it returned. -/
theorem copied_of_copySegment (frames : Frames taken) (maps : Maps state.space taken)
    (inside : Inside taken.length segment) (range : CInt.InRange segment.inFileAddr)
    (returned : (copySegment file segment).run state = (.ok (), after))
    : Maps after.space taken
      ∧ after.memory.frames = state.memory.frames
      ∧ Copied (place taken) file segment (turns segment) state.memory.mainMemory
          after.memory.mainMemory := by
  rw [inside.copySegment_eq frames] at returned
  have positions := positions_of_readable range
    (readable_of_copyBytes frames maps inside.proper returned)
  obtain ⟨final, ran, mapsFinal, same, copied⟩ :=
    @copyBytes_returns taken file segment state (turns segment) List.nodup_range frames maps
      inside.proper positions
  rw [returned] at ran
  obtain rfl : after = final := congrArg Prod.snd ran
  exact ⟨mapsFinal, same, copied⟩

/-- The bytes of the read-only data. -/
def readonlyBytes (file : HostFile) (segment : Segment) : List Byte :=
  (file.drop segment.inFileAddr.toNat).take segment.size.toNat

theorem getElem?_readonlyBytes (nonneg : 0 ≤ segment.inFileAddr) (i : Nat)
    : (readonlyBytes file segment)[i]?
      = if i < segment.size.toNat then fileByte file segment i else none := by
  rw [readonlyBytes, List.getElem?_take, List.getElem?_drop, fileByte]
  have position : (segment.inFileAddr + i).toNat = segment.inFileAddr.toNat + i := by omega
  rw [position]

/-- The block that is read has each byte at its virtual address. -/
theorem copied_blit {numPages : Nat} (inside : Inside numPages segment)
    (position : 0 < segment.size → 0 ≤ segment.inFileAddr) (before : Buffer)
    : Copied some file segment (turns segment) before
        (blit before segment.virtualAddr.toNat (ofList (readonlyBytes file segment))
          (readonlyBytes file segment).length) := by
  have stored {i : Nat} (member : i ∈ turns segment)
      : (readonlyBytes file segment)[i]? = fileByte file segment i
        ∧ byteAddress segment i = segment.virtualAddr.toNat + i := by
    have small := List.mem_range.mp member
    have positive : 0 < segment.size := by omega
    rw [getElem?_readonlyBytes (position positive), if_pos small]
    refine ⟨rfl, ?_⟩
    have nonneg := (inside.range positive).1
    rw [byteAddress]
    omega
  refine ⟨fun i member byte physical found there => ?_, fun physical untouched => ?_⟩
  · obtain ⟨same, address⟩ := stored member
    rw [found] at same
    have small := (List.getElem?_eq_some_iff.mp same).1
    obtain rfl : segment.virtualAddr.toNat + i = physical := address.symm.trans (Option.some.inj there)
    rw [blit_inside _ _ (Nat.le_add_right _ _) (Nat.add_lt_add_left small _),
      Nat.add_sub_cancel_left, ofList, List.getD_eq_getElem?_getD, same, Option.getD_some]
  · refine blit_outside _ _ ?_
    by_contra within
    have short : (readonlyBytes file segment).length ≤ segment.size.toNat := by
      rw [readonlyBytes, List.length_take]
      exact Nat.min_le_left _ _
    obtain ⟨i, rfl⟩ := Nat.exists_eq_add_of_le (show segment.virtualAddr.toNat ≤ physical by omega)
    obtain ⟨same, address⟩ := stored (List.mem_range.mpr (show i < segment.size.toNat by omega))
    rw [untouched i (List.mem_range.mpr (by omega)) (congrArg some address),
      List.getElem?_eq_none_iff] at same
    omega

/-- What the read-only data did when it was read. -/
theorem copied_of_readReadonlyData {numPages : Nat} (inside : Inside numPages segment)
    (returned : (readReadonlyData file segment).run state = (.ok (), after))
    : after.space = state.space
      ∧ after.memory.frames = state.memory.frames
      ∧ Copied some file segment (turns segment) state.memory.mainMemory
          after.memory.mainMemory := by
  rw [readReadonlyData] at returned
  by_cases positive : segment.size > 0
  · rw [if_pos positive, HostFile.readAt] at returned
    by_cases readable : 0 ≤ segment.inFileAddr
    · rw [if_pos readable] at returned
      simp only [attempt] at returned
      rw [Routine.run_bind_ok (Routine.run_pure _ state), writeMemory] at returned
      obtain ⟨_, middle, asserted, wrote⟩ := Routine.of_run_bind_ok returned
      by_cases fits : readonlyBytes file segment = []
          ∨ (0 ≤ segment.virtualAddr
            ∧ segment.virtualAddr + (readonlyBytes file segment).length ≤ memorySize)
      · rw [readonlyBytes] at fits
        rw [Routine.run_assert_of fits] at asserted
        obtain rfl : state = middle := congrArg Prod.snd asserted
        rw [Routine.run_bind_ok (Routine.run_get state)] at wrote
        obtain rfl := congrArg Prod.snd wrote
        exact ⟨rfl, rfl, copied_blit inside (fun _ => readable) _⟩
      · rw [readonlyBytes] at fits
        rw [Routine.run_assert_not fits] at asserted
        cases asserted
    · rw [if_neg readable] at returned
      cases returned
  · rw [if_neg positive] at returned
    obtain rfl : state = after := congrArg Prod.snd returned
    have none : turns segment = [] := by
      rw [turns, Int.toNat_of_nonpos (not_lt.mp positive), List.range_zero]
    rw [none]
    exact ⟨rfl, rfl, fun _ absent => absurd absent List.not_mem_nil, fun _ _ => rfl⟩

/-- The frames that the loop takes. -/
def newFrames (state : Loading) (noffH : NoffHeader) : List Int :=
  state.memory.frames.free.take (tablePages noffH)

/-- What a `Load` that returned TRUE did: first the frames, then code and initialized data
through the table, then the read-only data.
-/
structure Loaded (state after : Loading) (file : HostFile) (noffH : NoffHeader)
    (middle last : Buffer)
    : Prop where
  takes : state.memory.frames.Takes after.memory.frames (newFrames state noffH)
  length : (newFrames state noffH).length = tablePages noffH
  frames : Frames (newFrames state noffH)
  maps : Maps after.space (newFrames state noffH)
  code
    : Copied (place (newFrames state noffH)) file noffH.code (turns noffH.code)
        state.memory.mainMemory middle
  initData
    : Copied (place (newFrames state noffH)) file noffH.initData (turns noffH.initData) middle last
  readonlyData
    : Copied some file noffH.readonlyData (turns noffH.readonlyData) last after.memory.mainMemory

theorem inRange_read (stack : Buffer) (file : HostFile)
    : CInt.InRange (NoffHeader.read stack file).code.inFileAddr
      ∧ CInt.InRange (NoffHeader.read stack file).initData.inFileAddr :=
  ⟨CInt.wrap_inRange _, CInt.wrap_inRange _⟩

/-- A load that returned went through the memories of its segments, one after the other. -/
theorem exists_loaded
    (inside
      : ∀ segment ∈ copiedSegments (NoffHeader.read stack file),
          Inside (tablePages (NoffHeader.read stack file)) segment)
    (returned : (load stack heap (some file)).run state = (.ok true, after))
    : ∃ middle last, Loaded state after file (NoffHeader.read stack file) middle last := by
  simp only [copiedSegments, List.forall_mem_cons] at inside
  obtain ⟨codeInside, initInside, readonlyInside, _⟩ := inside
  obtain ⟨codeRange, initRange⟩ := inRange_read stack file
  simp only [load] at returned
  obtain ⟨_, first, asserted, returned⟩ := Routine.of_run_bind_ok returned
  by_cases magic : (NoffHeader.read stack file).noffMagic = noffMagic
  swap
  · rw [Routine.run_assert_not magic] at asserted
    cases asserted
  rw [Routine.run_assert_of magic] at asserted
  obtain rfl : state = first := congrArg Prod.snd asserted
  obtain ⟨_, second, allocated, returned⟩ := Routine.of_run_bind_ok returned
  by_cases enough : 2 * tablePages (NoffHeader.read stack file) ≤ state.memory.frames.numClear + 1
  swap
  · have stopped := @allocate_stops state heap _ (not_le.mp enough)
    rw [allocated] at stopped
    cases stopped
  obtain ⟨taken, bitmap, ran, takes, length, order⟩ := @allocate_returns state heap _ enough
  rw [allocated] at ran
  obtain rfl := congrArg Prod.snd ran
  have new : newFrames state (NoffHeader.read stack file) = taken := order.symm
  have frames : Frames taken := by
    refine ⟨?_, takes.distinct, takes.inside⟩
    have few := Bitmap.numClear_le state.memory.frames
    omega
  have maps := maps_newEntries taken
  rw [length] at maps
  rw [← length] at codeInside initInside
  obtain ⟨_, third, codeRan, returned⟩ := Routine.of_run_bind_ok returned
  obtain ⟨codeMaps, codeFrames, code⟩ := copied_of_copySegment frames maps codeInside codeRange codeRan
  obtain ⟨_, fourth, initRan, returned⟩ := Routine.of_run_bind_ok returned
  obtain ⟨initMaps, initFrames, initData⟩ :=
    copied_of_copySegment frames codeMaps initInside initRange initRan
  obtain ⟨_, fifth, readonlyRan, returned⟩ := Routine.of_run_bind_ok returned
  obtain ⟨space, bits, readonlyData⟩ := copied_of_readReadonlyData readonlyInside readonlyRan
  obtain rfl : fifth = after := congrArg Prod.snd returned
  refine ⟨third.memory.mainMemory, fourth.memory.mainMemory, ?_, new ▸ length, ?_, ?_, ?_, ?_,
    readonlyData⟩
  · rw [new, bits, initFrames, codeFrames]
    exact takes
  · rwa [new]
  · rw [new, space]
    exact initMaps
  · rw [new]
    exact code
  · rw [new]
    exact initData

-----------------------------------------------------------------------------------------
-- Isolation
-----------------------------------------------------------------------------------------

/-- The frames that `Load` allocated are those that are marked now and were not before. -/
theorem Loaded.mem_newFrames {middle last : Buffer}
    (loaded : Loaded state after file noffH middle last) (frame : Nat)
    : (frame : Int) ∈ newFrames state noffH
      ↔ state.memory.frames.testBit frame = false ∧ after.memory.frames.testBit frame = true := by
  rw [loaded.takes.bits]
  constructor
  · intro member
    have clear := loaded.takes.clear _ member
    rw [Int.toNat_natCast] at clear
    exact ⟨clear, by rw [decide_eq_true member, Bool.true_or]⟩
  · rintro ⟨clear, marked⟩
    rw [clear, Bool.or_false, decide_eq_true_iff] at marked
    exact marked

theorem Loaded.byteAt {middle last : Buffer}
    (loaded : Loaded state after file noffH middle last) (address : Nat)
    : after.space.byteAt after.memory address
      = (place (newFrames state noffH) address).map after.memory.mainMemory := by
  rw [AddrSpace.byteAt, loaded.maps.physicalAddress loaded.frames]

/-- Bytes of a place that no byte of a segment goes to. -/
theorem Copied.kept_of_uncovered {before after : Buffer} {address physical : Nat}
    (frames : Frames taken)
    (copied : Copied (place taken) file segment (turns segment) before after)
    (found : place taken address = some physical)
    (uncovered
      : ∀ j ∈ turns segment, byteAddress segment j = address → fileByte file segment j = none)
    : after physical = before physical :=
  copied.kept physical (fun j member there =>
    uncovered j member (place_injective frames there found))

/-- A byte of a segment that goes to an address. -/
def Covers (file : HostFile) (address : Nat) (segment : Segment) : Prop :=
  ∃ j ∈ turns segment, byteAddress segment j = address ∧ fileByte file segment j ≠ none

theorem fileByte_of_not_covers {address j : Nat} (uncovered : ¬Covers file address segment)
    (turn : j ∈ turns segment) (there : byteAddress segment j = address)
    : fileByte file segment j = none := by
  by_contra present
  exact uncovered ⟨j, turn, there, present⟩

/-- Before the read-only data is read, a place that it misses holds what belongs there. -/
theorem Loaded.last_eq {middle last : Buffer}
    (loaded : Loaded state after file noffH middle last)
    (undisturbed : Undisturbed (newFrames state noffH) file noffH state.memory.mainMemory)
    {i physical : Nat} {byte : Byte} (member : segment ∈ copiedSegments noffH)
    (turn : i ∈ turns segment) (stored : fileByte file segment i = some byte)
    (there : place (newFrames state noffH) (byteAddress segment i) = some physical)
    (missed : ¬Covers file physical noffH.readonlyData)
    : last physical = byte := by
  have own : Covers file (byteAddress segment i) segment :=
    ⟨i, turn, rfl, by rw [stored]; exact Option.some_ne_none byte⟩
  by_cases initCovers : Covers file (byteAddress segment i) noffH.initData
  · obtain ⟨j, turnJ, same, present⟩ := initCovers
    obtain ⟨other, storedJ⟩ := Option.ne_none_iff_exists'.mp present
    rw [loaded.initData.written j turnJ other physical storedJ (by rw [same, there])]
    exact undisturbed.agree _ (.tail _ (.head _)) _ member j turnJ i turn same other byte storedJ
      stored
  · rw [loaded.initData.kept_of_uncovered loaded.frames there
      (fun _ => fileByte_of_not_covers initCovers)]
    by_cases codeCovers : Covers file (byteAddress segment i) noffH.code
    · obtain ⟨j, turnJ, same, present⟩ := codeCovers
      obtain ⟨other, storedJ⟩ := Option.ne_none_iff_exists'.mp present
      rw [loaded.code.written j turnJ other physical storedJ (by rw [same, there])]
      exact undisturbed.agree _ (.head _) _ member j turnJ i turn same other byte storedJ stored
    · rw [loaded.code.kept_of_uncovered loaded.frames there
        (fun _ => fileByte_of_not_covers codeCovers)]
      simp only [copiedSegments, List.mem_cons, List.not_mem_nil, or_false] at member
      rcases member with rfl | rfl | rfl
      · exact absurd own codeCovers
      · exact absurd own initCovers
      · rcases undisturbed.missed i turn byte physical stored there
          (fun _ => fileByte_of_not_covers missed) with same | ⟨other, isOther, covers⟩
        · exact same
        · simp only [List.mem_cons, List.not_mem_nil, or_false] at isOther
          rcases isOther with rfl | rfl
          · exact absurd covers codeCovers
          · exact absurd covers initCovers

/-- The read-only data undisturbed is what isolation needs. -/
theorem Loaded.isolates_of_undisturbed {middle last : Buffer}
    (loaded : Loaded state after file noffH middle last)
    (inside : ∀ segment ∈ copiedSegments noffH, Inside (newFrames state noffH).length segment)
    (undisturbed : Undisturbed (newFrames state noffH) file noffH state.memory.mainMemory)
    : Isolates state after file noffH := by
  refine ⟨fun address differs => ?_, fun segment member i turn byte stored => ?_⟩
  · rw [← loaded.mem_newFrames]
    by_contra outside
    have noPlace (other : Nat) : place (newFrames state noffH) other ≠ some address :=
      fun there => outside (place_frame loaded.frames there)
    have untouched : last address = state.memory.mainMemory address := by
      rw [loaded.initData.kept address (fun _ _ there => absurd there (noPlace _)),
        loaded.code.kept address (fun _ _ there => absurd there (noPlace _))]
    by_cases hit : Covers file address noffH.readonlyData
    · obtain ⟨k, turn, rfl, present⟩ := hit
      obtain ⟨byte, stored⟩ := Option.ne_none_iff_exists'.mp present
      refine differs ?_
      rw [loaded.readonlyData.written k turn byte _ stored rfl,
        undisturbed.spared k turn byte stored outside]
    · refine differs ((loaded.readonlyData.kept address (fun k turn there => ?_)).trans untouched)
      exact fileByte_of_not_covers hit turn (Option.some.inj there)
  · obtain ⟨_, physical, there⟩ := ((inside segment member).proper i turn).place loaded.frames
    rw [loaded.byteAt, there, Option.map_some]
    congr 1
    by_cases hit : Covers file physical noffH.readonlyData
    · obtain ⟨k, turnK, rfl, present⟩ := hit
      obtain ⟨other, storedK⟩ := Option.ne_none_iff_exists'.mp present
      rw [loaded.readonlyData.written k turnK other _ storedK rfl]
      exact undisturbed.hit segment member i turn byte stored k turnK there other storedK
    · rw [loaded.readonlyData.kept physical (fun k turnK same =>
        fileByte_of_not_covers hit turnK (Option.some.inj same))]
      exact loaded.last_eq undisturbed member turn stored there hit

/-- A load that isolates writes the read-only data over no byte of another program. Witness: the
byte that was stored there.
-/
theorem Loaded.undisturbed_of_isolates {middle last : Buffer}
    (loaded : Loaded state after file noffH middle last)
    (isolates : Isolates state after file noffH)
    : Undisturbed (newFrames state noffH) file noffH state.memory.mainMemory := by
  have holds {segment : Segment} {i physical : Nat} {byte : Byte}
      (member : segment ∈ copiedSegments noffH) (turn : i ∈ turns segment)
      (stored : fileByte file segment i = some byte)
      (there : place (newFrames state noffH) (byteAddress segment i) = some physical)
      : after.memory.mainMemory physical = byte := by
    have found := isolates.found segment member i turn byte stored
    rw [loaded.byteAt, there, Option.map_some] at found
    exact Option.some.inj found
  refine ⟨?_, ?_, ?_, ?_⟩
  · intro left leftMember right rightMember i turnI j turnJ same a b storedA storedB
    have first := isolates.found left leftMember i turnI a storedA
    have second := isolates.found right rightMember j turnJ b storedB
    rw [same, second] at first
    exact (Option.some.inj first).symm
  · intro k turn byte stored outside
    have written := loaded.readonlyData.written k turn byte _ stored rfl
    by_contra differs
    refine outside ((loaded.mem_newFrames _).mpr (isolates.changed _ ?_))
    rw [written]
    exact fun same => differs same.symm
  · intro segment member i turn byte stored k turnK there other storedK
    rw [← holds member turn stored there, loaded.readonlyData.written k turnK other _ storedK rfl]
  · intro i turn byte physical stored there missed
    have held := holds (.tail _ (.tail _ (.head _))) turn stored there
    rw [loaded.readonlyData.kept physical (fun k turnK same => missed k turnK (Option.some.inj same))]
      at held
    by_cases initCovers : Covers file (byteAddress noffH.readonlyData i) noffH.initData
    · exact .inr ⟨noffH.initData, .tail _ (.head _), initCovers⟩
    · rw [loaded.initData.kept_of_uncovered loaded.frames there
        (fun _ => fileByte_of_not_covers initCovers)] at held
      by_cases codeCovers : Covers file (byteAddress noffH.readonlyData i) noffH.code
      · exact .inr ⟨noffH.code, .head _, codeCovers⟩
      · rw [loaded.code.kept_of_uncovered loaded.frames there
          (fun _ => fileByte_of_not_covers codeCovers)] at held
        exact .inl held

/-- A `Load` that returned TRUE changed only the frames that it allocated, and put every byte of
the segments where the page table maps it, exactly if the read-only data did no harm.
-/
theorem isolates_iff
    (inside
      : ∀ segment ∈ copiedSegments (NoffHeader.read stack file),
          Inside (tablePages (NoffHeader.read stack file)) segment)
    (returned : (load stack heap (some file)).run state = (.ok true, after))
    : Isolates state after file (NoffHeader.read stack file)
      ↔ Undisturbed (newFrames state (NoffHeader.read stack file)) file
          (NoffHeader.read stack file) state.memory.mainMemory := by
  obtain ⟨middle, last, loaded⟩ := exists_loaded inside returned
  rw [← loaded.length] at inside
  exact ⟨loaded.undisturbed_of_isolates, loaded.isolates_of_undisturbed inside⟩

/-- A program whose frames were in use reads the same bytes as before. -/
theorem Isolates.spares (isolates : Isolates state after file noffH) {other : AddrSpace}
    (inUse : ∀ frame : Nat, (frame : Int) ∈ other.frames → state.memory.frames.testBit frame = true)
    (address : Nat)
    : other.byteAt after.memory address = other.byteAt state.memory address := by
  rw [AddrSpace.byteAt, AddrSpace.byteAt]
  cases maps : other.physicalAddress address with
  | none => rfl
  | some physical =>
      have marked := inUse _ (AddrSpace.frame_of_physicalAddress maps)
      rw [Option.map_some, Option.map_some]
      by_contra differs
      obtain ⟨clear, _⟩ := isolates.changed physical (fun same => differs (congrArg some same))
      rw [marked] at clear
      cases clear

-----------------------------------------------------------------------------------------
-- A program with and without read-only data
-----------------------------------------------------------------------------------------

/-- A segment inside the table, from a range of the file without overflow, is copied. -/
theorem Inside.copySegment_returns (inside : Inside taken.length segment)
    (frames : Frames taken) (maps : Maps state.space taken)
    (inFile : 0 ≤ segment.inFileAddr ∧ segment.inFileAddr + segment.size < 2147483648)
    : ∃ after,
        (copySegment file segment).run state = (.ok (), after)
        ∧ Maps after.space taken
        ∧ after.memory.frames = state.memory.frames := by
  rw [inside.copySegment_eq frames]
  obtain ⟨after, ran, mapsAfter, same, _⟩ :=
    @copyBytes_returns taken file segment state (turns segment) List.nodup_range frames maps
      inside.proper (fun i turn => by
        have small := List.mem_range.mp turn
        exact ⟨by omega, CInt.wrap_of_lt (by omega) (by omega)⟩)
  exact ⟨after, ran, mapsAfter, same⟩

/-- Read-only data inside the table is read, by cases on whether there is any. -/
theorem Inside.readReadonlyData_returns (inside : Inside taken.length segment)
    (few : taken.length ≤ numPhysPages) (position : 0 ≤ segment.inFileAddr) (state : Loading)
    : ∃ after, (readReadonlyData file segment).run state = (.ok (), after) := by
  rw [readReadonlyData]
  by_cases positive : segment.size > 0
  · obtain ⟨nonneg, fits⟩ := inside.range positive
    have most : taken.length * pageSize ≤ memorySize := Nat.mul_le_mul_right pageSize few
    have short : (readonlyBytes file segment).length ≤ segment.size.toNat := by
      rw [readonlyBytes, List.length_take]
      exact Nat.min_le_left _ _
    have within : readonlyBytes file segment = []
        ∨ (0 ≤ segment.virtualAddr
          ∧ segment.virtualAddr + (readonlyBytes file segment).length ≤ memorySize) :=
      .inr ⟨nonneg, by omega⟩
    rw [readonlyBytes] at within
    rw [if_pos positive, HostFile.readAt, if_pos position]
    simp only [attempt]
    rw [Routine.run_bind_ok (Routine.run_pure _ state), writeMemory,
      Routine.run_bind_ok (Routine.run_assert_of within _ _)]
    exact ⟨_, rfl⟩
  · rw [if_neg positive]
    exact ⟨state, rfl⟩

/-- `Load` returns TRUE for a program that is admitted and lies inside its file. -/
theorem exists_load (heap : Nat → TranslationEntry)
    (magic : (NoffHeader.read stack file).noffMagic = noffMagic)
    (inside
      : ∀ segment ∈ copiedSegments (NoffHeader.read stack file),
          Inside (tablePages (NoffHeader.read stack file)) segment)
    (inFile
      : ∀ segment ∈ copiedSegments (NoffHeader.read stack file),
          0 ≤ segment.inFileAddr ∧ segment.inFileAddr + segment.size < 2147483648)
    (enough : 2 * tablePages (NoffHeader.read stack file) ≤ state.memory.frames.numClear + 1)
    : ∃ after, (load stack heap (some file)).run state = (.ok true, after) := by
  obtain ⟨taken, bitmap, allocated, takes, length, _⟩ := @allocate_returns state heap _ enough
  rw [← length] at inside
  simp only [copiedSegments, List.forall_mem_cons] at inside inFile
  obtain ⟨codeInside, initInside, readonlyInside, _⟩ := inside
  obtain ⟨codeInFile, initInFile, readonlyInFile, _⟩ := inFile
  have few : taken.length ≤ numPhysPages := by
    have most := Bitmap.numClear_le state.memory.frames
    omega
  have frames : Frames taken := ⟨few, takes.distinct, takes.inside⟩
  have maps := maps_newEntries taken
  rw [length] at maps
  obtain ⟨second, code, codeMaps, _⟩ :=
    @Inside.copySegment_returns taken file _ ⟨_, { state.memory with frames := bitmap }⟩ codeInside
      frames maps codeInFile
  obtain ⟨third, initData, _⟩ := initInside.copySegment_returns frames codeMaps initInFile
  obtain ⟨fourth, readonlyData⟩ := readonlyInside.readReadonlyData_returns few readonlyInFile.1 third
  refine ⟨fourth, ?_⟩
  simp only [load]
  rw [Routine.run_bind_ok (Routine.run_assert_of magic _ state), Routine.run_bind_ok allocated,
    Routine.run_bind_ok code, Routine.run_bind_ok initData, Routine.run_bind_ok readonlyData]
  rfl

/-- The header of a program with a page of code and so many bytes of read-only data. -/
def textHeader (readonly : Byte) : HostFile :=
  [0xad, 0xdf, 0xba, 0, 0, 0, 0, 0, 52, 0, 0, 0, 128, 0, 0, 0] ++ List.replicate 12 0
    ++ [128, 0, 0, 0, 180, 0, 0, 0, readonly, 0, 0, 0] ++ List.replicate 12 0

def textProgram (readonly : Byte) : HostFile :=
  textHeader readonly ++ (List.replicate 128 1 ++ [7])

/-- The header of the programs of the witness, read word by word. -/
theorem read_textProgram {readonly : Byte} (either : readonly = 0 ∨ readonly = 1)
    (stack : Buffer)
    : NoffHeader.read stack (textProgram readonly)
      = {
          noffMagic
          code := { virtualAddr := 0, inFileAddr := 52, size := 128 }
          initData := { virtualAddr := 0, inFileAddr := 0, size := 0 }
          readonlyData := { virtualAddr := 128, inFileAddr := 180, size := readonly.toNat }
          uninitData := { virtualAddr := 0, inFileAddr := 0, size := 0 }
        } := by
  rw [textProgram, NoffHeader.read_of_length rfl]
  rcases either with rfl | rfl
  · decide +kernel
  · decide +kernel

/-- The programs of the witness are loaded when there is room. -/
theorem exists_load_text {readonly : Byte} (either : readonly = 0 ∨ readonly = 1)
    (heap : Nat → TranslationEntry) (room : 19 ≤ state.memory.frames.numClear)
    : (∀ segment ∈ copiedSegments (NoffHeader.read stack (textProgram readonly)),
        Inside (tablePages (NoffHeader.read stack (textProgram readonly))) segment)
      ∧ ∃ after, (load stack heap (some (textProgram readonly))).run state = (.ok true, after) := by
  have header := read_textProgram either stack
  have pages : tablePages (NoffHeader.read stack (textProgram readonly)) = 9 + readonly.toNat := by
    rw [header]
    rcases either with rfl | rfl <;> decide
  have inside : ∀ segment ∈ copiedSegments (NoffHeader.read stack (textProgram readonly)),
      Inside (tablePages (NoffHeader.read stack (textProgram readonly))) segment := by
    rw [pages, header, copiedSegments]
    simp only [List.forall_mem_cons]
    refine ⟨⟨?_, ?_⟩, ⟨?_, ?_⟩, ⟨?_, ?_⟩, fun _ absent => absurd absent List.not_mem_nil⟩
    all_goals rcases either with rfl | rfl <;> decide
  have most : readonly.toNat ≤ 1 := by rcases either with rfl | rfl <;> decide
  refine ⟨inside, exists_load heap (by rw [header]) inside ?_ (by omega)⟩
  rw [header, copiedSegments]
  rcases either with rfl | rfl <;> decide

/-- A program of code alone has nothing that could do harm. -/
theorem undisturbed_of_code (initData : noffH.initData.size = 0)
    (readonlyData : noffH.readonlyData.size = 0) (code : 0 ≤ noffH.code.virtualAddr)
    {before : Buffer}
    : Undisturbed taken file noffH before := by
  have noInit : turns noffH.initData = [] := by rw [turns, initData]; rfl
  have noReadonly : turns noffH.readonlyData = [] := by rw [turns, readonlyData]; rfl
  have onlyCode {segment : Segment} {i : Nat} (member : segment ∈ copiedSegments noffH)
      (turn : i ∈ turns segment)
      : segment = noffH.code := by
    simp only [copiedSegments, List.mem_cons, List.not_mem_nil, or_false] at member
    rcases member with rfl | rfl | rfl
    · rfl
    · rw [noInit] at turn
      exact absurd turn List.not_mem_nil
    · rw [noReadonly] at turn
      exact absurd turn List.not_mem_nil
  refine ⟨?_, ?_, ?_, ?_⟩
  · intro left leftMember right rightMember i turnI j turnJ same a b storedA storedB
    obtain rfl := onlyCode leftMember turnI
    obtain rfl := onlyCode rightMember turnJ
    have equal : i = j := by
      rw [byteAddress, byteAddress] at same
      omega
    subst equal
    exact Option.some.inj (storedA.symm.trans storedB)
  all_goals rw [noReadonly]
  · exact fun _ absent => absurd absent List.not_mem_nil
  · exact fun _ _ _ _ _ _ _ absent => absurd absent List.not_mem_nil
  · exact fun _ absent => absurd absent List.not_mem_nil

/-- A program without read-only data is isolated from the others. -/
theorem isolates_of_code
    : ∃ (heap : Nat → TranslationEntry) (state after : Loading),
        state.memory.frames = .new numPhysPages
        ∧ (load (fun _ => 0) heap (some (textProgram 0))).run state = (.ok true, after)
        ∧ Isolates state after (textProgram 0)
            (NoffHeader.read (fun _ => 0) (textProgram 0)) := by
  obtain ⟨state, fresh⟩ : ∃ state : Loading, state.memory.frames = .new numPhysPages :=
    ⟨{ space := .new, memory := { frames := .new numPhysPages, mainMemory := fun _ => 0 } }, rfl⟩
  obtain ⟨inside, after, returned⟩ :=
    @exists_load_text state (fun _ => 0) 0 (.inl rfl) (fun _ => newEntry 0 0) (by
      rw [fresh, Bitmap.numClear_new]
      decide)
  refine ⟨_, state, after, fresh, returned, (isolates_iff inside returned).mpr ?_⟩
  rw [read_textProgram (.inl rfl)]
  exact undisturbed_of_code rfl rfl (le_refl 0)

/-- The read-only data of a program is written to a frame of another one. -/
theorem readonlyData_hits_other_program
    : ¬∀ (stack : Buffer) (heap : Nat → TranslationEntry) (file : HostFile)
        (state after : Loading),
        (∀ segment ∈ copiedSegments (NoffHeader.read stack file),
          Inside (tablePages (NoffHeader.read stack file)) segment)
        → (load stack heap (some file)).run state = (.ok true, after)
        → Isolates state after file (NoffHeader.read stack file) := by
  intro all
  obtain ⟨state, used, zero⟩ : ∃ state : Loading,
      state.memory.frames = (List.range 10).foldl Bitmap.markBit (.new numPhysPages)
      ∧ state.memory.mainMemory = fun _ => 0 :=
    ⟨{
      space := .new
      memory := {
        frames := (List.range 10).foldl Bitmap.markBit (.new numPhysPages)
        mainMemory := fun _ => 0
      }
    }, rfl, rfl⟩
  obtain ⟨inside, after, returned⟩ :=
    @exists_load_text state (fun _ => 0) 1 (.inr rfl) (fun _ => newEntry 0 0) (by
      rw [used]
      decide +kernel)
  have isolates := all _ _ _ _ _ inside returned
  obtain ⟨middle, last, loaded⟩ := exists_loaded inside returned
  have written : after.memory.mainMemory 128 = 7 := by
    refine loaded.readonlyData.written 0 ?_ 7 128 ?_ ?_
    · rw [read_textProgram (.inr rfl)]
      decide
    · rw [read_textProgram (.inr rfl)]
      decide +kernel
    · rw [read_textProgram (.inr rfl)]
      decide
  obtain ⟨clear, _⟩ := isolates.changed 128 (by
    rw [written, zero]
    decide)
  rw [used] at clear
  revert clear
  decide +kernel

end Nachos.UserProg.Mp3
