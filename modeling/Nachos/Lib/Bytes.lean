import Mathlib.Logic.Function.Basic
import Nachos.Lib.CInt

/-! Bytes in memory: buffers addressed by offset, block copies, 32-bit words in
little-endian order, and the bounded C string functions.
-/

namespace Bytes

abbrev Byte := UInt8

/-- The bytes seen through a pointer, by offset from it. -/
abbrev Buffer := Nat → Byte

/-- A buffer that starts with the given bytes and goes on with zeros. -/
def ofList (bytes : List Byte) : Buffer := fun offset => bytes.getD offset 0

-----------------------------------------------------------------------------------------
-- Block copies
-----------------------------------------------------------------------------------------

/-- Copy `count` bytes of `source` into `target` from offset `start` on. -/
def blit (target : Buffer) (start : Nat) (source : Buffer) (count : Nat) : Buffer :=
  fun offset =>
    if start ≤ offset ∧ offset < start + count then source (offset - start)
    else target offset

@[simp]
theorem blit_zero (target source : Buffer) (start : Nat)
    : blit target start source 0 = target := by
  funext offset
  simp only [blit, Nat.add_zero]
  rw [if_neg (by omega)]

/-- Inside the copied range the target holds the source. -/
theorem blit_inside (target source : Buffer) {start count offset : Nat}
    (low : start ≤ offset) (high : offset < start + count)
    : blit target start source count offset = source (offset - start) :=
  if_pos ⟨low, high⟩

/-- Outside the copied range the target keeps its bytes. -/
theorem blit_outside (target source : Buffer) {start count offset : Nat}
    (outside : offset < start ∨ start + count ≤ offset)
    : blit target start source count offset = target offset :=
  if_neg (by omega)

/-- A copy depends only on the bytes copied. -/
theorem blit_congr (target : Buffer) (start : Nat) {left right : Buffer} {count : Nat}
    (same : ∀ offset < count, left offset = right offset)
    : blit target start left count = blit target start right count := by
  funext offset
  simp only [blit]
  split
  · exact same _ (by omega)
  · rfl

-----------------------------------------------------------------------------------------
-- Little-endian words
-----------------------------------------------------------------------------------------

/-- Byte `index` of a 32-bit word, the least significant first. -/
def wordByte (word : Nat) (index : Nat) : Byte := UInt8.ofNat (word / 256 ^ index)

/-- The 32-bit word stored in the four bytes of a buffer from `start` on. -/
def wordAt (buffer : Buffer) (start : Nat) : Nat :=
  (buffer start).toNat + 256 * (buffer (start + 1)).toNat
    + 65536 * (buffer (start + 2)).toNat + 16777216 * (buffer (start + 3)).toNat

/-- The `int` stored in the four bytes of a buffer from `start` on. -/
def intAt (buffer : Buffer) (start : Nat) : Int := CInt.wrap (wordAt buffer start)

/-- Byte `index` of an `int` in two's complement. -/
def intByte (value : Int) (index : Nat) : Byte := wordByte (CInt.unsigned value).toNat index

/-- A word is read back from its four bytes. -/
theorem wordAt_eq_of_bytes {buffer : Buffer} {start word : Nat} (small : word < 4294967296)
    (stored : ∀ index < 4, buffer (start + index) = wordByte word index)
    : wordAt buffer start = word := by
  have first := stored 0 (by omega)
  have second := stored 1 (by omega)
  have third := stored 2 (by omega)
  have fourth := stored 3 (by omega)
  rw [Nat.add_zero] at first
  simp only [wordAt, first, second, third, fourth, wordByte, UInt8.toNat_ofNat', Nat.reducePow]
  omega

/-- A word depends only on its four bytes. -/
theorem wordAt_congr {left right : Buffer} {start : Nat}
    (same : ∀ index < 4, left (start + index) = right (start + index))
    : wordAt left start = wordAt right start := by
  have first := same 0 (by omega)
  rw [Nat.add_zero] at first
  simp only [wordAt, first, same 1 (by omega), same 2 (by omega), same 3 (by omega)]

/-- An `int` is read back from its four bytes. -/
theorem intAt_eq_of_bytes {buffer : Buffer} {start : Nat} {value : Int}
    (fits : CInt.InRange value)
    (stored : ∀ index < 4, buffer (start + index) = intByte value index)
    : intAt buffer start = value := by
  have small : (CInt.unsigned value).toNat < 4294967296 := by
    unfold CInt.unsigned
    omega
  have word := wordAt_eq_of_bytes small stored
  unfold CInt.InRange at fits
  simp only [intAt, word, CInt.unsigned, CInt.wrap]
  omega

/-- An `int` depends only on its four bytes. -/
theorem intAt_congr {left right : Buffer} {start : Nat}
    (same : ∀ index < 4, left (start + index) = right (start + index))
    : intAt left start = intAt right start := by
  simp only [intAt, wordAt_congr same]

-----------------------------------------------------------------------------------------
-- Bounded C strings
-----------------------------------------------------------------------------------------

/-- The characters of the string at `start`, up to a NUL and at most `count` of them. -/
def cString (source : Buffer) : Nat → Nat → List Byte
  | _, 0 => []
  | start, count + 1 =>
      if source start = 0 then []
      else source start :: cString source (start + 1) count

/-- `strncmp` from offset `start` on: the difference at the first mismatch. -/
def strncmp (left right : Buffer) : Nat → Nat → Int
  | _, 0 => 0
  | start, count + 1 =>
      if left start ≠ right start then (left start).toNat - (right start).toNat
      else if left start = 0 then 0
      else strncmp left right (start + 1) count

/-- `strncpy`: copy at most `count` characters and pad the rest of `count` with NUL. -/
def strncpy (target source : Buffer) (count : Nat) : Buffer :=
  fun offset =>
    if offset < count then (cString source 0 count).getD offset 0 else target offset

/-- By induction on the bytes that are left. -/
theorem cString_length_le (source : Buffer) (start count : Nat)
    : (cString source start count).length ≤ count := by
  induction count generalizing start with
  | zero => simp [cString]
  | succ count ih =>
      simp only [cString]
      split
      · simp
      · simpa using ih (start + 1)

/-- No character of a C string is NUL. -/
theorem cString_ne_zero (source : Buffer) (start count : Nat)
    : ∀ byte ∈ cString source start count, byte ≠ 0 := by
  induction count generalizing start with
  | zero => simp [cString]
  | succ count ih =>
      simp only [cString]
      split
      · simp
      · rename_i nonzero
        intro byte member
        rcases List.mem_cons.mp member with same | later
        · exact same ▸ nonzero
        · exact ih (start + 1) byte later

/-- Two bounded strings compare equal exactly when their truncations are the same, by
induction on the bound.
-/
theorem strncmp_eq_zero_iff (left right : Buffer) (start count : Nat)
    : strncmp left right start count = 0
      ↔ cString left start count = cString right start count := by
  induction count generalizing start with
  | zero => simp [strncmp, cString]
  | succ count ih =>
      simp only [strncmp, cString]
      by_cases same : left start = right start
      · rw [if_neg (by simpa using same)]
        by_cases ended : left start = 0
        · rw [if_pos ended, if_pos ended, if_pos (same ▸ ended)]
          simp
        · rw [if_neg ended, if_neg ended, if_neg (same ▸ ended), ih (start + 1), same]
          simp
      · rw [if_pos (by simpa using same)]
        have different : (left start).toNat ≠ (right start).toNat :=
          fun equal => same (UInt8.toNat_inj.mp equal)
        constructor
        · intro difference
          omega
        · intro equal
          by_cases leftEnd : left start = 0 <;> by_cases rightEnd : right start = 0
          · exact absurd (leftEnd.trans rightEnd.symm) same
          · simp [leftEnd, rightEnd] at equal
          · simp [leftEnd, rightEnd] at equal
          · simp only [leftEnd, rightEnd, if_false, List.cons.injEq] at equal
            exact absurd equal.1 same

/-- A bounded string is determined by the characters up to its bound. -/
theorem cString_congr {left right : Buffer} {start count : Nat}
    (same : ∀ offset < count, left (start + offset) = right (start + offset))
    : cString left start count = cString right start count := by
  induction count generalizing start with
  | zero => rfl
  | succ count ih =>
      have head := same 0 (by omega)
      rw [Nat.add_zero] at head
      have tail : cString left (start + 1) count = cString right (start + 1) count := by
        refine ih (fun offset small => ?_)
        have next := same (offset + 1) (by omega)
        rwa [show start + (offset + 1) = start + 1 + offset by omega] at next
      simp only [cString, head, tail]

/-- Reading a padded list of characters gives the list back. -/
theorem cString_of_list {buffer : Buffer} {characters : List Byte} {start count : Nat}
    (nonzero : ∀ byte ∈ characters, byte ≠ 0) (short : characters.length ≤ count)
    (stored : ∀ offset < count, buffer (start + offset) = characters.getD offset 0)
    : cString buffer start count = characters := by
  induction characters generalizing start count with
  | nil =>
      cases count with
      | zero => rfl
      | succ count =>
          have head := stored 0 (by omega)
          simp only [Nat.add_zero, List.getD_nil] at head
          simp [cString, head]
  | cons byte rest ih =>
      cases count with
      | zero => simp at short
      | succ count =>
          have head := stored 0 (by omega)
          simp only [Nat.add_zero, List.getD_cons_zero] at head
          have tail : cString buffer (start + 1) count = rest := by
            refine ih (fun other member => nonzero other (List.mem_cons_of_mem _ member))
              (by simpa using short) (fun offset small => ?_)
            have next := stored (offset + 1) (by omega)
            rwa [show start + (offset + 1) = start + 1 + offset by omega,
              List.getD_cons_succ] at next
          have positive : byte ≠ 0 := nonzero byte (by simp)
          simp only [cString, head, tail]
          simp [positive]

/-- A string that ends within its field is the string of the whole field, by induction on the
field.
-/
theorem cString_of_terminated {buffer : Buffer} {start count : Nat}
    (terminated : buffer (start + count) = 0)
    : cString buffer start (count + 1) = cString buffer start count := by
  induction count generalizing start with
  | zero =>
      rw [Nat.add_zero] at terminated
      simp [cString, terminated]
  | succ count ih =>
      have tail := @ih (start + 1) (by rwa [show start + 1 + count = start + (count + 1) by omega])
      rw [cString, tail]
      rfl

/-- A copied string reads back as the truncation of its source. -/
@[simp]
theorem cString_strncpy (target source : Buffer) (count : Nat)
    : cString (strncpy target source count) 0 count = cString source 0 count := by
  refine cString_of_list (cString_ne_zero source 0 count) (cString_length_le source 0 count) ?_
  intro offset small
  simp [strncpy, small]

end Bytes
