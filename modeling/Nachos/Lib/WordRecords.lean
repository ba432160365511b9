import Nachos.Lib.Bytes

/-! Records of 32-bit words in memory, little-endian and without gaps. -/

namespace Bytes

/-- The bytes of a record, by offset from its start. -/
def recordBytes (words : List (BitVec 32)) : Buffer :=
  fun offset => wordByte (words.getD (offset / 4) 0#32).toNat (offset % 4)

/-- Word `index` of the record at the start of a buffer. -/
def recordWord (buffer : Buffer) (index : Nat) : BitVec 32 :=
  BitVec.ofNat 32 (wordAt buffer (4 * index))

variable {buffer left right : Buffer} {words : List (BitVec 32)} {index : Nat} {word : BitVec 32}

/-- The words of a record are read back from its bytes. -/
theorem recordWord_of_bytes
    (stored : ∀ offset < 4 * words.length, buffer offset = recordBytes words offset)
    (isWord : words[index]? = some word)
    : recordWord buffer index = word := by
  have inside := (List.getElem?_eq_some_iff.mp isWord).1
  have bytes : ∀ byte < 4, buffer (4 * index + byte) = wordByte word.toNat byte := by
    intro byte small
    have slot : (4 * index + byte) / 4 = index := by omega
    have place : (4 * index + byte) % 4 = byte := by omega
    rw [stored _ (by omega), recordBytes, slot, place, List.getD_eq_getElem?_getD, isWord]
    rfl
  rw [recordWord, wordAt_eq_of_bytes word.isLt bytes, BitVec.ofNat_toNat, BitVec.setWidth_eq]

/-- A word depends only on its four bytes. -/
theorem recordWord_congr (same : ∀ offset < 4 * (index + 1), left offset = right offset)
    : recordWord left index = recordWord right index := by
  unfold recordWord
  rw [wordAt_congr (fun byte small => same (4 * index + byte) (by omega))]

end Bytes
