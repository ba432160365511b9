import Nachos.Fault
import Nachos.Lib.Bytes

/-! Files of the host, and the header of the NOFF object files that programs are loaded from.
-/

namespace Nachos.UserProg

open Bytes

/-- The contents of a file of the host. -/
abbrev HostFile := List Byte

/-- `OpenFile::ReadAt` on a file of the host: `Lseek` asserts that the position is valid, and
`read` returns what is there.
-/
def HostFile.readAt (file : HostFile) (numBytes position : Int) : Except Fault (List Byte) :=
  if 0 ≤ position then .ok ((file.drop position.toNat).take numBytes.toNat)
  else .error .assertion

structure Segment where
  virtualAddr : Int
  inFileAddr : Int
  size : Int
  deriving DecidableEq

structure NoffHeader where
  noffMagic : Int
  code : Segment
  initData : Segment
  readonlyData : Segment
  uninitData : Segment
  deriving DecidableEq

/-- `NOFFMAGIC`. -/
def noffMagic : Int := 0xbadfad

def Segment.ofImage (image : Buffer) (start : Nat) : Segment :=
  {
    virtualAddr := intAt image start
    inFileAddr := intAt image (start + 4)
    size := intAt image (start + 8)
  }

namespace NoffHeader

def ofImage (image : Buffer) : NoffHeader :=
  {
    noffMagic := intAt image 0
    code := .ofImage image 4
    initData := .ofImage image 16
    readonlyData := .ofImage image 28
    uninitData := .ofImage image 40
  }

/-- The header as `Load` reads it into a local variable: a file that is too short leaves some
of the bytes there as they were. Words are in the order of the host, which is little-endian,
so `WordToHost` changes nothing and `SwapHeader` is never called.
-/
def read (stack : Buffer) (file : HostFile) : NoffHeader :=
  ofImage (blit stack 0 (Bytes.ofList file) (min 52 file.length))

/-- A header is made of the first 52 bytes. -/
theorem ofImage_congr {left right : Buffer} (same : ∀ offset < 52, left offset = right offset)
    : ofImage left = ofImage right := by
  have words (start : Nat) (inside : start + 4 ≤ 52) : intAt left start = intAt right start :=
    intAt_congr (fun index small => same _ (by omega))
  simp only [ofImage, Segment.ofImage, words 0, words 4, words 8, words 12, words 16, words 20,
    words 24, words 28, words 32, words 36, words 40, words 44, words 48, Nat.reduceAdd,
    Nat.reduceLeDiff]

/-- A header of 52 bytes is read whole. -/
theorem read_of_length {header : HostFile} (whole : header.length = 52) (rest : HostFile)
    (stack : Buffer)
    : read stack (header ++ rest) = ofImage (Bytes.ofList header) := by
  have long : min 52 (header ++ rest).length = 52 := by
    rw [List.length_append, whole]
    exact Nat.min_eq_left (Nat.le_add_right 52 _)
  refine ofImage_congr (fun offset small => ?_)
  rw [long, blit_inside _ _ (Nat.zero_le _) (by omega), Nat.sub_zero, Bytes.ofList, Bytes.ofList,
    List.getD_eq_getElem?_getD, List.getElem?_append_left (by omega), List.getD_eq_getElem?_getD]

/-- The header of a file that is long enough does not depend on the stack. -/
theorem read_eq_of_length_le {file : HostFile} (whole : 52 ≤ file.length) (stack other : Buffer)
    : read stack file = read other file := by
  have length : (file.take 52).length = 52 := by
    rw [List.length_take]
    exact Nat.min_eq_left whole
  rw [← List.take_append_drop 52 file, read_of_length length, read_of_length length]

/-- The segments in the order in which `LoadSegments` loads them, with whether a segment is
read-only.
-/
def segments (noffH : NoffHeader) : List (Segment × Bool) :=
  [(noffH.code, false), (noffH.initData, false), (noffH.readonlyData, true),
    (noffH.uninitData, false)]

end NoffHeader

end Nachos.UserProg
