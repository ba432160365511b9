import Nachos.KernelLib.Bitmap
import Nachos.Lib.Calls
import Nachos.Lib.LeastFree
import Nachos.Lib.Outcome

/-! A bitmap as the set of its marked bits: the constructor, the loops with the assertions of
the operations that they call, and sequences of operations.
-/

namespace Nachos.Bitmap

open LeastFree

variable {numBits : Nat}

-----------------------------------------------------------------------------------------
-- Loops
-----------------------------------------------------------------------------------------

/-- The second loop of the constructor: so many rounds from `i` on. -/
def clearFrom : Nat → Int → Bitmap numBits → Except Fault (Bitmap numBits)
  | 0, _, bitmap => .ok bitmap
  | rounds + 1, i, bitmap => do
      let cleared ← bitmap.clear i
      clearFrom rounds (i + 1) cleared

/-- The constructor. -/
def construct (numItems : Int) : Except Fault (Bitmap numItems.toNat) :=
  if numItems > 0 then clearFrom numItems.toNat 0 (new numItems.toNat) else .error .assertion

/-- The loop of `FindAndSet`: so many rounds from `i` on. -/
def findAndSetFrom (bitmap : Bitmap numBits) : Nat → Int → Except Fault (Int × Bitmap numBits)
  | 0, _ => .ok (-1, bitmap)
  | rounds + 1, i => do
      let set ← bitmap.test i
      if !set then
        let marked ← bitmap.mark i
        return (i, marked)
      else findAndSetFrom bitmap rounds (i + 1)

/-- The loop of `NumClear`: so many rounds from `i` on. -/
def numClearFrom (bitmap : Bitmap numBits) : Nat → Int → Int → Except Fault Int
  | 0, _, count => .ok count
  | rounds + 1, i, count => do
      let set ← bitmap.test i
      numClearFrom bitmap rounds (i + 1) (if !set then count + 1 else count)

/-- Clearing a bit that is clear changes nothing. -/
theorem clearBit_of_clear {bitmap : Bitmap numBits} {which : Nat}
    (clear : bitmap.testBit which = false)
    : bitmap.clearBit which = bitmap := by
  have same : bitmap.word which &&& ~~~(mask which) = bitmap.word which := by
    apply BitVec.eq_of_getLsbD_eq
    intro bit small
    rw [BitVec.getLsbD_and, BitVec.getLsbD_not, getLsbD_mask]
    by_cases here : bit = which % bitsInWord
    · rw [testBit_eq_getLsbD] at clear
      rw [here, clear, Bool.false_and]
    · simp [here, small]
  have maps : (bitmap.clearBit which).map = bitmap.map := by
    apply Vector.ext
    intro index inside
    rw [clearBit, Vector.getElem_setIfInBounds inside]
    split
    · rename_i here
      subst here
      rw [same, word, Vector.getElem?_eq_getElem inside]
      rfl
    · rfl
  cases bitmap
  exact congrArg Bitmap.mk maps

/-- Clearing the bits of a new map leaves it as it is, by induction on the rounds. -/
theorem clearFrom_new {rounds i : Nat} (inside : i + rounds ≤ numBits)
    : clearFrom rounds i (new numBits) = .ok (new numBits) := by
  induction rounds generalizing i with
  | zero => rfl
  | succ rounds ih =>
      have cleared : (new numBits).clear (i : Int) = .ok (new numBits) := by
        rw [clear_of_inside _ (by omega), Int.toNat_natCast, clearBit_of_clear (testBit_new i)]
      have rest := @ih (i + 1) (by omega)
      push_cast at rest
      rw [clearFrom, Outcome.bind_ok cleared, rest]

theorem construct_of_pos {numItems : Int} (positive : 0 < numItems)
    : construct numItems = .ok (new numItems.toNat) :=
  (if_pos positive).trans (clearFrom_new (Nat.le_of_eq (Nat.zero_add _)))

/-- No assertion fails in the search. -/
theorem findAndSetFrom_eq {bitmap : Bitmap numBits} {rounds i : Nat}
    (inside : i + rounds ≤ numBits)
    : bitmap.findAndSetFrom rounds i
      = .ok (
          match (List.range' i rounds).find? (fun which => !bitmap.testBit which) with
          | some which => (which, bitmap.markBit which)
          | none => (-1, bitmap)) := by
  induction rounds generalizing i with
  | zero => rfl
  | succ rounds ih =>
      have here : 0 ≤ (i : Int) ∧ (i : Int) < numBits := by omega
      have rest := @ih (i + 1) (by omega)
      push_cast at rest
      rw [findAndSetFrom, Outcome.bind_ok (bitmap.test_of_inside here), Int.toNat_natCast,
        List.range'_succ]
      cases isSet : bitmap.testBit i with
      | false =>
          rw [List.find?_cons_of_pos (by rw [isSet]; rfl), if_pos (by decide),
            Outcome.bind_ok (bitmap.mark_of_inside here), Int.toNat_natCast]
          rfl
      | true =>
          rw [List.find?_cons_of_neg (by rw [isSet]; decide), if_neg (by decide), rest]

theorem findAndSetFrom_zero (bitmap : Bitmap numBits)
    : bitmap.findAndSetFrom numBits 0 = .ok bitmap.findAndSet :=
  findAndSetFrom_eq (Nat.le_of_eq (Nat.zero_add _))

/-- No assertion fails while the clear bits are counted. -/
theorem numClearFrom_eq {bitmap : Bitmap numBits} {rounds i : Nat} {count : Int}
    (inside : i + rounds ≤ numBits)
    : bitmap.numClearFrom rounds i count
      = .ok (count + (List.range' i rounds).countP (fun which => !bitmap.testBit which)) := by
  induction rounds generalizing i count with
  | zero => simp [numClearFrom]
  | succ rounds ih =>
      have here : 0 ≤ (i : Int) ∧ (i : Int) < numBits := by omega
      have rest (count : Int) := @ih (i + 1) count (by omega)
      push_cast at rest
      rw [numClearFrom, Outcome.bind_ok (bitmap.test_of_inside here), Int.toNat_natCast, rest,
        List.range'_succ, List.countP_cons]
      cases bitmap.testBit i with
      | false => simp [Int.add_assoc, Int.add_comm]
      | true => simp

theorem numClearFrom_zero (bitmap : Bitmap numBits)
    : bitmap.numClearFrom numBits 0 0 = .ok (bitmap.numClear : Int) := by
  have counted := @numClearFrom_eq _ bitmap numBits 0 0 (by omega)
  rwa [Int.zero_add] at counted

-----------------------------------------------------------------------------------------
-- Operations
-----------------------------------------------------------------------------------------

/-- The operations of programs on a bitmap, with bits inside it. -/
inductive Operation (numBits : Nat) where
  | mark (which : Fin numBits)
  | clear (which : Fin numBits)
  | test (which : Fin numBits)
  | findAndSet
  | numClear

/-- What an operation returns. -/
inductive Answer where
  | done
  | bit (isSet : Bool)
  | number (value : Int)
  deriving DecidableEq

def perform (bitmap : Bitmap numBits) : Operation numBits → Except Fault (Answer × Bitmap numBits)
  | .mark which => do
      let marked ← bitmap.mark which.val
      return (.done, marked)
  | .clear which => do
      let cleared ← bitmap.clear which.val
      return (.done, cleared)
  | .test which => do
      let isSet ← bitmap.test which.val
      return (.bit isSet, bitmap)
  | .findAndSet => do
      let (which, after) ← bitmap.findAndSetFrom numBits 0
      return (.number which, after)
  | .numClear => do
      let count ← bitmap.numClearFrom numBits 0 0
      return (.number count, bitmap)

/-- The operations on a set of marked bits. -/
def performOnSet (marked : Finset (Fin numBits))
    : Operation numBits → Answer × Finset (Fin numBits)
  | .mark which => (.done, insert which marked)
  | .clear which => (.done, marked.erase which)
  | .test which => (.bit (which ∈ marked), marked)
  | .findAndSet =>
      match leastFree marked with
      | some which => (.number which.val, insert which marked)
      | none => (.number (-1), marked)
  | .numClear => (.number (numBits - marked.card), marked)

/-- In the words exactly the bits of the set are set, and none behind the last bit. -/
def Represents (bitmap : Bitmap numBits) (marked : Finset (Fin numBits)) : Prop :=
  ∀ (index : Fin (numWords numBits)) (bit : Fin bitsInWord),
    bitmap.map[index].getLsbD bit = true
    ↔ ∃ which ∈ marked, which.val = bitsInWord * index + bit

variable {bitmap : Bitmap numBits} {marked : Finset (Fin numBits)}

/-- The words represent the set when the bits of the whole map do. Witness: a bit of the map is the
bit of its word.
-/
theorem represents_iff
    : bitmap.Represents marked
      ↔ ∀ which : Nat,
          bitmap.testBit which = true ↔ ∃ member ∈ marked, member.val = which := by
  constructor
  · intro represents which
    rw [testBit_eq_getLsbD, word]
    by_cases inside : which / bitsInWord < numWords numBits
    · have bits := represents ⟨which / bitsInWord, inside⟩
        ⟨which % bitsInWord, mod_bitsInWord_lt which⟩
      simp only [Nat.div_add_mod] at bits
      rw [Vector.getElem?_eq_getElem inside]
      exact bits
    · rw [Vector.getElem?_eq_none (Nat.le_of_not_lt inside)]
      refine iff_of_false (by simp) ?_
      rintro ⟨member, _, rfl⟩
      exact inside (div_lt_numWords member.isLt)
  · intro bits index bit
    have quotient : (bitsInWord * index + bit) / bitsInWord = index := by
      rw [Nat.mul_add_div (by decide), Nat.div_eq_of_lt bit.isLt, Nat.add_zero]
    have remainder : (bitsInWord * index + bit) % bitsInWord = bit := by
      rw [Nat.mul_add_mod, Nat.mod_eq_of_lt bit.isLt]
    rw [← bits, testBit_eq_getLsbD, word, quotient, remainder,
      Vector.getElem?_eq_getElem index.isLt]
    rfl

/-- A member of the set is a bit that is marked. -/
theorem Represents.mem_iff (represents : bitmap.Represents marked) (which : Fin numBits)
    : which ∈ marked ↔ bitmap.testBit which = true := by
  rw [represents_iff.mp represents]
  constructor
  · exact fun member => ⟨which, member, rfl⟩
  · rintro ⟨other, member, same⟩
    rwa [← Fin.ext same]

/-- The bits behind the last one are clear. -/
theorem Represents.testBit_behind (represents : bitmap.Represents marked) {which : Nat}
    (behind : numBits ≤ which)
    : bitmap.testBit which = false := by
  rw [Bool.eq_false_iff, ne_eq, represents_iff.mp represents]
  rintro ⟨member, _, rfl⟩
  exact absurd member.isLt (Nat.not_lt.mpr behind)

theorem represents_new : (new numBits).Represents ∅ := by
  rw [represents_iff]
  intro which
  simp

theorem Represents.markBit (represents : bitmap.Represents marked) (which : Fin numBits)
    : (bitmap.markBit which).Represents (insert which marked) := by
  rw [represents_iff] at represents ⊢
  intro other
  rw [testBit_markBit _ which.isLt, Bool.or_eq_true, decide_eq_true_iff, represents]
  simp [eq_comm]

/-- Clearing a bit takes the member out of the set, by cases on whether it is the bit asked about.
-/
theorem Represents.clearBit (represents : bitmap.Represents marked) (which : Fin numBits)
    : (bitmap.clearBit which).Represents (marked.erase which) := by
  rw [represents_iff] at represents ⊢
  intro other
  rw [testBit_clearBit _ which.isLt, Bool.and_eq_true, Bool.not_eq_true', decide_eq_false_iff_not,
    represents]
  constructor
  · rintro ⟨apart, member, listed, rfl⟩
    exact ⟨member, Finset.mem_erase.mpr ⟨fun same => apart (congrArg Fin.val same), listed⟩, rfl⟩
  · rintro ⟨member, listed, rfl⟩
    obtain ⟨apart, listed⟩ := Finset.mem_erase.mp listed
    exact ⟨fun same => apart (Fin.ext same), member, listed, rfl⟩

/-- The search marks the least bit that is not in the set, if there is one. -/
theorem Represents.findAndSet (represents : bitmap.Represents marked)
    : bitmap.findAndSet
      = match leastFree marked with
        | some which => ((which.val : Int), bitmap.markBit which)
        | none => (-1, bitmap) := by
  rcases Nat.eq_zero_or_pos bitmap.numClear with full | room
  · have all : leastFree marked = none := by
      rw [numClear_eq_card, Finset.card_eq_zero] at full
      rw [leastFree_eq_none_iff, Finset.eq_univ_iff_forall]
      intro which
      by_contra isFree
      rw [represents.mem_iff, Bool.not_eq_true] at isFree
      exact Finset.notMem_empty _ (full ▸ mem_clearBits.mpr ⟨which.isLt, isFree⟩)
    rw [all, findAndSet_of_full full]
  · obtain ⟨which, inside, clear, before, found⟩ := findAndSet_of_clear room
    have least : leastFree marked = some ⟨which, inside⟩ := by
      rw [leastFree_eq_some_iff, represents.mem_iff, Bool.not_eq_true]
      exact ⟨clear, fun other less => (represents.mem_iff other).mpr (before _ less)⟩
    rw [least, found]

/-- The clear bits are counted as the complement of the set. -/
theorem Represents.numClear (represents : bitmap.Represents marked)
    : (bitmap.numClear : Int) = numBits - marked.card := by
  have free : bitmap.clearBits = markedᶜ.map Fin.valEmbedding := by
    ext which
    simp only [mem_clearBits, Finset.mem_map, Finset.mem_compl, Fin.valEmbedding_apply]
    constructor
    · rintro ⟨inside, clear⟩
      refine ⟨⟨which, inside⟩, ?_, rfl⟩
      rwa [represents.mem_iff, Bool.not_eq_true]
    · rintro ⟨member, isFree, rfl⟩
      rw [represents.mem_iff, Bool.not_eq_true] at isFree
      exact ⟨member.isLt, isFree⟩
  have inside := Finset.card_le_univ marked
  rw [Fintype.card_fin] at inside
  rw [numClear_eq_card, free, Finset.card_map, Finset.card_compl, Fintype.card_fin]
  omega

/-- Every operation on a bitmap is that on its set. -/
theorem perform_simulates
    : Calls.Simulates perform performOnSet (@Represents numBits) := by
  intro bitmap marked operation represents
  cases operation with
  | mark which =>
      refine ⟨_, ?_, represents.markBit which⟩
      rw [perform, Outcome.bind_ok (bitmap.mark_of_inside (by omega)), Int.toNat_natCast]
      rfl
  | clear which =>
      refine ⟨_, ?_, represents.clearBit which⟩
      rw [perform, Outcome.bind_ok (bitmap.clear_of_inside (by omega)), Int.toNat_natCast]
      rfl
  | test which =>
      refine ⟨bitmap, ?_, represents⟩
      have isSet : decide (which ∈ marked) = bitmap.testBit which := by
        rw [Bool.eq_iff_iff, decide_eq_true_iff, represents.mem_iff]
      rw [perform, Outcome.bind_ok (bitmap.test_of_inside (by omega)), Int.toNat_natCast,
        performOnSet, isSet]
      rfl
  | findAndSet =>
      rw [perform, Outcome.bind_ok bitmap.findAndSetFrom_zero, represents.findAndSet,
        performOnSet]
      cases leastFree marked with
      | some which => exact ⟨_, rfl, represents.markBit which⟩
      | none => exact ⟨_, rfl, represents⟩
  | numClear =>
      refine ⟨bitmap, ?_, represents⟩
      rw [perform, Outcome.bind_ok bitmap.numClearFrom_zero, represents.numClear]
      rfl

/-- What a bitmap with the bits of a set does. -/
structure RefinesSet (bitmap : Bitmap numBits) (marked : Finset (Fin numBits)) : Prop where
  represents : bitmap.Represents marked
  behind : ∀ which, numBits ≤ which → bitmap.testBit which = false
  others
    : ∀ which : Fin numBits, ∃ set reset,
        bitmap.mark which.val = .ok set
        ∧ bitmap.clear which.val = .ok reset
        ∧ ∀ other ≠ which.val,
            set.testBit other = bitmap.testBit other
            ∧ reset.testBit other = bitmap.testBit other
  findAndSet
    : (marked = Finset.univ ∧ bitmap.findAndSetFrom numBits 0 = .ok (-1, bitmap))
      ∨ ∃ least after,
          least ∉ marked
          ∧ (∀ earlier < least, earlier ∈ marked)
          ∧ bitmap.findAndSetFrom numBits 0 = .ok ((least.val : Int), after)
          ∧ after.Represents (insert least marked)
  numClear : bitmap.numClearFrom numBits 0 0 = .ok ((numBits : Int) - marked.card)

/-- All operations together, each from its own lemma. -/
theorem Represents.refinesSet (represents : bitmap.Represents marked)
    : bitmap.RefinesSet marked where
  represents
  behind _ := represents.testBit_behind
  others which := by
    refine ⟨_, _, bitmap.mark_of_inside (by omega), bitmap.clear_of_inside (by omega), ?_⟩
    intro other apart
    rw [Int.toNat_natCast, testBit_markBit _ which.isLt, testBit_clearBit _ which.isLt]
    simp [apart]
  findAndSet := by
    rw [findAndSetFrom_zero, represents.findAndSet]
    cases search : leastFree marked with
    | none => exact .inl ⟨leastFree_eq_none_iff.mp search, rfl⟩
    | some least =>
        obtain ⟨isFree, below⟩ := leastFree_eq_some_iff.mp search
        exact .inr ⟨least, _, isFree, below, rfl, represents.markBit least⟩
  numClear := by rw [numClearFrom_zero, represents.numClear]

end Nachos.Bitmap
