import Mathlib.Data.Finset.Card
import Mathlib.Data.Finset.Range
import Mathlib.Tactic.Ring
import Nachos.Fault

/-! The kernel's bitmap: an array of 32-bit words, each bit tested, marked and cleared on
its own, and searched for the first clear bit.
-/

namespace Nachos

/-- Bits in one word of a bitmap. -/
abbrev bitsInWord : Nat := 32

/-- Words that hold `numBits` bits. -/
def Bitmap.numWords (numBits : Nat) : Nat := (numBits + (bitsInWord - 1)) / bitsInWord

/-- A bitmap of `numBits` bits stored in words. -/
structure Bitmap (numBits : Nat) where
  map : Vector (BitVec bitsInWord) (Bitmap.numWords numBits)
  deriving DecidableEq

namespace Bitmap

variable {numBits : Nat}

/-- Every bit is clear in a new bitmap. -/
def new (numBits : Nat) : Bitmap numBits := { map := Vector.replicate _ 0 }

/-- The word of `map` that holds bit `which`. -/
def word (bitmap : Bitmap numBits) (which : Nat) : BitVec bitsInWord :=
  bitmap.map[which / bitsInWord]?.getD 0

/-- `1 << (which % BitsInWord)`. -/
def mask (which : Nat) : BitVec bitsInWord :=
  BitVec.ofNat bitsInWord 1 <<< (which % bitsInWord)

/-- `map[which / BitsInWord] & (1 << (which % BitsInWord))`. -/
def testBit (bitmap : Bitmap numBits) (which : Nat) : Bool :=
  bitmap.word which &&& mask which != 0

/-- `map[which / BitsInWord] |= 1 << (which % BitsInWord)`. -/
def markBit (bitmap : Bitmap numBits) (which : Nat) : Bitmap numBits :=
  { map := bitmap.map.setIfInBounds (which / bitsInWord) (bitmap.word which ||| mask which) }

/-- `map[which / BitsInWord] &= ~(1 << (which % BitsInWord))`. -/
def clearBit (bitmap : Bitmap numBits) (which : Nat) : Bitmap numBits :=
  {
    map := bitmap.map.setIfInBounds (which / bitsInWord)
      (bitmap.word which &&& ~~~(mask which))
  }

/-- Test the bit of an index that must lie inside the bitmap. -/
def test (bitmap : Bitmap numBits) (which : Int) : Except Fault Bool :=
  if 0 ≤ which ∧ which < numBits then .ok (bitmap.testBit which.toNat)
  else .error .assertion

/-- Set the bit of an index that must lie inside the bitmap. -/
def mark (bitmap : Bitmap numBits) (which : Int) : Except Fault (Bitmap numBits) :=
  if 0 ≤ which ∧ which < numBits then
    let marked := bitmap.markBit which.toNat
    if marked.testBit which.toNat then .ok marked else .error .assertion
  else .error .assertion

/-- Clear the bit of an index that must lie inside the bitmap. -/
def clear (bitmap : Bitmap numBits) (which : Int) : Except Fault (Bitmap numBits) :=
  if 0 ≤ which ∧ which < numBits then
    let cleared := bitmap.clearBit which.toNat
    if !cleared.testBit which.toNat then .ok cleared else .error .assertion
  else .error .assertion

/-- Mark and return the first clear bit; -1 and no change when every bit is set. -/
def findAndSet (bitmap : Bitmap numBits) : Int × Bitmap numBits :=
  match (List.range' 0 numBits).find? (fun which => !bitmap.testBit which) with
  | some which => (which, bitmap.markBit which)
  | none => (-1, bitmap)

/-- The number of clear bits. -/
def numClear (bitmap : Bitmap numBits) : Nat :=
  (List.range' 0 numBits).countP (fun which => !bitmap.testBit which)

-----------------------------------------------------------------------------------------
-- Bits
-----------------------------------------------------------------------------------------

theorem mod_bitsInWord_lt (which : Nat) : which % bitsInWord < bitsInWord :=
  Nat.mod_lt _ (by decide)

/-- A mask has the one bit of its index. -/
@[simp]
theorem getLsbD_mask (which bit : Nat)
    : (mask which).getLsbD bit = decide (bit = which % bitsInWord) := by
  have power : mask which = BitVec.twoPow bitsInWord (which % bitsInWord) := rfl
  rw [power, BitVec.getLsbD_twoPow]
  simp [mod_bitsInWord_lt, eq_comm]

/-- Masking with a single bit tests that bit of the word. -/
theorem testBit_eq_getLsbD (bitmap : Bitmap numBits) (which : Nat)
    : bitmap.testBit which = (bitmap.word which).getLsbD (which % bitsInWord) := by
  cases bit : (bitmap.word which).getLsbD (which % bitsInWord) with
  | true =>
      have nonzero : bitmap.word which &&& mask which ≠ 0 := by
        intro zero
        have same := congrArg (fun vector => vector.getLsbD (which % bitsInWord)) zero
        simp only [BitVec.getLsbD_and, bit, getLsbD_mask] at same
        simp at same
      simpa [testBit] using nonzero
  | false =>
      have zero : bitmap.word which &&& mask which = 0 := by
        apply BitVec.eq_of_getLsbD_eq
        intro other _
        by_cases same : other = which % bitsInWord
        · rw [same, BitVec.getLsbD_and, bit]
          simp
        · rw [BitVec.getLsbD_and, getLsbD_mask]
          simp [same]
      simp [testBit, zero]

theorem div_lt_numWords {which : Nat} (inside : which < numBits)
    : which / bitsInWord < numWords numBits := by
  simp only [numWords, bitsInWord]
  omega

/-- The words that hold two bits after one of them changed: the changed one is replaced,
by cases on whether the two bits share a word.
-/
theorem word_set (bitmap : Bitmap numBits) {which : Nat} (inside : which < numBits)
    (value : BitVec bitsInWord) (other : Nat)
    : word { map := bitmap.map.setIfInBounds (which / bitsInWord) value } other
      = if other / bitsInWord = which / bitsInWord then value else bitmap.word other := by
  have bound := div_lt_numWords inside
  unfold word
  simp only
  split
  · rename_i same
    rw [same, Vector.getElem?_setIfInBounds_self_of_lt bound]
    rfl
  · rename_i different
    rw [Vector.getElem?_setIfInBounds_ne (Ne.symm different)]

/-- Two indices with the same word and the same bit in it are equal. -/
theorem eq_of_div_mod {which other : Nat} (words : other / bitsInWord = which / bitsInWord)
    (bits : other % bitsInWord = which % bitsInWord)
    : other = which := by
  rw [← Nat.div_add_mod other bitsInWord, words, bits, Nat.div_add_mod]

/-- Marking sets its own bit and no other. -/
theorem testBit_markBit (bitmap : Bitmap numBits) {which : Nat} (inside : which < numBits)
    (other : Nat)
    : (bitmap.markBit which).testBit other
      = (decide (other = which) || bitmap.testBit other) := by
  simp only [testBit_eq_getLsbD, markBit, word_set bitmap inside]
  split
  · rename_i same
    have shared : bitmap.word which = bitmap.word other := by simp only [word, same]
    rw [BitVec.getLsbD_or, getLsbD_mask, shared, Bool.or_comm]
    by_cases equal : other = which
    · simp [equal]
    · have apart : other % bitsInWord ≠ which % bitsInWord :=
        fun bits => equal (eq_of_div_mod same bits)
      simp [equal, apart]
  · rename_i different
    have unequal : other ≠ which := fun same => different (by rw [same])
    simp [unequal]

/-- Clearing resets its own bit and no other. -/
theorem testBit_clearBit (bitmap : Bitmap numBits) {which : Nat} (inside : which < numBits)
    (other : Nat)
    : (bitmap.clearBit which).testBit other
      = (!decide (other = which) && bitmap.testBit other) := by
  simp only [testBit_eq_getLsbD, clearBit, word_set bitmap inside]
  split
  · rename_i same
    have shared : bitmap.word which = bitmap.word other := by simp only [word, same]
    rw [BitVec.getLsbD_and, BitVec.getLsbD_not, getLsbD_mask, shared, Bool.and_comm]
    by_cases equal : other = which
    · simp [equal, mod_bitsInWord_lt]
    · have apart : other % bitsInWord ≠ which % bitsInWord :=
        fun bits => equal (eq_of_div_mod same bits)
      simp [equal, apart, mod_bitsInWord_lt]
  · rename_i different
    have unequal : other ≠ which := fun same => different (by rw [same])
    simp [unequal]

@[simp]
theorem testBit_new (which : Nat) : (new numBits).testBit which = false := by
  rw [testBit_eq_getLsbD]
  simp only [word, new, Vector.getElem?_replicate]
  split <;> simp

/-- A bitmap is determined by its bits when they fill its words. -/
theorem ext_of_testBit {left right : Bitmap numBits} (whole : numBits % bitsInWord = 0)
    (same : ∀ which < numBits, left.testBit which = right.testBit which)
    : left = right := by
  have maps : left.map = right.map := by
    apply Vector.ext
    intro index bound
    apply BitVec.eq_of_getLsbD_eq
    intro bit small
    have inside : index * bitsInWord + bit < numBits := by
      simp only [numWords, bitsInWord] at *
      omega
    have bits := same _ inside
    have quotient : (index * bitsInWord + bit) / bitsInWord = index := by
      simp only [bitsInWord] at *
      omega
    have remainder : (index * bitsInWord + bit) % bitsInWord = bit := by
      simp only [bitsInWord] at *
      omega
    simp only [testBit_eq_getLsbD, word, quotient, remainder] at bits
    simpa [bound] using bits
  cases left
  cases right
  simpa using maps

-----------------------------------------------------------------------------------------
-- The asserting operations
-----------------------------------------------------------------------------------------

theorem test_of_inside (bitmap : Bitmap numBits) {which : Int}
    (inside : 0 ≤ which ∧ which < numBits)
    : bitmap.test which = .ok (bitmap.testBit which.toNat) :=
  if_pos inside

theorem mark_of_inside (bitmap : Bitmap numBits) {which : Int}
    (inside : 0 ≤ which ∧ which < numBits)
    : bitmap.mark which = .ok (bitmap.markBit which.toNat) := by
  have bound : which.toNat < numBits := by omega
  have set : (bitmap.markBit which.toNat).testBit which.toNat = true := by
    simp [bitmap.testBit_markBit bound]
  simp [mark, inside, set]

theorem clear_of_inside (bitmap : Bitmap numBits) {which : Int}
    (inside : 0 ≤ which ∧ which < numBits)
    : bitmap.clear which = .ok (bitmap.clearBit which.toNat) := by
  have bound : which.toNat < numBits := by omega
  have reset : (bitmap.clearBit which.toNat).testBit which.toNat = false := by
    simp [bitmap.testBit_clearBit bound]
  simp [clear, inside, reset]

-----------------------------------------------------------------------------------------
-- The set of clear bits
-----------------------------------------------------------------------------------------

/-- The clear bits as a finite set. -/
def clearBits (bitmap : Bitmap numBits) : Finset Nat :=
  (Finset.range numBits).filter (fun which => bitmap.testBit which = false)

@[simp]
theorem mem_clearBits {bitmap : Bitmap numBits} {which : Nat}
    : which ∈ bitmap.clearBits ↔ which < numBits ∧ bitmap.testBit which = false := by
  simp [clearBits]

/-- Counting the clear bits gives the size of their set. -/
theorem numClear_eq_card (bitmap : Bitmap numBits)
    : bitmap.numClear = bitmap.clearBits.card := by
  have filtered : bitmap.clearBits
      = ((List.range' 0 numBits).filter (fun which => !bitmap.testBit which)).toFinset := by
    ext which
    simp
  rw [filtered, List.toFinset_card_of_nodup ((List.nodup_range' ..).filter _), numClear,
    List.countP_eq_length_filter]

/-- The clear set after marking one of its bits. -/
theorem clearBits_markBit (bitmap : Bitmap numBits) {which : Nat} (inside : which < numBits)
    : (bitmap.markBit which).clearBits = bitmap.clearBits.erase which := by
  ext other
  simp only [mem_clearBits, Finset.mem_erase, bitmap.testBit_markBit inside,
    Bool.or_eq_false_iff, decide_eq_false_iff_not]
  tauto

theorem numClear_markBit (bitmap : Bitmap numBits) {which : Nat} (inside : which < numBits)
    (clear : bitmap.testBit which = false)
    : (bitmap.markBit which).numClear + 1 = bitmap.numClear := by
  have member : which ∈ bitmap.clearBits := mem_clearBits.mpr ⟨inside, clear⟩
  rw [numClear_eq_card, numClear_eq_card, clearBits_markBit bitmap inside]
  exact Finset.card_erase_add_one member

theorem numClear_new : (new numBits).numClear = numBits := by
  have all := List.countP_eq_length.mpr
    (show ∀ which ∈ List.range' 0 numBits, (!(new numBits).testBit which) = true by simp)
  rwa [List.length_range'] at all

theorem numClear_le (bitmap : Bitmap numBits) : bitmap.numClear ≤ numBits :=
  List.countP_le_length.trans_eq List.length_range'

/-- With no clear bit the search fails and changes nothing. -/
theorem findAndSet_of_full {bitmap : Bitmap numBits} (full : bitmap.numClear = 0)
    : bitmap.findAndSet = (-1, bitmap) := by
  have none : (List.range' 0 numBits).find? (fun which => !bitmap.testBit which) = none := by
    apply List.find?_eq_none.mpr
    intro which member
    rw [numClear, List.countP_eq_zero] at full
    exact full which member
  simp only [findAndSet, none]

/-- With a clear bit the search marks the least one. -/
theorem findAndSet_of_clear {bitmap : Bitmap numBits} (room : 0 < bitmap.numClear)
    : ∃ which < numBits,
        bitmap.testBit which = false
        ∧ (∀ earlier < which, bitmap.testBit earlier = true)
        ∧ bitmap.findAndSet = ((which : Int), bitmap.markBit which) := by
  obtain ⟨clear, member, isClear⟩ := List.countP_pos_iff.mp room
  cases found : (List.range' 0 numBits).find? (fun which => !bitmap.testBit which) with
  | none => exact absurd isClear (List.find?_eq_none.mp found clear member)
  | some which =>
      have least := found
      rw [← List.range_eq_range'] at least
      obtain ⟨isClear, inside, before⟩ := List.find?_range_eq_some.mp least
      refine ⟨which, by simpa using inside, by simpa using isClear, ?_, ?_⟩
      · intro earlier less
        simpa using before earlier less
      · simp only [findAndSet, found]

/-- The clear bits, in the order in which the search finds them. -/
def free (bitmap : Bitmap numBits) : List Int :=
  ((List.range' 0 numBits).filter (fun which => !bitmap.testBit which)).map
    (fun (which : Nat) => (which : Int))

/-- The search takes the first of the clear bits. -/
theorem free_eq_cons {before after : Bitmap numBits} {which : Int}
    (found : before.findAndSet = (which, after)) (nonneg : 0 ≤ which)
    : before.free = which :: after.free := by
  rw [findAndSet] at found
  split at found
  · rename_i first least
    obtain ⟨rfl, rfl⟩ := Prod.mk.inj found
    obtain ⟨isClear, earlier, later, whole, busy⟩ := List.find?_eq_some_iff_append.mp least
    have distinct : (earlier ++ first :: later).Nodup := whole ▸ List.nodup_range'
    have inside : first < numBits := by
      have member : first ∈ List.range' 0 numBits := by
        rw [whole]
        exact List.mem_append_right _ List.mem_cons_self
      rw [List.mem_range'_1] at member
      omega
    have noneEarlier : earlier.filter (fun which => !before.testBit which) = [] :=
      List.filter_eq_nil_iff.mpr (fun which member => by simpa using busy which member)
    have noneMarked
        : earlier.filter (fun which => !(before.markBit first).testBit which) = [] := by
      refine List.filter_eq_nil_iff.mpr (fun which member => ?_)
      rw [testBit_markBit _ inside]
      simp_all
    have laterSame
        : later.filter (fun which => !(before.markBit first).testBit which)
          = later.filter (fun which => !before.testBit which) := by
      refine List.filter_congr (fun which member => ?_)
      have apart : which ≠ first := by
        rintro rfl
        exact (List.nodup_cons.mp (List.nodup_append.mp distinct).2.1).1 member
      rw [testBit_markBit _ inside]
      simp [apart]
    have marked : (!(before.markBit first).testBit first) = false := by
      rw [testBit_markBit _ inside]
      simp
    rw [free, free, whole, List.filter_append, List.filter_append, noneEarlier, noneMarked,
      List.filter_cons, List.filter_cons, isClear, marked, laterSame]
    rfl
  · obtain ⟨rfl, _⟩ := Prod.mk.inj found
    exact absurd nonneg (by decide)

-----------------------------------------------------------------------------------------
-- Taking and releasing sets of bits
-----------------------------------------------------------------------------------------

/-- Marking the distinct clear bits `taken` leads from one bitmap to the other. -/
structure Takes (before after : Bitmap numBits) (taken : List Int) : Prop where
  distinct : taken.Nodup
  inside : ∀ which ∈ taken, 0 ≤ which ∧ which < numBits
  clear : ∀ which ∈ taken, before.testBit which.toNat = false
  bits : ∀ which : Nat,
    after.testBit which = (decide ((which : Int) ∈ taken) || before.testBit which)
  count : after.numClear + taken.length = before.numClear

/-- Clearing the bits `released` leads from one bitmap to the other. -/
def Releases (before after : Bitmap numBits) (released : List Int) : Prop :=
  ∀ which : Nat,
    after.testBit which = (!decide ((which : Int) ∈ released) && before.testBit which)

theorem Takes.refl (bitmap : Bitmap numBits) : Takes bitmap bitmap [] where
  distinct := List.nodup_nil
  inside := by simp
  clear := by simp
  bits := by simp
  count := by simp

/-- Bits taken later are clear until then, so they differ from those taken first. -/
theorem Takes.append {first second third : Bitmap numBits} {left right : List Int}
    (earlier : Takes first second left) (later : Takes second third right)
    : Takes first third (left ++ right) := by
  have apart : ∀ which ∈ right, which ∉ left := by
    intro which inRight inLeft
    have clear := later.clear which inRight
    have nonneg := (earlier.inside which inLeft).1
    rw [earlier.bits, Int.toNat_of_nonneg nonneg] at clear
    simp [inLeft] at clear
  refine {
    distinct := List.nodup_append.mpr ⟨earlier.distinct, later.distinct, ?_⟩
    inside := ?_
    clear := ?_
    bits := ?_
    count := ?_
  }
  · rintro which inLeft other inRight rfl
    exact apart _ inRight inLeft
  · intro which member
    exact (List.mem_append.mp member).elim (earlier.inside which) (later.inside which)
  · intro which member
    rcases List.mem_append.mp member with inLeft | inRight
    · exact earlier.clear which inLeft
    · have clear := later.clear which inRight
      rw [earlier.bits, Bool.or_eq_false_iff] at clear
      exact clear.2
  · intro which
    rw [later.bits, earlier.bits, ← Bool.or_assoc]
    congr 1
    simp [List.mem_append, Bool.or_comm, Bool.decide_or]
  · have first := earlier.count
    have second := later.count
    rw [List.length_append]
    omega

theorem Takes.perm {before after : Bitmap numBits} {taken other : List Int}
    (takes : Takes before after taken) (same : taken.Perm other)
    : Takes before after other where
  distinct := same.nodup_iff.mp takes.distinct
  inside which member := takes.inside which (same.mem_iff.mpr member)
  clear which member := takes.clear which (same.mem_iff.mpr member)
  bits which := by rw [takes.bits]; simp only [same.mem_iff]
  count := by rw [← same.length_eq, takes.count]

/-- The search takes the bit it returns. -/
theorem takes_findAndSet {bitmap : Bitmap numBits} (room : 0 < bitmap.numClear)
    : ∃ which after,
        bitmap.findAndSet = (which, after)
        ∧ 0 ≤ which
        ∧ Takes bitmap after [which] := by
  obtain ⟨which, inside, clear, _, found⟩ := findAndSet_of_clear room
  refine ⟨which, bitmap.markBit which, found, by omega, ?_⟩
  exact {
    distinct := List.nodup_singleton _
    inside := by simpa using inside
    clear := by simpa using clear
    bits := by
      intro other
      simp [bitmap.testBit_markBit inside]
    count := numClear_markBit bitmap inside clear
  }

/-- Marking a clear bit takes it. -/
theorem takes_mark {bitmap : Bitmap numBits} {which : Nat} (inside : which < numBits)
    (clear : bitmap.testBit which = false)
    : Takes bitmap (bitmap.markBit which) [(which : Int)] where
  distinct := List.nodup_singleton _
  inside := by simpa using inside
  clear := by simpa using clear
  bits := by
    intro other
    simp [bitmap.testBit_markBit inside]
  count := numClear_markBit bitmap inside clear

theorem Releases.append {first second third : Bitmap numBits} {left right : List Int}
    (earlier : Releases first second left) (later : Releases second third right)
    : Releases first third (left ++ right) := by
  intro which
  rw [later, earlier]
  simp only [List.mem_append, Bool.decide_or, Bool.not_or]
  cases decide ((which : Int) ∈ left) <;> simp

/-- Clearing one bit releases that bit and no other. -/
theorem releases_clearBit (bitmap : Bitmap numBits) {which : Int}
    (inside : 0 ≤ which ∧ which < numBits)
    : Releases bitmap (bitmap.clearBit which.toNat) [which] := by
  intro other
  have bound : which.toNat < numBits := by omega
  have same : (other = which.toNat) = ((other : Int) = which) := by
    apply propext
    omega
  simp [bitmap.testBit_clearBit bound, same]

/-- Taking bits and releasing some of them leaves the others marked. -/
theorem Takes.release {before middle after : Bitmap numBits} {taken released kept : List Int}
    (takes : Takes before middle taken) (releases : Releases middle after released)
    (split : taken.Perm (released ++ kept)) (which : Nat)
    : after.testBit which = (decide ((which : Int) ∈ kept) || before.testBit which) := by
  have parts := takes.perm split
  obtain ⟨_, _, apart⟩ := List.nodup_append.mp parts.distinct
  rw [releases, parts.bits]
  by_cases inReleased : (which : Int) ∈ released
  · have clear := parts.clear which (List.mem_append_left _ inReleased)
    rw [Int.toNat_natCast] at clear
    have notKept : (which : Int) ∉ kept := fun inKept => apart _ inReleased _ inKept rfl
    simp [inReleased, notKept, clear]
  · simp [inReleased]

/-- Releasing distinct marked bits makes that many more clear. -/
theorem Releases.numClear {before after : Bitmap numBits} {released : List Int}
    (releases : Releases before after released) (distinct : released.Nodup)
    (inside : ∀ which ∈ released, 0 ≤ which ∧ which < numBits)
    (marked : ∀ which ∈ released, before.testBit which.toNat = true)
    : after.numClear = before.numClear + released.length := by
  have numbers : (released.map Int.toNat).Nodup := by
    refine distinct.map_on (fun left leftMember right rightMember same => ?_)
    have leftNonneg := (inside left leftMember).1
    have rightNonneg := (inside right rightMember).1
    omega
  have member (which : Nat)
      : which ∈ (released.map Int.toNat).toFinset ↔ (which : Int) ∈ released := by
    rw [List.mem_toFinset, List.mem_map]
    constructor
    · rintro ⟨other, isReleased, rfl⟩
      rwa [Int.toNat_of_nonneg (inside other isReleased).1]
    · exact fun isReleased => ⟨which, isReleased, Int.toNat_natCast which⟩
  have union : after.clearBits = before.clearBits ∪ (released.map Int.toNat).toFinset := by
    ext which
    rw [Finset.mem_union, mem_clearBits, mem_clearBits, member, releases]
    by_cases isReleased : (which : Int) ∈ released
    · have bound := (inside which isReleased).2
      simp only [isReleased, decide_true, Bool.not_true, Bool.false_and, and_true, or_true,
        iff_true]
      omega
    · simp [isReleased]
  have apart : Disjoint before.clearBits (released.map Int.toNat).toFinset := by
    refine Finset.disjoint_left.mpr (fun which clear isReleased => ?_)
    have set := marked which ((member which).mp isReleased)
    rw [Int.toNat_natCast, (mem_clearBits.mp clear).2] at set
    exact Bool.false_ne_true set
  rw [numClear_eq_card, numClear_eq_card, union, Finset.card_union_of_disjoint apart,
    List.toFinset_card_of_nodup numbers, List.length_map]

end Bitmap

end Nachos
