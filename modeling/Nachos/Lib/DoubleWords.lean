import Mathlib.Data.Nat.Bitwise

/-! Arithmetic on 64 bits by hand, over two words of 32 bits each. -/

namespace DoubleWords

variable {hi lo bHi bLo : BitVec 32}

theorem toNat_append (hi lo : BitVec 32) : (hi ++ lo).toNat = hi.toNat * 4294967296 + lo.toNat := by
  rw [BitVec.toNat_append, ← Nat.shiftLeft_add_eq_or_of_lt lo.isLt, Nat.shiftLeft_eq]

/-- Add the low words, and the high words with the carry. -/
def add (hi lo bHi bLo : BitVec 32) : BitVec 32 × BitVec 32 :=
  let sum := lo + bLo
  ((if sum < bLo then hi + 1#32 else hi) + bHi, sum)

/-- Shift both words by one bit. -/
def double (bHi bLo : BitVec 32) : BitVec 32 × BitVec 32 :=
  (if bLo &&& 0x80000000#32 = 0#32 then bHi <<< 1 else bHi <<< 1 ||| 1#32, bLo <<< 1)

/-- Complement both words and add one. -/
def negate (hi lo : BitVec 32) : BitVec 32 × BitVec 32 :=
  (if ~~~lo + 1#32 = 0#32 then ~~~hi + 1#32 else ~~~hi, ~~~lo + 1#32)

/-- The two words together. -/
def value (words : BitVec 32 × BitVec 32) : BitVec 64 := words.1 ++ words.2

theorem toNat_value (words : BitVec 32 × BitVec 32)
    : (value words).toNat = words.1.toNat * 4294967296 + words.2.toNat :=
  toNat_append words.1 words.2

/-- The low words carry when their sum comes out below one of them. -/
theorem value_add (hi lo bHi bLo : BitVec 32)
    : value (add hi lo bHi bLo) = value (hi, lo) + value (bHi, bLo) := by
  apply BitVec.eq_of_toNat_eq
  have high := hi.isLt
  have low := lo.isLt
  have addHigh := bHi.isLt
  have addLow := bLo.isLt
  rw [BitVec.toNat_add, toNat_value, toNat_value, toNat_value]
  dsimp only [add]
  split
  · rename_i carry
    rw [BitVec.lt_def, BitVec.toNat_add] at carry
    simp only [BitVec.toNat_add, BitVec.toNat_ofNat]
    omega
  · rename_i carry
    rw [BitVec.lt_def, BitVec.toNat_add] at carry
    simp only [BitVec.toNat_add]
    omega

/-- The mask tests bit 31, and that is clear in the lower half of the words. -/
theorem and_top_eq_zero_iff (word : BitVec 32)
    : word &&& 0x80000000#32 = 0#32 ↔ word.toNat < 2147483648 := by
  have small := word.isLt
  have masked : (word &&& 0x80000000#32).toNat = (word.toNat.testBit 31).toNat * 2147483648 := by
    rw [BitVec.toNat_and]
    exact Nat.and_two_pow word.toNat 31
  rw [← BitVec.toNat_inj, masked, Nat.testBit_eq_decide_div_mod_eq]
  by_cases top : word.toNat < 2147483648
  · rw [decide_eq_false (by omega)]
    exact iff_of_true rfl top
  · rw [decide_eq_true (by omega)]
    exact iff_of_false (by decide) top

/-- A bit that was shifted in is free to be set. -/
theorem toNat_shiftLeft_or_one (word : BitVec 32)
    : (word <<< 1 ||| 1#32).toNat = (word <<< 1).toNat + 1 := by
  have shifted : (word <<< 1).toNat = 2 * word.toNat % 4294967296 := by
    rw [BitVec.toNat_shiftLeft, Nat.shiftLeft_eq, Nat.mul_comm]
  have free : word <<< 1 &&& 1#32 = 0#32 := by
    apply BitVec.eq_of_toNat_eq
    rw [BitVec.toNat_and, shifted]
    change _ &&& 1 = 0
    rw [Nat.and_one_is_mod]
    omega
  rw [← BitVec.add_eq_or_of_and_eq_zero _ _ free, BitVec.toNat_add, shifted]
  change (_ + 1) % 4294967296 = _
  omega

/-- The shift with its carry doubles the value, by cases on the top bit of the low word. -/
theorem value_double (bHi bLo : BitVec 32)
    : value (double bHi bLo) = value (bHi, bLo) + value (bHi, bLo) := by
  apply BitVec.eq_of_toNat_eq
  have high := bHi.isLt
  have low := bLo.isLt
  rw [BitVec.toNat_add, toNat_value, toNat_value]
  dsimp only [double]
  split
  · rename_i top
    rw [and_top_eq_zero_iff] at top
    simp only [BitVec.toNat_shiftLeft, Nat.shiftLeft_eq]
    omega
  · rename_i top
    rw [and_top_eq_zero_iff] at top
    rw [toNat_shiftLeft_or_one]
    simp only [BitVec.toNat_shiftLeft, Nat.shiftLeft_eq]
    omega

/-- The complement with its carry negates the value, by cases on whether the low word is zero. -/
theorem value_negate (hi lo : BitVec 32) : value (negate hi lo) = -value (hi, lo) := by
  apply BitVec.eq_of_toNat_eq
  have high := hi.isLt
  have low := lo.isLt
  rw [BitVec.toNat_neg, toNat_value, toNat_value]
  dsimp only [negate]
  split
  · rename_i carry
    have carry := congrArg BitVec.toNat carry
    simp only [BitVec.toNat_add, BitVec.toNat_not, BitVec.toNat_ofNat] at carry ⊢
    omega
  · rename_i carry
    have carry : (~~~lo + 1#32).toNat ≠ 0 := fun zero => carry (BitVec.eq_of_toNat_eq zero)
    simp only [BitVec.toNat_add, BitVec.toNat_not, BitVec.toNat_ofNat] at carry ⊢
    omega

end DoubleWords
