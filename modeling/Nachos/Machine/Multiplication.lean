import Nachos.Lib.DoubleWords

/-! `Mult`: a product of two words by shifts and additions over two halves. -/

namespace Nachos.Machine
open DoubleWords

/-- The loop of `Mult` with that many turns left. -/
def multFrom : Nat → BitVec 32 → BitVec 32 × BitVec 32 → BitVec 32 × BitVec 32
    → BitVec 32 × BitVec 32
  | 0, _, _, (hi, lo) => (hi, lo)
  | turns + 1, a, (bHi, bLo), (hi, lo) =>
      let added := if a &&& 1#32 = 0#32 then (hi, lo) else add hi lo bHi bLo
      if a &&& 1#32 ≠ 0#32 ∧ a &&& 0xfffffffe#32 = 0#32 then added
      else multFrom turns (a.sshiftRight 1) (double bHi bLo) added

/-- `Mult`: what it stores through `hiPtr` and `loPtr`. -/
def mult (a b : BitVec 32) (signedArith : Bool) : BitVec 32 × BitVec 32 :=
  if a = 0#32 ∨ b = 0#32 then (0#32, 0#32)
  else
    let negative := signedArith && (a.slt 0#32 != b.slt 0#32)
    let positiveA := if signedArith && a.slt 0#32 then -a else a
    let positiveB := if signedArith && b.slt 0#32 then -b else b
    let (hi, lo) := multFrom 32 positiveA (0#32, positiveB) (0#32, 0#32)
    if negative then negate hi lo else (hi, lo)

-----------------------------------------------------------------------------------------
-- Bits of the multiplier
-----------------------------------------------------------------------------------------

theorem and_one_eq_zero_iff (a : BitVec 32) : a &&& 1#32 = 0#32 ↔ a.toNat % 2 = 0 := by
  rw [← BitVec.toNat_inj, BitVec.toNat_and]
  change a.toNat &&& 1 = 0 ↔ _
  rw [Nat.and_one_is_mod]

/-- When only the lowest bit can be set, the multiplier is at most one. -/
theorem toNat_lt_two_of_and (a : BitVec 32) (rest : a &&& 0xfffffffe#32 = 0#32)
    : a.toNat < 2 := by
  have masked : (a.toNat &&& 4294967294) >>> 1 = 0 := by
    have zero := congrArg BitVec.toNat rest
    rw [BitVec.toNat_and] at zero
    exact (congrArg (· >>> 1) zero)
  have kept : a.toNat >>> 1 &&& 2 ^ 31 - 1 = 0 := by
    rw [Nat.shiftRight_and_distrib] at masked
    exact masked
  rw [Nat.and_two_pow_sub_one_eq_mod, Nat.shiftRight_eq_div_pow] at kept
  have small := a.isLt
  omega

/-- The arithmetic shift moves the bits down and adds one at the top, which the turns that are
left do not reach.
-/
theorem toNat_sshiftRight_mod (a : BitVec 32) {turns : Nat} (few : turns ≤ 31)
    : (a.sshiftRight 1).toNat % 2 ^ turns = a.toNat / 2 % 2 ^ turns := by
  have small := a.isLt
  cases sign : a.msb with
  | false =>
      rw [BitVec.toNat_sshiftRight_of_msb_false sign, Nat.shiftRight_eq_div_pow]
  | true =>
      have large : 2147483648 ≤ a.toNat := by
        rw [BitVec.msb_eq_decide] at sign
        simpa using sign
      have shifted : (a.sshiftRight 1).toNat = a.toNat / 2 + 2 ^ turns * 2 ^ (31 - turns) := by
        rw [BitVec.toNat_sshiftRight_of_msb_true sign, ← Nat.pow_add, Nat.add_sub_cancel' few,
          Nat.shiftRight_eq_div_pow]
        omega
      rw [shifted, Nat.add_mul_mod_self_left]

-----------------------------------------------------------------------------------------
-- Product
-----------------------------------------------------------------------------------------

/-- The loop adds the product of the multiplicand and the bits that are left, by induction on
the turns.
-/
theorem value_multFrom (a : BitVec 32) (b product : BitVec 32 × BitVec 32) {turns : Nat}
    (few : turns ≤ 32)
    : value (multFrom turns a b product)
      = value product + value b * BitVec.ofNat 64 (a.toNat % 2 ^ turns) := by
  induction turns generalizing a b product with
  | zero =>
      rw [multFrom, pow_zero, Nat.mod_one]
      simp
  | succ turns ih =>
      obtain ⟨bHi, bLo⟩ := b
      obtain ⟨hi, lo⟩ := product
      have bits : a.toNat % 2 ^ (turns + 1) = a.toNat % 2 + 2 * (a.toNat / 2 % 2 ^ turns) := by
        rw [pow_succ', Nat.mod_mul]
      have added
          : value (if a &&& 1#32 = 0#32 then (hi, lo) else add hi lo bHi bLo)
            = value (hi, lo) + value (bHi, bLo) * BitVec.ofNat 64 (a.toNat % 2) := by
        by_cases even : a &&& 1#32 = 0#32
        · rw [if_pos even, (and_one_eq_zero_iff a).mp even]
          simp
        · have odd : a.toNat % 2 = 1 := by
            have bit := (and_one_eq_zero_iff a).not.mp even
            omega
          rw [if_neg even, value_add, odd]
          simp
      rw [multFrom]
      split
      · -- No bit is left after the lowest.
        rename_i last
        have small := toNat_lt_two_of_and a last.2
        have none : a.toNat / 2 % 2 ^ turns = 0 := by
          rw [Nat.div_eq_of_lt small, Nat.zero_mod]
        rw [added, bits, none, Nat.mul_zero, Nat.add_zero]
      · rw [ih _ _ _ (Nat.le_of_succ_le few), value_double, added,
          toNat_sshiftRight_mod a (Nat.le_of_succ_le_succ few), bits, BitVec.ofNat_add,
          BitVec.ofNat_mul, ← BitVec.mul_two, BitVec.mul_assoc, BitVec.add_assoc,
          ← BitVec.mul_add]

/-- A word read as signed is the one read as unsigned, or the negation of its negation. -/
theorem signExtend_eq (a : BitVec 32)
    : a.signExtend 64 = if a.slt 0#32 then -(-a).setWidth 64 else a.setWidth 64 := by
  have small := a.isLt
  rw [BitVec.slt_zero_eq_msb]
  cases sign : a.msb with
  | false => exact BitVec.signExtend_eq_setWidth_of_msb_false sign
  | true =>
      have large : 2147483648 ≤ a.toNat := by
        rw [BitVec.msb_eq_decide] at sign
        simpa using sign
      apply BitVec.eq_of_toNat_eq
      rw [if_pos rfl, BitVec.toNat_signExtend, sign]
      simp
      omega

/-- The loop of `Mult` multiplies two words read as unsigned. -/
theorem value_multFrom_zero (a b : BitVec 32)
    : value (multFrom 32 a (0#32, b) (0#32, 0#32)) = a.setWidth 64 * b.setWidth 64 := by
  have multiplicand : value (0#32, b) = b.setWidth 64 := by
    apply BitVec.eq_of_toNat_eq
    rw [toNat_value, BitVec.toNat_setWidth_of_le (by decide)]
    simp
  have multiplier : BitVec.ofNat 64 (a.toNat % 2 ^ 32) = a.setWidth 64 := by
    rw [Nat.mod_eq_of_lt a.isLt, BitVec.ofNat_toNat]
  have start : value (0#32, 0#32) = 0#64 := by decide
  rw [value_multFrom a _ _ le_rfl, start, multiplicand, multiplier, BitVec.zero_add,
    BitVec.mul_comm]

/-- `Mult` stores the 64-bit product of its arguments, read as signed or as unsigned. -/
theorem value_mult (a b : BitVec 32)
    : value (mult a b true) = a.signExtend 64 * b.signExtend 64
      ∧ value (mult a b false) = a.setWidth 64 * b.setWidth 64 := by
  by_cases zero : a = 0#32 ∨ b = 0#32
  · have nothing : value (0#32, 0#32) = 0#64 := by decide
    rw [mult, if_pos zero, mult, if_pos zero, nothing]
    rcases zero with rfl | rfl <;> simp
  · refine ⟨?_, ?_⟩
    · rw [mult, if_neg zero, signExtend_eq, signExtend_eq]
      -- The product of the words without their signs, negated when the signs differ.
      cases a.slt 0#32 <;> cases b.slt 0#32 <;>
        simp [value_negate, value_multFrom_zero]
    · rw [mult, if_neg zero]
      simpa using value_multFrom_zero a b

end Nachos.Machine
