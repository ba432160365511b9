import Mathlib.Tactic.Linarith

/-! Arithmetic of the C types `int` and `unsigned` at 32 bits over unbounded integers. -/

namespace CInt

/-- The value stored when `value` is assigned to a 32-bit `int`. -/
def wrap (value : Int) : Int := (value + 2147483648) % 4294967296 - 2147483648

/-- The value of an `int` converted to a 32-bit `unsigned`. -/
def unsigned (value : Int) : Int := value % 4294967296

/-- The values a 32-bit `int` can hold. -/
def InRange (value : Int) : Prop := -2147483648 ≤ value ∧ value < 2147483648

instance (value : Int) : Decidable (InRange value) :=
  inferInstanceAs (Decidable (_ ∧ _))

/-- Quotient rounded toward zero, as the C operator does. -/
def divRoundDown (dividend divisor : Int) : Int := dividend.tdiv divisor

/-- Quotient rounded up when the C remainder is positive. -/
def divRoundUp (dividend divisor : Int) : Int :=
  dividend.tdiv divisor + if dividend.tmod divisor > 0 then 1 else 0

/-- Every stored value fits its type. -/
theorem wrap_inRange (value : Int) : InRange (wrap value) := by
  unfold wrap InRange
  omega

/-- A value that fits is stored unchanged. -/
theorem wrap_of_inRange {value : Int} (fits : InRange value) : wrap value = value := by
  unfold InRange at fits
  unfold wrap
  omega

/-- A nonnegative value below the sign bit is stored unchanged. -/
theorem wrap_of_lt {value : Int} (nonneg : 0 ≤ value) (small : value < 2147483648)
    : wrap value = value :=
  wrap_of_inRange ⟨by omega, small⟩

/-- A nonnegative `int` converts to the same `unsigned`. -/
theorem unsigned_of_nonneg {value : Int} (nonneg : 0 ≤ value) (small : value < 2147483648)
    : unsigned value = value := by
  unfold unsigned
  omega

/-- On nonnegative operands the C quotient is the floor quotient. -/
theorem divRoundDown_of_nonneg {dividend : Int} (nonneg : 0 ≤ dividend) (divisor : Int)
    : divRoundDown dividend divisor = dividend / divisor :=
  Int.tdiv_eq_ediv_of_nonneg nonneg

/-- On nonnegative operands rounding up is the floor quotient of the padded dividend. -/
theorem divRoundUp_of_nonneg {dividend divisor : Int} (nonneg : 0 ≤ dividend)
    (positive : 0 < divisor)
    : divRoundUp dividend divisor = (dividend + (divisor - 1)) / divisor := by
  have split := Int.mul_ediv_add_emod dividend divisor
  have low := Int.emod_nonneg dividend positive.ne'
  have high := Int.emod_lt_of_pos dividend positive
  have shifted : dividend + (divisor - 1)
      = dividend % divisor + (divisor - 1) + divisor * (dividend / divisor) := by
    linarith
  rw [shifted, Int.add_mul_ediv_left _ _ positive.ne', divRoundUp,
    Int.tdiv_eq_ediv_of_nonneg nonneg, Int.tmod_eq_emod_of_nonneg nonneg]
  by_cases whole : dividend % divisor = 0
  · have zero : (0 + (divisor - 1)) / divisor = 0 :=
      Int.ediv_eq_zero_of_lt (by omega) (by omega)
    rw [whole, if_neg (by omega), zero]
    omega
  · have padded : dividend % divisor + (divisor - 1) = dividend % divisor - 1 + divisor * 1 := by
      omega
    have one : (dividend % divisor + (divisor - 1)) / divisor = 1 := by
      have zero : (dividend % divisor - 1) / divisor = 0 :=
        Int.ediv_eq_zero_of_lt (by omega) (by omega)
      rw [padded, Int.add_mul_ediv_left _ _ positive.ne', zero]
      rfl
    rw [one, if_pos (by omega)]
    omega

end CInt
