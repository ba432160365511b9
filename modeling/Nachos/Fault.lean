/-! The ways in which kernel code stops without returning. -/

namespace Nachos

/-- A failed assertion, or an access that C++ leaves undefined. -/
inductive Fault
  /-- `ASSERT` was false, or `ASSERTNOTREACHED` was reached. -/
  | assertion
  | nullPointer
  /-- A pointer to an object that was deleted, or never set. -/
  | danglingPointer
  | doubleDelete
  /-- An index outside an array or buffer. -/
  | outOfBounds
  /-- `new` was asked for a negative amount of memory. -/
  | badAlloc
  /-- A recursion or loop that does not end. -/
  | endless
  deriving DecidableEq, Repr

end Nachos
