import Mathlib.Logic.Function.Iterate

/-! The items that the threads pass on, and what the stages do to their values. -/

namespace Nachos.Pthreads

/-- What a line of the input or of the output says. -/
structure Fields where
  key : Int
  val : UInt64
  opcode : Char
  deriving DecidableEq

/-- An `Item` object. The code does not record the line of the input that it stands for. -/
structure Item extends Fields where
  line : Nat
  deriving DecidableEq

structure TransformSpec where
  a : UInt64
  b : UInt64
  m : UInt64
  iterations : Nat

namespace Transformer

def transform (spec : TransformSpec) (val : UInt64) : UInt64 :=
  (fun val => (val * spec.a + spec.b) % spec.m)^[spec.iterations] val

/-- The switch of `producer_transform`; other opcodes fail its assertion. -/
def producerSpec : Char → Option TransformSpec
  | 'A' => some ⟨2003, 183492, 1000000007, 9000000⟩
  | 'B' => some ⟨2143, 191324, 1000000009, 12000000⟩
  | 'C' => some ⟨2089, 923134, 1000000021, 5000000⟩
  | 'D' => some ⟨2677, 912834, 1000000033, 7000000⟩
  | 'E' => some ⟨2693, 718341, 1000000087, 12000000⟩
  | _ => none

/-- The switch of `consumer_transform`; other opcodes fail its assertion. -/
def consumerSpec : Char → Option TransformSpec
  | 'A' => some ⟨2729, 713423, 1000000093, 9000000⟩
  | 'B' => some ⟨2617, 193424, 1000000097, 5000000⟩
  | 'C' => some ⟨2053, 743142, 1000000103, 12000000⟩
  | 'D' => some ⟨2347, 617345, 1000000123, 12000000⟩
  | 'E' => some ⟨2521, 4719832, 1000000181, 7000000⟩
  | _ => none

def producerTransform (opcode : Char) (val : UInt64) : Option UInt64 :=
  (producerSpec opcode).map (transform · val)

def consumerTransform (opcode : Char) (val : UInt64) : Option UInt64 :=
  (consumerSpec opcode).map (transform · val)

end Transformer

/-- The fields of the item that a producer makes of one, if the assertion holds. -/
def Fields.produce (fields : Fields) : Option Fields :=
  (Transformer.producerTransform fields.opcode fields.val).map fun val => { fields with val }

/-- The fields of the item that a consumer makes of one, if the assertion holds. -/
def Fields.consume (fields : Fields) : Option Fields :=
  (Transformer.consumerTransform fields.opcode fields.val).map fun val => { fields with val }

/-- The stages between the input and the output. -/
inductive Stage where
  | read
  | produced
  | consumed
  deriving DecidableEq

/-- What the items of a stage say about a line of the input. -/
def Stage.fields : Stage → Fields → Option Fields
  | .read, fields => some fields
  | .produced, fields => fields.produce
  | .consumed, fields => fields.produce.bind Fields.consume

/-- The step of one item from a stage to the next. -/
inductive Stage.Makes : Stage → Fields → Stage → Fields → Prop where
  | produce {fields made : Fields} (produced : fields.produce = some made)
      : Makes .read fields .produced made
  | consume {fields made : Fields} (consumed : fields.consume = some made)
      : Makes .produced fields .consumed made

/-- What is made of the right fields are the right fields of the next stage. -/
theorem Stage.Makes.fields {stage next : Stage} {fields made input : Fields}
    (makes : stage.Makes fields next made) (right : stage.fields input = some fields)
    : next.fields input = some made := by
  cases makes with
  | produce produced =>
      cases right
      exact produced
  | consume consumed =>
      change (input.produce.bind Fields.consume) = some made
      rw [show input.produce = some fields from right]
      exact consumed

/-- The opcodes of both switches are the same. -/
theorem Transformer.isSome_consumerSpec (opcode : Char)
    : (consumerSpec opcode).isSome = (producerSpec opcode).isSome := by
  unfold consumerSpec producerSpec
  split <;> rfl

/-- No consumer fails on an item that a producer made. -/
theorem Fields.exists_consume {fields made : Fields} (produced : fields.produce = some made)
    : ∃ last, made.consume = some last := by
  obtain ⟨val, transformed, rfl⟩ := Option.map_eq_some_iff.mp produced
  obtain ⟨spec, known, _⟩ := Option.map_eq_some_iff.mp transformed
  have same := Transformer.isSome_consumerSpec fields.opcode
  rw [known] at same
  obtain ⟨other, found⟩ := Option.isSome_iff_exists.mp same
  refine ⟨⟨fields.key, Transformer.transform other val, fields.opcode⟩, ?_⟩
  rw [Fields.consume, Transformer.consumerTransform, found]
  rfl

end Nachos.Pthreads
