import Nachos.KernelLib.ListInvariant
import Nachos.Lib.Buckets
import Nachos.Lib.Outcome

/-! `HashTable` and `HashIterator`. Buckets are lists of items, with the operations that `List`
carries out on its elements.
-/

namespace Nachos
open Outcome Buckets

/-- The functions that a table is made with. -/
structure Hashing (κ τ : Type) where
  getKey : τ → κ
  hash : κ → BitVec 32

structure HashTable (τ : Type) where
  buckets : Nat → List τ
  numBuckets : Nat
  numItems : Nat

namespace HashTable

variable {κ τ : Type} [DecidableEq κ] [DecidableEq τ]

def initialBuckets : Nat := 4

def resizeRatio : Nat := 3

def increaseSizeBy : Nat := 4

/-- The constructor. -/
def new : HashTable τ := { buckets := fun _ => [], numBuckets := initialBuckets, numItems := 0 }

instance (items : List τ) : DecidablePred (LinkedList.Operation.Legal items)
  | .append item => inferInstanceAs (Decidable (item ∉ items))
  | .prepend item => inferInstanceAs (Decidable (item ∉ items))
  | .insert item => inferInstanceAs (Decidable (item ∉ items))
  | .removeFront => inferInstanceAs (Decidable (items ≠ []))
  | .remove item => inferInstanceAs (Decidable (item ∈ items))

/-- An operation of the list that is a bucket, which asserts that it is legal. -/
def onBucket (operation : LinkedList.Operation τ) (slot : Nat) (table : HashTable τ)
    : Except Fault (HashTable τ) := do
  require (operation.Legal (table.buckets slot)) .assertion
  return {
    table with
    buckets :=
      Function.update table.buckets slot
        (operation.apply (fun _ _ => 0) (table.buckets slot)).2
  }

variable (hashing : Hashing κ τ)

def hashValue (key : κ) (table : HashTable τ) : Except Fault Nat := do
  let result := (hashing.hash key).toNat % table.numBuckets
  require (result < table.numBuckets) .assertion
  return result

/-- The item that the iterator finds, or `NULL`. -/
def findInBucket (bucket : Nat) (key : κ) (table : HashTable τ) : Option τ :=
  (table.buckets bucket).find? (fun item => key = hashing.getKey item)

def find (key : κ) (table : HashTable τ) : Except Fault (Option τ) := do
  return findInBucket hashing (← hashValue hashing key table) key table

def isInTable (key : κ) (table : HashTable τ) : Except Fault Bool := do
  return (← find hashing key table).isSome

def isEmpty (table : HashTable τ) : Bool := table.numItems = 0

/-- The loop of `SanityCheck` over a bucket. -/
def checkBucket (table : HashTable τ) (bucket : Nat) : List τ → Except Fault Unit
  | [] => return ()
  | item :: rest => do
      let value ← hashValue hashing (hashing.getKey item) table
      require (bucket = value) .assertion
      checkBucket table bucket rest

/-- The loop of `SanityCheck` over the given buckets, which counts items. -/
def checkBuckets (table : HashTable τ) : List Nat → Nat → Except Fault Nat
  | [], numFound => return numFound
  | bucket :: rest, numFound => do
      checkBucket hashing table bucket (table.buckets bucket)
      checkBuckets table rest (numFound + (table.buckets bucket).length)

/-- `SanityCheck`. That of each bucket always passes, since its list is a sequence with a length. -/
def sanityCheck (table : HashTable τ) : Except Fault Unit := do
  let numFound ← checkBuckets hashing table (List.range table.numBuckets) 0
  require (table.numItems = numFound) .assertion

/-- The `while` loop of `ReHash` on what is left in an old bucket. -/
def moveBucket : List τ → HashTable τ → Except Fault (HashTable τ)
  | [], table => return table
  | item :: rest, table => do
      let bucket ← hashValue hashing (hashing.getKey item) table
      moveBucket rest (← onBucket (.append item) bucket table)

/-- The `for` loop of `ReHash` over the given old buckets. -/
def moveBuckets (oldTable : Nat → List τ) : List Nat → HashTable τ → Except Fault (HashTable τ)
  | [], table => return table
  | bucket :: rest, table => do
      moveBuckets oldTable rest (← moveBucket hashing (oldTable bucket) table)

def reHash (table : HashTable τ) : Except Fault (HashTable τ) := do
  sanityCheck hashing table
  let empty :=
    { table with buckets := fun _ => [], numBuckets := table.numBuckets * increaseSizeBy }
  let moved ← moveBuckets hashing table.buckets (List.range table.numBuckets) empty
  sanityCheck hashing moved
  return moved

def insert (item : τ) (table : HashTable τ) : Except Fault (HashTable τ) := do
  let key := hashing.getKey item
  require ((← isInTable hashing key table) = false) .assertion
  let roomy ←
    (if resizeRatio ≤ table.numItems / table.numBuckets then reHash hashing table else .ok table)
  let appended ← onBucket (.append item) (← hashValue hashing key roomy) roomy
  let counted := { appended with numItems := appended.numItems + 1 }
  require ((← isInTable hashing key counted) = true) .assertion
  return counted

def remove (key : κ) (table : HashTable τ) : Except Fault (τ × HashTable τ) := do
  let bucket ← hashValue hashing key table
  match findInBucket hashing bucket key table with
  | none => throw .assertion
  | some item =>
      let removed ← onBucket (.remove item) bucket table
      let counted := { removed with numItems := removed.numItems - 1 }
      require ((← isInTable hashing key counted) = false) .assertion
      return (item, counted)

/-- The loop of `FindNextFullBucket` on the given number of buckets from one on. -/
def nextFullFrom (table : HashTable τ) : Nat → Nat → Nat
  | 0, bucket => bucket
  | count + 1, bucket =>
      if (table.buckets bucket).isEmpty then nextFullFrom table count (bucket + 1) else bucket

def findNextFullBucket (bucket : Nat) (table : HashTable τ) : Nat :=
  nextFullFrom table (table.numBuckets - bucket) bucket

end HashTable

-----------------------------------------------------------------------------------------
-- Iterators
-----------------------------------------------------------------------------------------

/-- A `HashIterator`, with what is left of its bucket from the current item on. -/
structure HashIterator (τ : Type) where
  bucket : Nat
  bucketIter : Option (List τ)

namespace HashIterator
open HashTable

variable {τ : Type}

/-- A new `bucketIter` on a bucket, unless it is behind the last one. -/
def enter (bucket : Nat) (table : HashTable τ) : HashIterator τ where
  bucket := bucket
  bucketIter := if bucket < table.numBuckets then some (table.buckets bucket) else none

/-- The end of the constructor and of `Next`, on the next full bucket from the given one on. -/
def startFrom (bucket : Nat) (table : HashTable τ) : HashIterator τ :=
  enter (table.findNextFullBucket bucket) table

/-- The constructor. -/
def new (table : HashTable τ) : HashIterator τ := startFrom 0 table

def isDone (table : HashTable τ) (iterator : HashIterator τ) : Bool :=
  iterator.bucket = table.numBuckets

def item (table : HashTable τ) (iterator : HashIterator τ) : Except Fault τ := do
  require (iterator.isDone table = false) .assertion
  match iterator.bucketIter with
  | none => throw .nullPointer
  | some [] => throw .assertion
  | some (item :: _) => return item

def next (table : HashTable τ) (iterator : HashIterator τ) : Except Fault (HashIterator τ) :=
  match iterator.bucketIter with
  | none | some [] => throw .nullPointer
  | some (_ :: rest) =>
      if rest.isEmpty then return startFrom (iterator.bucket + 1) table
      else return { iterator with bucketIter := some rest }

/-- The items that `for (; !iter->IsDone(); iter->Next())` sees, with a bound on its turns. -/
def visit (table : HashTable τ) : Nat → HashIterator τ → Except Fault (List τ)
  | 0, _ => throw .endless
  | fuel + 1, iterator => do
      if iterator.isDone table then return []
      else return (← iterator.item table) :: (← visit table fuel (← iterator.next table))

end HashIterator

end Nachos
