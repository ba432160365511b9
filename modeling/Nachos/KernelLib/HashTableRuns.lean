import Nachos.KernelLib.HashTableMap

/-! Sequences of operations on a hash table from its constructor on, and iteration over what they
leave.
-/

namespace Nachos
open Outcome Buckets

-----------------------------------------------------------------------------------------
-- Iteration
-----------------------------------------------------------------------------------------

namespace HashIterator
open HashTable

variable {τ : Type} {table : HashTable τ} {iterator : HashIterator τ}

/-- The items in the given number of buckets from one on. -/
def itemsFrom (table : HashTable τ) (bucket count : Nat) : List τ :=
  (List.range' bucket count).flatMap table.buckets

/-- The items that an iterator has still to see, from the current one on. -/
def remaining (table : HashTable τ) (iterator : HashIterator τ) : List τ :=
  iterator.bucketIter.elim [] (fun contents =>
    contents ++ itemsFrom table (iterator.bucket + 1) (table.numBuckets - (iterator.bucket + 1)))

/-- An iterator is behind the last bucket, or on an item. -/
def Stands (table : HashTable τ) (iterator : HashIterator τ) : Prop :=
  iterator.bucket = table.numBuckets ∧ iterator.bucketIter = none
    ∨ iterator.bucket < table.numBuckets
      ∧ ∃ item rest, iterator.bucketIter = some (item :: rest)

theorem enter_of_lt {bucket : Nat} (inside : bucket < table.numBuckets)
    : enter bucket table = { bucket, bucketIter := some (table.buckets bucket) } := by
  rw [enter, if_pos inside]

theorem enter_of_not_lt {bucket : Nat} (outside : ¬ bucket < table.numBuckets)
    : enter bucket table = { bucket, bucketIter := none } := by
  rw [enter, if_neg outside]

/-- The search for a full bucket passes no item, by induction on the buckets. -/
theorem stands_nextFull {bucket count : Nat} (all : bucket + count = table.numBuckets)
    : Stands table (enter (nextFullFrom table count bucket) table)
      ∧ remaining table (enter (nextFullFrom table count bucket) table)
        = itemsFrom table bucket count := by
  induction count generalizing bucket with
  | zero =>
      have last : bucket = table.numBuckets := all
      rw [nextFullFrom, enter_of_not_lt (by omega)]
      exact ⟨.inl ⟨last, rfl⟩, rfl⟩
  | succ count ih =>
      have split : itemsFrom table bucket (count + 1)
          = table.buckets bucket ++ itemsFrom table (bucket + 1) count := by
        rw [itemsFrom, List.range'_succ, List.flatMap_cons, itemsFrom]
      rw [nextFullFrom, split]
      cases contents : table.buckets bucket with
      | nil => exact @ih (bucket + 1) (by omega)
      | cons item rest =>
          have inside : bucket < table.numBuckets := by omega
          have count_eq : table.numBuckets - (bucket + 1) = count := by omega
          rw [List.isEmpty_cons, if_neg Bool.false_ne_true, enter_of_lt inside, contents]
          refine ⟨.inr ⟨inside, item, rest, rfl⟩, ?_⟩
          change _ ++ itemsFrom table (bucket + 1) (table.numBuckets - (bucket + 1)) = _
          rw [count_eq]

theorem stands_startFrom {bucket : Nat} (inside : bucket ≤ table.numBuckets)
    : Stands table (startFrom bucket table)
      ∧ remaining table (startFrom bucket table)
        = itemsFrom table bucket (table.numBuckets - bucket) :=
  stands_nextFull (by omega)

/-- Iteration sees what remains, item by item, and then is done, by induction on the turns. -/
theorem Stands.visit (stands : Stands table iterator) {fuel : Nat}
    (enough : (remaining table iterator).length < fuel)
    : HashIterator.visit table fuel iterator = .ok (remaining table iterator) := by
  induction fuel generalizing iterator with
  | zero => exact absurd enough (Nat.not_lt_zero _)
  | succ fuel ih =>
      rcases stands with ⟨last, none_⟩ | ⟨inside, item, rest, current⟩
      · have done : iterator.isDone table = true := decide_eq_true last
        rw [HashIterator.visit, if_pos done, remaining, none_]
        rfl
      · have running : iterator.isDone table = false := decide_eq_false inside.ne
        have seen : iterator.item table = .ok item := by
          rw [HashIterator.item, bind_ok (require_of running _), current]
          rfl
        have here : remaining table iterator = item :: (rest
            ++ itemsFrom table (iterator.bucket + 1)
              (table.numBuckets - (iterator.bucket + 1))) := by
          rw [remaining, current]
          rfl
        rw [here, List.length_cons] at enough
        have further : ∃ after, iterator.next table = .ok after ∧ Stands table after
            ∧ remaining table after
              = rest ++ itemsFrom table (iterator.bucket + 1)
                (table.numBuckets - (iterator.bucket + 1)) := by
          rw [HashIterator.next, current]
          cases rest with
          | nil =>
              exact ⟨_, rfl, stands_startFrom inside⟩
          | cons second others =>
              exact ⟨{ iterator with bucketIter := some (second :: others) }, rfl,
                .inr ⟨inside, second, others, rfl⟩, rfl⟩
        obtain ⟨after, moved, standsAfter, same⟩ := further
        have others := ih standsAfter (by rw [same]; omega)
        rw [HashIterator.visit, if_neg (by rw [running]; exact Bool.false_ne_true)]
        rw [bind_ok seen, bind_ok moved, bind_ok others, same, here]
        rfl

/-- Iteration over a whole table sees its items. -/
theorem visit_new {fuel : Nat} (enough : table.items.length < fuel)
    : HashIterator.visit table fuel (HashIterator.new table) = .ok table.items := by
  obtain ⟨stands, all⟩ := stands_startFrom (Nat.zero_le table.numBuckets)
  have items : remaining table (startFrom 0 table) = table.items := by
    rw [all, itemsFrom, HashTable.items, gather, List.range_eq_range', Nat.sub_zero]
  rw [HashIterator.new, stands.visit (by rwa [items]), items]

end HashIterator

-----------------------------------------------------------------------------------------
-- Operations on a map
-----------------------------------------------------------------------------------------

namespace HashTable

variable {κ τ : Type} [DecidableEq κ] [DecidableEq τ]

inductive Operation (κ τ : Type) where
  | insert (item : τ)
  | remove (key : κ)
  | find (key : κ)

def perform (hashing : Hashing κ τ) (table : HashTable τ)
    : Operation κ τ → Except Fault (Option τ × HashTable τ)
  | .insert item => do return (none, ← insert hashing item table)
  | .remove key => do
      let (item, after) ← remove hashing key table
      return (some item, after)
  | .find key => do return (← find hashing key table, table)

def performAll (hashing : Hashing κ τ)
    : List (Operation κ τ) → HashTable τ → Except Fault (List (Option τ) × HashTable τ)
  | [], table => return ([], table)
  | operation :: operations, table => do
      let (found, next) ← perform hashing table operation
      let (others, final) ← performAll hashing operations next
      return (found :: others, final)

omit [DecidableEq τ] in
/-- The same on a map, where only new keys are inserted and only keys that are there removed. -/
def apply (hashing : Hashing κ τ) (map : κ → Option τ)
    : Operation κ τ → Option (Option τ × (κ → Option τ))
  | .insert item =>
      if (map (hashing.getKey item)).isNone then
        some (none, Function.update map (hashing.getKey item) (some item))
      else none
  | .remove key => (map key).map (fun item => (some item, Function.update map key none))
  | .find key => some (map key, map)

omit [DecidableEq τ] in
def applyAll (hashing : Hashing κ τ)
    : List (Operation κ τ) → (κ → Option τ) → Option (List (Option τ) × (κ → Option τ))
  | [], map => some ([], map)
  | operation :: operations, map =>
      (apply hashing map operation).bind (fun (found, next) =>
        (applyAll hashing operations next).map (fun (others, final) => (found :: others, final)))

/-- The table has the items of the map, under their keys. -/
structure Represents (hashing : Hashing κ τ) (limit : Nat) (table : HashTable τ)
    (map : κ → Option τ)
    : Prop where
  sound : Sound hashing limit table
  same : ∀ key item, map key = some item ↔ item ∈ table.items ∧ hashing.getKey item = key

variable {hashing : Hashing κ τ} {limit : Nat} {table : HashTable τ} {map : κ → Option τ}
  {key : κ} {item : τ}

omit [DecidableEq κ] [DecidableEq τ] in
/-- A key is in the table when the map has it. -/
theorem Represents.mem_keys (represents : Represents hashing limit table map)
    : key ∈ table.items.map hashing.getKey ↔ map key ≠ none := by
  rw [List.mem_map, Option.ne_none_iff_exists']
  constructor
  · rintro ⟨item, member, same⟩
    exact ⟨item, (represents.same key item).mpr ⟨member, same⟩⟩
  · rintro ⟨item, found⟩
    exact ⟨item, (represents.same key item).mp found⟩

omit [DecidableEq τ] in
theorem Represents.find (represents : Represents hashing limit table map) (key : κ)
    : HashTable.find hashing key table = .ok (map key) := by
  rw [represents.sound.placed.find_eq]
  refine congrArg Except.ok (Option.ext (fun item => ?_))
  rw [represents.sound.placed.found_iff, represents.same]

omit [DecidableEq τ] in
/-- A map with an item more, for a table with that item more. -/
theorem Represents.add {after : HashTable τ} (represents : Represents hashing limit table map)
    (sound : Sound hashing (limit + 1) after) (more : after.items.Perm (item :: table.items))
    (fresh : map (hashing.getKey item) = none)
    : Represents hashing (limit + 1) after
        (Function.update map (hashing.getKey item) (some item)) := by
  refine ⟨sound, fun key other => ?_⟩
  rw [more.mem_iff, List.mem_cons]
  by_cases here : key = hashing.getKey item
  · subst here
    rw [Function.update_self, Option.some.injEq]
    constructor
    · rintro rfl
      exact ⟨.inl rfl, rfl⟩
    · rintro ⟨rfl | old, same⟩
      · rfl
      · exact absurd fresh (represents.mem_keys.mp (List.mem_map.mpr ⟨other, old, same⟩))
  · rw [Function.update_of_ne here, represents.same]
    constructor
    · rintro ⟨old, same⟩
      exact ⟨.inr old, same⟩
    · rintro ⟨rfl | old, same⟩
      · exact absurd same.symm here
      · exact ⟨old, same⟩

omit [DecidableEq τ] in
/-- A map without an item, for a table without it. -/
theorem Represents.drop {after : HashTable τ} (represents : Represents hashing limit table map)
    (sound : Sound hashing limit after) (fewer : table.items.Perm (item :: after.items))
    : Represents hashing limit after (Function.update map (hashing.getKey item) none) := by
  have once := ((fewer.map hashing.getKey).nodup_iff).mp represents.sound.placed.distinct
  have gone := (List.nodup_cons.mp once).1
  refine ⟨sound, fun key other => ?_⟩
  by_cases here : key = hashing.getKey item
  · subst here
    rw [Function.update_self]
    constructor
    · intro found
      exact absurd found.symm (Option.some_ne_none other)
    · rintro ⟨member, same⟩
      exact absurd (List.mem_map.mpr ⟨other, member, same⟩) gone
  · rw [Function.update_of_ne here, represents.same, fewer.mem_iff, List.mem_cons]
    constructor
    · rintro ⟨rfl | old, same⟩
      · exact absurd same.symm here
      · exact ⟨old, same⟩
    · rintro ⟨old, same⟩
      exact ⟨.inr old, same⟩

/-- One operation does to the table what it does to the map, and fails an assertion where the map
has no such operation, by cases on the operation.
-/
theorem Represents.perform (represents : Represents hashing limit table map)
    (operation : Operation κ τ)
    : (apply hashing map operation = none
        → HashTable.perform hashing table operation = .error .assertion)
      ∧ ∀ found next, apply hashing map operation = some (found, next)
        → ∃ after, HashTable.perform hashing table operation = .ok (found, after)
          ∧ Represents hashing (limit + 1) after next := by
  have sound := represents.sound
  have later {after : HashTable τ} (kept : Sound hashing limit after)
      : Sound hashing (limit + 1) after :=
    ⟨kept.placed, kept.counted, kept.load, kept.few.trans (Nat.le_succ limit),
      kept.grown.imp_right (fun bounded => by omega)⟩
  cases operation with
  | insert item =>
      cases free : map (hashing.getKey item) with
      | none =>
          refine ⟨fun stuck => ?_, fun found next applied => ?_⟩
          · rw [apply, free] at stuck
            exact absurd stuck (Option.some_ne_none _)
          · rw [apply, free] at applied
            cases Option.some.inj applied
            have fresh : hashing.getKey item ∉ table.items.map hashing.getKey :=
              fun member => represents.mem_keys.mp member free
            obtain ⟨after, inserted, soundAfter, more⟩ := sound.insert fresh
            refine ⟨after, ?_, represents.add soundAfter more free⟩
            rw [HashTable.perform, bind_ok inserted]
            rfl
      | some other =>
          refine ⟨fun _ => ?_, fun found next applied => ?_⟩
          · have present : hashing.getKey item ∈ table.items.map hashing.getKey :=
              represents.mem_keys.mpr (by rw [free]; exact Option.some_ne_none other)
            rw [HashTable.perform, sound.insert_of_mem present]
            rfl
          · rw [apply, free] at applied
            exact absurd applied.symm (Option.some_ne_none _)
  | remove key =>
      cases content : map key with
      | none =>
          refine ⟨fun _ => ?_, fun found next applied => ?_⟩
          · have absent : key ∉ table.items.map hashing.getKey :=
              fun member => represents.mem_keys.mp member content
            rw [HashTable.perform, sound.remove_of_not_mem absent]
            rfl
          · rw [apply, content] at applied
            exact absurd applied.symm (Option.some_ne_none _)
      | some item =>
          refine ⟨fun stuck => ?_, fun found next applied => ?_⟩
          · rw [apply, content] at stuck
            exact absurd stuck (Option.some_ne_none _)
          · rw [apply, content] at applied
            cases Option.some.inj applied
            obtain ⟨member, rfl⟩ := (represents.same key item).mp content
            obtain ⟨after, removed, soundAfter, fewer⟩ := sound.remove member
            have smaller := represents.drop soundAfter fewer
            refine ⟨after, ?_, later smaller.sound, smaller.same⟩
            rw [HashTable.perform, bind_ok removed]
            rfl
  | find key =>
      refine ⟨fun stuck => absurd stuck (Option.some_ne_none _), fun found next applied => ?_⟩
      cases Option.some.inj applied
      refine ⟨table, ?_, later sound, represents.same⟩
      rw [HashTable.perform, bind_ok (represents.find key)]
      rfl

/-- The same of a sequence of operations, by induction on it. -/
theorem Represents.performAll (represents : Represents hashing limit table map)
    (operations : List (Operation κ τ))
    : (applyAll hashing operations map = none
        → HashTable.performAll hashing operations table = .error .assertion)
      ∧ ∀ found final, applyAll hashing operations map = some (found, final)
        → ∃ after, HashTable.performAll hashing operations table = .ok (found, after)
          ∧ Represents hashing (limit + operations.length) after final := by
  induction operations generalizing limit table map with
  | nil =>
      refine ⟨fun stuck => absurd stuck (Option.some_ne_none _), fun found final applied => ?_⟩
      cases Option.some.inj applied
      exact ⟨table, rfl, represents⟩
  | cons operation rest ih =>
      obtain ⟨fails, goes⟩ := represents.perform operation
      cases first : apply hashing map operation with
      | none =>
          refine ⟨fun _ => ?_, fun found final applied => ?_⟩
          · rw [HashTable.performAll, fails first]
            rfl
          · rw [applyAll, first] at applied
            exact absurd applied.symm (Option.some_ne_none _)
      | some step =>
          obtain ⟨middle, performed, represents'⟩ := goes step.1 step.2 first
          obtain ⟨restFails, restGoes⟩ := ih represents'
          rw [applyAll, first, Option.bind_some]
          refine ⟨fun stuck => ?_, fun found final applied => ?_⟩
          · rw [HashTable.performAll, bind_ok performed]
            dsimp only
            rw [restFails (Option.map_eq_none_iff.mp stuck)]
            rfl
          · obtain ⟨others, ran, same⟩ := Option.map_eq_some_iff.mp applied
            cases same
            obtain ⟨after, all, represents''⟩ := restGoes others.1 others.2 ran
            refine ⟨after, ?_, ?_⟩
            · rw [HashTable.performAll, bind_ok performed]
              dsimp only
              rw [bind_ok all]
              rfl
            · rw [List.length_cons, Nat.add_comm rest.length 1, ← Nat.add_assoc]
              exact represents''

/-- A sequence of operations stops with a failed assertion exactly where the map has no such
sequence. Otherwise it finds what the map has, and leaves a table that passes its own check, finds
the items of the map and no others, sees each of them once when it is iterated over, and is
neither overfull nor larger than the operations account for.
-/
theorem operations_represent_map (hashing : Hashing κ τ) (operations : List (Operation κ τ))
    : (applyAll hashing operations (fun _ => none) = none
        → performAll hashing operations new = .error .assertion)
      ∧ ∀ found map, applyAll hashing operations (fun _ => none) = some (found, map)
        → ∃ table : HashTable τ, performAll hashing operations new = .ok (found, table)
          ∧ (∀ key, HashTable.find hashing key table = .ok (map key))
          ∧ sanityCheck hashing table = .ok ()
          ∧ (table.isEmpty ↔ ∀ key, map key = none)
          ∧ (∃ items, HashIterator.visit table (table.numItems + 1) (.new table) = .ok items
            ∧ items.Nodup ∧ ∀ item, item ∈ items ↔ map (hashing.getKey item) = some item)
          ∧ table.numItems ≤ resizeRatio * table.numBuckets
          ∧ (table.numBuckets = initialBuckets
            ∨ 3 * table.numBuckets ≤ 4 * operations.length) := by
  have start : Represents hashing 0 (new : HashTable τ) (fun _ => none) := by
    refine ⟨sound_new hashing, fun key item => ?_⟩
    rw [items, new, gather_empty]
    exact ⟨fun found => absurd found.symm (Option.some_ne_none item),
      fun member => absurd member.1 List.not_mem_nil⟩
  obtain ⟨fails, goes⟩ := start.performAll operations
  refine ⟨fails, fun found map applied => ?_⟩
  obtain ⟨table, performed, represents⟩ := goes found map applied
  have sound := represents.sound
  have counted := sound.counted
  rw [Nat.zero_add] at represents
  refine ⟨table, performed, represents.find, sound.placed.sanityCheck counted, ?_,
    ⟨table.items, HashIterator.visit_new (by omega), .of_map _ sound.placed.distinct,
      fun item => ?_⟩,
    sound.load, represents.sound.grown⟩
  · rw [isEmpty, decide_eq_true_iff, counted, List.length_eq_zero_iff]
    constructor
    · intro empty key
      by_contra found
      have member := represents.mem_keys.mpr found
      rw [empty] at member
      exact List.not_mem_nil member
    · intro empty
      refine List.eq_nil_iff_forall_not_mem.mpr (fun item member => ?_)
      have found := (represents.same (hashing.getKey item) item).mpr ⟨member, rfl⟩
      exact absurd ((empty _).symm.trans found).symm (Option.some_ne_none item)
  · rw [represents.same]
    exact ⟨fun member => ⟨member, rfl⟩, And.left⟩

/-- Thirteen numbers under their tens: the last one makes the table grow. -/
example
    : (performAll ⟨fun item : Nat => item / 10, BitVec.ofNat 32⟩
        ((List.range 13).map (fun item => .insert (10 * item))
          ++ [.remove 4, .find 4, .find 12]) new).map
          (fun final => (final.1.drop 13, final.2.numItems, final.2.numBuckets))
      = .ok ([some 40, none, some 120], 12, 16) := by
  rfl

end HashTable

end Nachos
