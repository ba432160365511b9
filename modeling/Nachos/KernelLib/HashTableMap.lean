import Nachos.KernelLib.HashTable

/-! A hash table is a finite map from keys to items: every sequence of operations does to it what
it does to the map, through all growth of the table, and an iterator sees every item once.
-/

namespace Nachos
open Outcome Buckets

namespace HashTable

variable {κ τ : Type} {hashing : Hashing κ τ}
  {table after : HashTable τ} {key : κ} {item : τ}

-----------------------------------------------------------------------------------------
-- Items in their buckets
-----------------------------------------------------------------------------------------

/-- The items in the table, bucket after bucket. -/
def items (table : HashTable τ) : List τ := gather table.buckets table.numBuckets

/-- The bucket of a key. -/
def slot (hashing : Hashing κ τ) (key : κ) (table : HashTable τ) : Nat :=
  (hashing.hash key).toNat % table.numBuckets

/-- Every item is in the bucket of its key, and no two items have the same key. -/
structure Placed (hashing : Hashing κ τ) (table : HashTable τ) : Prop where
  positive : 0 < table.numBuckets
  placed
    : ∀ bucket < table.numBuckets, ∀ item ∈ table.buckets bucket,
        slot hashing (hashing.getKey item) table = bucket
  distinct : (table.items.map hashing.getKey).Nodup

theorem Placed.slot_lt (placed : Placed hashing table) (key : κ)
    : slot hashing key table < table.numBuckets :=
  Nat.mod_lt _ placed.positive

theorem Placed.hashValue_eq (placed : Placed hashing table) (key : κ)
    : hashValue hashing key table = .ok (slot hashing key table) :=
  bind_ok (require_of (placed.slot_lt key) _) _

/-- An item of the table is in the bucket of its key. -/
theorem Placed.mem_bucket (placed : Placed hashing table) (member : item ∈ table.items)
    : item ∈ table.buckets (slot hashing (hashing.getKey item) table) := by
  obtain ⟨bucket, inside, here⟩ := mem_gather.mp member
  rw [placed.placed bucket inside item here]
  exact here

/-- Items with the same key are the same. -/
theorem Placed.eq_of_key (placed : Placed hashing table) {other : τ}
    (member : item ∈ table.items) (also : other ∈ table.items)
    (same : hashing.getKey item = hashing.getKey other)
    : item = other :=
  List.inj_on_of_nodup_map placed.distinct member also same

-----------------------------------------------------------------------------------------
-- Checks
-----------------------------------------------------------------------------------------

/-- The items of a bucket all pass their check, by induction on them. -/
theorem Placed.checkBucket (placed : Placed hashing table) {bucket : Nat} {contents : List τ}
    (here
      : ∀ item ∈ contents, slot hashing (hashing.getKey item) table = bucket)
    : HashTable.checkBucket hashing table bucket contents = .ok () := by
  induction contents with
  | nil => rfl
  | cons item rest ih =>
      rw [HashTable.checkBucket, bind_ok (placed.hashValue_eq _),
        bind_ok (require_of (here item List.mem_cons_self).symm _)]
      exact ih (fun other member => here other (List.mem_cons_of_mem _ member))

/-- The buckets pass, and their items are counted, by induction on the buckets. -/
theorem Placed.checkBuckets (placed : Placed hashing table) {places : List Nat}
    (inside : ∀ place ∈ places, place < table.numBuckets) (numFound : Nat)
    : HashTable.checkBuckets hashing table places numFound
      = .ok (numFound + (places.flatMap table.buckets).length) := by
  induction places generalizing numFound with
  | nil => rfl
  | cons place rest ih =>
      have checked := @Placed.checkBucket _ _ _ _ placed place (table.buckets place)
        (placed.placed place (inside place List.mem_cons_self))
      rw [HashTable.checkBuckets, bind_ok checked,
        ih (fun other member => inside other (List.mem_cons_of_mem _ member)),
        List.flatMap_cons, List.length_append, Nat.add_assoc]

/-- `SanityCheck` fails no assertion on a table that counts its items. -/
theorem Placed.sanityCheck (placed : Placed hashing table)
    (counted : table.numItems = table.items.length)
    : HashTable.sanityCheck hashing table = .ok () := by
  have checked := @Placed.checkBuckets _ _ _ _ placed (List.range table.numBuckets)
    (fun _ member => List.mem_range.mp member) 0
  rw [Nat.zero_add] at checked
  rw [HashTable.sanityCheck, bind_ok checked]
  exact require_of counted _

-----------------------------------------------------------------------------------------
-- Operations on one bucket
-----------------------------------------------------------------------------------------

section Lists

variable [DecidableEq τ]

/-- An item with a new key goes into the bucket of its key. -/
theorem Placed.append (placed : Placed hashing table)
    (fresh : hashing.getKey item ∉ table.items.map hashing.getKey)
    : ∃ buckets,
        onBucket (.append item) (slot hashing (hashing.getKey item) table) table
          = .ok { table with buckets }
        ∧ Placed hashing { table with buckets }
        ∧ (items { table with buckets }).Perm (item :: table.items) := by
  let bucket := slot hashing (hashing.getKey item) table
  have inside : bucket < table.numBuckets := placed.slot_lt _
  have absent : item ∉ table.buckets bucket := fun here =>
    fresh (List.mem_map.mpr ⟨item, mem_gather.mpr ⟨bucket, inside, here⟩, rfl⟩)
  obtain ⟨rest, before, change⟩ := gather_update table.buckets inside
  have perm : (gather (Function.update table.buckets bucket (table.buckets bucket ++ [item]))
      table.numBuckets).Perm (item :: table.items) := by
    refine (change _).trans ?_
    rw [List.append_assoc, List.singleton_append]
    exact List.perm_middle.trans (before.symm.cons item)
  refine ⟨Function.update table.buckets bucket (table.buckets bucket ++ [item]), ?_,
    ⟨placed.positive, ?_, ?_⟩, perm⟩
  · exact bind_ok (require_of absent _) _
  · intro place below other member
    change other ∈ Function.update table.buckets bucket (table.buckets bucket ++ [item]) place
      at member
    by_cases here : place = bucket
    · rw [here, Function.update_self] at member
      rcases List.mem_append.mp member with old | new
      · exact here ▸ placed.placed bucket inside other old
      · rw [List.mem_singleton.mp new, here]
        rfl
    · rw [Function.update_of_ne here] at member
      exact placed.placed place below other member
  · exact ((perm.map hashing.getKey).nodup_iff).mpr
      (List.nodup_cons.mpr ⟨fresh, placed.distinct⟩)

/-- An item of the table is taken out of the bucket of its key. -/
theorem Placed.erase (placed : Placed hashing table) (member : item ∈ table.items)
    : ∃ buckets,
        onBucket (.remove item) (slot hashing (hashing.getKey item) table) table
          = .ok { table with buckets }
        ∧ Placed hashing { table with buckets }
        ∧ table.items.Perm (item :: items { table with buckets }) := by
  let bucket := slot hashing (hashing.getKey item) table
  have inside : bucket < table.numBuckets := placed.slot_lt _
  have here : item ∈ table.buckets bucket := placed.mem_bucket member
  obtain ⟨rest, before, change⟩ := gather_update table.buckets inside
  have perm : table.items.Perm (item :: gather
      (Function.update table.buckets bucket ((table.buckets bucket).erase item))
      table.numBuckets) := by
    refine before.trans (((List.perm_cons_erase here).append_right rest).trans ?_)
    exact (change _).symm.cons item
  refine ⟨Function.update table.buckets bucket ((table.buckets bucket).erase item), ?_,
    ⟨placed.positive, ?_, ?_⟩, perm⟩
  · exact bind_ok (require_of here _) _
  · intro place below other member
    change other ∈ Function.update table.buckets bucket ((table.buckets bucket).erase item) place
      at member
    by_cases same : place = bucket
    · rw [same, Function.update_self] at member
      exact same ▸ placed.placed bucket inside other (List.mem_of_mem_erase member)
    · rw [Function.update_of_ne same] at member
      exact placed.placed place below other member
  · exact (List.nodup_cons.mp (((perm.map hashing.getKey).nodup_iff).mp placed.distinct)).2

-----------------------------------------------------------------------------------------
-- Growth
-----------------------------------------------------------------------------------------

/-- The loop over an old bucket moves its items, by induction on them. -/
theorem Placed.moveBucket {pending : List τ} (placed : Placed hashing table)
    (distinct : ((pending ++ table.items).map hashing.getKey).Nodup)
    : ∃ buckets,
        HashTable.moveBucket hashing pending table = .ok { table with buckets }
        ∧ Placed hashing { table with buckets }
        ∧ (items { table with buckets }).Perm (pending ++ table.items) := by
  induction pending generalizing table with
  | nil => exact ⟨table.buckets, rfl, placed, .refl _⟩
  | cons item rest ih =>
      rw [List.cons_append, List.map_cons, List.nodup_cons] at distinct
      obtain ⟨fresh, others⟩ := distinct
      have absent : hashing.getKey item ∉ table.items.map hashing.getKey := by
        intro member
        rw [List.map_append] at fresh
        exact fresh (List.mem_append_right _ member)
      obtain ⟨buckets, appended, placed', perm⟩ := placed.append absent
      have arranged : (rest ++ items { table with buckets }).Perm (item :: (rest ++ table.items)) :=
        (perm.append_left rest).trans List.perm_middle
      obtain ⟨final, moved, placed'', perm'⟩ := ih placed' (by
        rw [(arranged.map hashing.getKey).nodup_iff, List.map_cons, List.nodup_cons]
        exact ⟨fresh, others⟩)
      refine ⟨final, ?_, placed'', perm'.trans arranged⟩
      rw [HashTable.moveBucket, bind_ok (placed.hashValue_eq _), bind_ok appended]
      exact moved

/-- The loop over the old buckets moves all their items, by induction on the buckets. -/
theorem Placed.moveBuckets {oldTable : Nat → List τ} {places : List Nat}
    (placed : Placed hashing table)
    (distinct : ((places.flatMap oldTable ++ table.items).map hashing.getKey).Nodup)
    : ∃ buckets,
        HashTable.moveBuckets hashing oldTable places table = .ok { table with buckets }
        ∧ Placed hashing { table with buckets }
        ∧ (items { table with buckets }).Perm (places.flatMap oldTable ++ table.items) := by
  induction places generalizing table with
  | nil => exact ⟨table.buckets, rfl, placed, .refl _⟩
  | cons place rest ih =>
      have arranged : (rest.flatMap oldTable ++ (oldTable place ++ table.items)).Perm
          ((place :: rest).flatMap oldTable ++ table.items) := by
        rw [List.flatMap_cons, ← List.append_assoc]
        exact List.perm_append_comm.append_right _
      have allDistinct := ((arranged.map hashing.getKey).nodup_iff).mpr distinct
      have firstDistinct : ((oldTable place ++ table.items).map hashing.getKey).Nodup := by
        rw [List.map_append] at allDistinct
        exact (List.nodup_append.mp allDistinct).2.1
      obtain ⟨buckets, moved, placed', perm⟩ := placed.moveBucket firstDistinct
      have further := perm.append_left (rest.flatMap oldTable)
      obtain ⟨final, others, placed'', perm'⟩ :=
        ih placed' (((further.map hashing.getKey).nodup_iff).mpr allDistinct)
      refine ⟨final, ?_, placed'', perm'.trans (further.trans arranged)⟩
      rw [HashTable.moveBuckets, bind_ok moved]
      exact others

/-- `ReHash` keeps all items. -/
theorem Placed.reHash (placed : Placed hashing table)
    (counted : table.numItems = table.items.length)
    : ∃ buckets,
        let grown := { table with buckets, numBuckets := table.numBuckets * increaseSizeBy }
        HashTable.reHash hashing table = .ok grown
        ∧ Placed hashing grown
        ∧ grown.items.Perm table.items := by
  let empty : HashTable τ :=
    { table with buckets := fun _ => [], numBuckets := table.numBuckets * increaseSizeBy }
  have none_ : empty.items = [] := gather_empty _
  have start : Placed hashing empty := by
    refine ⟨Nat.mul_pos placed.positive (by decide), fun _ _ _ member => ?_, ?_⟩
    · exact absurd member List.not_mem_nil
    · rw [none_]
      exact List.nodup_nil
  have distinct : (((List.range table.numBuckets).flatMap table.buckets ++ empty.items).map
      hashing.getKey).Nodup := by
    rw [none_, List.append_nil]
    exact placed.distinct
  obtain ⟨buckets, moved, placed', perm⟩ := start.moveBuckets distinct
  rw [none_, List.append_nil] at perm
  refine ⟨buckets, ?_, placed', perm⟩
  rw [HashTable.reHash, bind_ok (placed.sanityCheck counted), bind_ok moved,
    bind_ok (placed'.sanityCheck (counted.trans perm.length_eq.symm))]
  rfl

end Lists

-----------------------------------------------------------------------------------------
-- Search
-----------------------------------------------------------------------------------------

variable [DecidableEq κ]

/-- A search in the bucket of a key finds the item of the table that has it. -/
theorem Placed.found_iff (placed : Placed hashing table)
    : findInBucket hashing (slot hashing key table) key table = some item
      ↔ item ∈ table.items ∧ hashing.getKey item = key := by
  unfold findInBucket
  constructor
  · intro found
    have here := List.mem_of_find?_eq_some found
    have same : key = hashing.getKey item := by simpa using List.find?_some found
    exact ⟨mem_gather.mpr ⟨_, placed.slot_lt key, here⟩, same.symm⟩
  · rintro ⟨member, rfl⟩
    have here := placed.mem_bucket member
    cases found : (table.buckets (slot hashing (hashing.getKey item) table)).find?
        (fun other => hashing.getKey item = hashing.getKey other) with
    | none => exact absurd (decide_eq_true rfl) (List.find?_eq_none.mp found item here)
    | some other =>
        have inside := mem_gather.mpr
          ⟨_, placed.slot_lt (hashing.getKey item), List.mem_of_find?_eq_some found⟩
        have same : hashing.getKey item = hashing.getKey other := by
          simpa using List.find?_some found
        rw [placed.eq_of_key member inside same]

theorem Placed.find_eq (placed : Placed hashing table) (key : κ)
    : find hashing key table
      = .ok (findInBucket hashing (slot hashing key table) key table) := by
  rw [HashTable.find, bind_ok (placed.hashValue_eq key)]
  rfl

theorem Placed.isInTable_of_mem (placed : Placed hashing table)
    (member : key ∈ table.items.map hashing.getKey)
    : isInTable hashing key table = .ok true := by
  obtain ⟨item, inside, same⟩ := List.mem_map.mp member
  rw [isInTable, placed.find_eq, placed.found_iff.mpr ⟨inside, same⟩]
  rfl

/-- A key that no item has is not found, since its bucket does not have it either. -/
theorem Placed.isInTable_of_not_mem (placed : Placed hashing table)
    (absent : key ∉ table.items.map hashing.getKey)
    : isInTable hashing key table = .ok false := by
  have none_ : findInBucket hashing (slot hashing key table) key table = none := by
    rw [Option.eq_none_iff_forall_ne_some]
    intro item found
    obtain ⟨member, same⟩ := placed.found_iff.mp found
    exact absent (List.mem_map.mpr ⟨item, member, same⟩)
  rw [isInTable, placed.find_eq, none_]
  rfl

-----------------------------------------------------------------------------------------
-- Operations on the table
-----------------------------------------------------------------------------------------

/-- A table after at most `limit` insertions: it counts its items, is at most three times as full
as it has buckets, and grew only for items that it had.
-/
structure Sound (hashing : Hashing κ τ) (limit : Nat) (table : HashTable τ) : Prop where
  placed : Placed hashing table
  counted : table.numItems = table.items.length
  load : table.numItems ≤ resizeRatio * table.numBuckets
  few : table.numItems ≤ limit
  grown : table.numBuckets = initialBuckets ∨ 3 * table.numBuckets ≤ 4 * limit

omit [DecidableEq κ] in
/-- A new table is sound: its buckets are empty. -/
theorem sound_new (hashing : Hashing κ τ) : Sound hashing 0 new where
  placed := by
    refine ⟨Nat.zero_lt_succ 3, fun _ _ _ member => absurd member List.not_mem_nil, ?_⟩
    rw [items, new, gather_empty]
    exact List.nodup_nil
  counted := by
    rw [items, new, gather_empty]
    rfl
  load := Nat.zero_le _
  few := Nat.le_refl 0
  grown := .inl rfl

variable [DecidableEq τ] {limit : Nat}

/-- `Insert` of an item with a new key adds it, whether or not the table grows. -/
theorem Sound.insert (sound : Sound hashing limit table)
    (fresh : hashing.getKey item ∉ table.items.map hashing.getKey)
    : ∃ after, HashTable.insert hashing item table = .ok after
      ∧ Sound hashing (limit + 1) after
      ∧ after.items.Perm (item :: table.items) := by
  have placed := sound.placed
  have roomy : ∃ roomy,
      (if resizeRatio ≤ table.numItems / table.numBuckets then HashTable.reHash hashing table
        else .ok table) = .ok roomy
      ∧ Placed hashing roomy
      ∧ roomy.items.Perm table.items
      ∧ roomy.numItems = table.numItems
      ∧ table.numItems + 1 ≤ resizeRatio * roomy.numBuckets
      ∧ (roomy.numBuckets = initialBuckets ∨ 3 * roomy.numBuckets ≤ 4 * (limit + 1)) := by
    have positive := placed.positive
    have load := sound.load
    have few := sound.few
    by_cases full : resizeRatio ≤ table.numItems / table.numBuckets
    · obtain ⟨buckets, grown, placed', perm⟩ := placed.reHash sound.counted
      have many := (Nat.le_div_iff_mul_le positive).mp full
      unfold resizeRatio at many load
      refine ⟨_, (if_pos full).trans grown, placed', perm, rfl, ?_, .inr ?_⟩
      · change _ ≤ 3 * (table.numBuckets * 4)
        omega
      · change 3 * (table.numBuckets * 4) ≤ _
        omega
    · refine ⟨table, if_neg full, placed, .refl _, rfl, ?_, ?_⟩
      · have room := (Nat.div_lt_iff_lt_mul positive).mp (Nat.not_le.mp full)
        omega
      · rcases sound.grown with first | bounded
        · exact .inl first
        · exact .inr (by omega)
  obtain ⟨roomy, resized, placedRoomy, perm, count, load, grown⟩ := roomy
  have freshRoomy : hashing.getKey item ∉ roomy.items.map hashing.getKey :=
    fun member => fresh ((perm.map hashing.getKey).mem_iff.mp member)
  obtain ⟨buckets, appended, placedAfter, more⟩ := placedRoomy.append freshRoomy
  have present : hashing.getKey item
      ∈ (items { roomy with buckets, numItems := roomy.numItems + 1 }).map hashing.getKey :=
    List.mem_map.mpr ⟨item, more.mem_iff.mpr List.mem_cons_self, rfl⟩
  have placedCounted : Placed hashing { roomy with buckets, numItems := roomy.numItems + 1 } :=
    ⟨placedAfter.positive, placedAfter.placed, placedAfter.distinct⟩
  have all := more.trans (perm.cons item)
  refine ⟨{ roomy with buckets, numItems := roomy.numItems + 1 }, ?_,
    ⟨placedCounted, ?_, ?_, ?_, grown⟩, all⟩
  · rw [HashTable.insert, bind_ok (placed.isInTable_of_not_mem fresh)]
    rw [bind_ok (require_of rfl _), bind_ok resized, bind_ok (placedRoomy.hashValue_eq _),
      bind_ok appended]
    dsimp only
    rw [bind_ok (placedCounted.isInTable_of_mem present)]
    rfl
  · have length := all.length_eq
    rw [List.length_cons, ← sound.counted, ← count] at length
    exact length.symm
  · change roomy.numItems + 1 ≤ _
    rw [count]
    exact load
  · change roomy.numItems + 1 ≤ _
    rw [count]
    exact Nat.succ_le_succ sound.few

/-- `Insert` of an item with a key that is there fails an assertion. -/
theorem Sound.insert_of_mem (sound : Sound hashing limit table)
    (present : hashing.getKey item ∈ table.items.map hashing.getKey)
    : HashTable.insert hashing item table = .error .assertion := by
  rw [HashTable.insert, bind_ok (sound.placed.isInTable_of_mem present)]
  rfl

/-- `Remove` of a key that is there gives its item, and leaves the others. -/
theorem Sound.remove (sound : Sound hashing limit table) (member : item ∈ table.items)
    : ∃ after, HashTable.remove hashing (hashing.getKey item) table = .ok (item, after)
      ∧ Sound hashing limit after
      ∧ table.items.Perm (item :: after.items) := by
  have placed := sound.placed
  obtain ⟨buckets, erased, placedAfter, fewer⟩ := placed.erase member
  have absent : hashing.getKey item
      ∉ (items { table with buckets, numItems := table.numItems - 1 }).map hashing.getKey :=
    (List.nodup_cons.mp (((fewer.map hashing.getKey).nodup_iff).mp placed.distinct)).1
  have placedCounted : Placed hashing { table with buckets, numItems := table.numItems - 1 } :=
    ⟨placedAfter.positive, placedAfter.placed, placedAfter.distinct⟩
  have length := fewer.length_eq
  rw [List.length_cons, ← sound.counted] at length
  refine ⟨{ table with buckets, numItems := table.numItems - 1 }, ?_,
    ⟨placedCounted, ?_, ?_, ?_, sound.grown⟩, fewer⟩
  · rw [HashTable.remove, bind_ok (placed.hashValue_eq _)]
    rw [placed.found_iff.mpr ⟨member, rfl⟩]
    dsimp only
    rw [bind_ok erased]
    dsimp only
    rw [bind_ok (placedCounted.isInTable_of_not_mem absent)]
    rfl
  · change table.numItems - 1 = _
    rw [length]
    rfl
  · exact (Nat.sub_le _ _).trans sound.load
  · exact (Nat.sub_le _ _).trans sound.few

/-- `Remove` of a key that is not there fails an assertion. -/
theorem Sound.remove_of_not_mem (sound : Sound hashing limit table)
    (absent : key ∉ table.items.map hashing.getKey)
    : HashTable.remove hashing key table = .error .assertion := by
  have missing : findInBucket hashing (slot hashing key table) key table = none := by
    rw [Option.eq_none_iff_forall_ne_some]
    intro item found
    obtain ⟨member, same⟩ := sound.placed.found_iff.mp found
    exact absent (List.mem_map.mpr ⟨item, member, same⟩)
  rw [HashTable.remove, bind_ok (sound.placed.hashValue_eq _), missing]
  rfl

end HashTable

end Nachos
