import Mathlib.Data.Finmap

/-! Finite maps of at most a given number of entries. An entry is added under a new key only,
and while there is room.
-/

universe u

/-- A map of at most `capacity` entries. -/
structure BoundedMap (κ ν : Type u) (capacity : Nat) where
  entries : Finmap (fun _ : κ => ν)
  bounded : entries.keys.card ≤ capacity

namespace BoundedMap

variable {κ ν : Type u} [DecidableEq κ] {capacity : Nat}

def empty : BoundedMap κ ν capacity := { entries := ∅, bounded := by simp }

def find (map : BoundedMap κ ν capacity) (key : κ) : Option ν := map.entries.lookup key

/-- The map can take a new entry under the key. -/
def Accepts (map : BoundedMap κ ν capacity) (key : κ) : Prop :=
  key ∉ map.entries ∧ map.entries.keys.card < capacity

instance (map : BoundedMap κ ν capacity) (key : κ) : Decidable (map.Accepts key) :=
  inferInstanceAs (Decidable (_ ∧ _))

/-- An accepted key leaves the map within its capacity, since the key is new. -/
theorem card_insert_le {map : BoundedMap κ ν capacity} {key : κ} (accepts : map.Accepts key)
    (value : ν)
    : (map.entries.insert key value).keys.card ≤ capacity := by
  have keys : (map.entries.insert key value).keys = insert key map.entries.keys := by
    ext other
    simp only [Finmap.mem_keys, Finmap.mem_insert, Finset.mem_insert]
  rw [keys, Finset.card_insert_of_notMem (fun member => accepts.1 (Finmap.mem_keys.mp member))]
  exact accepts.2

/-- Enter a value; false when the key is there or the map is full. -/
def add (map : BoundedMap κ ν capacity) (key : κ) (value : ν)
    : Bool × BoundedMap κ ν capacity :=
  if accepts : map.Accepts key then
    (true, { entries := map.entries.insert key value, bounded := card_insert_le accepts value })
  else (false, map)

/-- Take the key out of the map; false when it is not there. -/
def remove (map : BoundedMap κ ν capacity) (key : κ) : Bool × BoundedMap κ ν capacity :=
  if key ∈ map.entries then
    (true, {
      entries := map.entries.erase key
      bounded := by
        rw [Finmap.keys_erase]
        exact (Finset.card_le_card (Finset.erase_subset ..)).trans map.bounded
    })
  else (false, map)

theorem find_empty (key : κ) : (empty : BoundedMap κ ν capacity).find key = none :=
  Finmap.lookup_empty key

theorem mem_entries_iff (map : BoundedMap κ ν capacity) (key : κ)
    : key ∈ map.entries ↔ ∃ value, map.find key = some value :=
  Finmap.mem_iff

section Changes

variable {map : BoundedMap κ ν capacity} {key : κ}

theorem add_of_accepts (accepts : map.Accepts key) (value : ν)
    : (map.add key value).1 = true
      ∧ (map.add key value).2.find key = some value
      ∧ ∀ other ≠ key, (map.add key value).2.find other = map.find other := by
  rw [add, dif_pos accepts]
  exact ⟨rfl, Finmap.lookup_insert _, fun other apart => Finmap.lookup_insert_of_ne _ apart⟩

theorem add_of_refuses (refuses : ¬map.Accepts key) (value : ν)
    : map.add key value = (false, map) :=
  dif_neg refuses

theorem remove_of_mem (present : key ∈ map.entries)
    : (map.remove key).1 = true
      ∧ (map.remove key).2.find key = none
      ∧ ∀ other ≠ key, (map.remove key).2.find other = map.find other := by
  rw [remove, if_pos present]
  exact ⟨rfl, Finmap.lookup_erase .., fun other apart => Finmap.lookup_erase_ne apart⟩

theorem remove_of_absent (absent : key ∉ map.entries) : map.remove key = (false, map) :=
  if_neg absent

end Changes

end BoundedMap
