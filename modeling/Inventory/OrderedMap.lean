/-
# Maps that remember insertion order

The maps behind registries, stores, slots, items and render trees.

A key keeps the position at which it was first inserted, and holds the value it
was last given. Removing a key closes the gap; inserting it again appends it.

| operation | order of the keys afterwards |
| --- | --- |
| `insert k v`, `k` present | unchanged |
| `insert k v`, `k` absent | `k` at the end |
| `erase k` | `k` gone, the others in place |
| `merge m` | unchanged, then the new keys of `m` in their order |

Two maps are equal as maps (`==`) when they hold the same value under the same
keys, in whatever order. Structural equality (`=`) also compares the order.
-/

namespace Inventory

/-- A list of keyed entries. The operations below never repeat a key. -/
structure OrderedMap (κ α : Type) where
  entries : List (κ × α) := []
  deriving Repr

namespace OrderedMap

variable {κ α β : Type}

/-- The map without entries. -/
def empty : OrderedMap κ α := ⟨[]⟩

instance : EmptyCollection (OrderedMap κ α) := ⟨empty⟩

instance : Inhabited (OrderedMap κ α) := ⟨empty⟩

/-- Keys in order. -/
def keys (m : OrderedMap κ α) : List κ := m.entries.map Prod.fst

/-- Values in the order of their keys. -/
def values (m : OrderedMap κ α) : List α := m.entries.map Prod.snd

/-- Number of keys. -/
def size (m : OrderedMap κ α) : Nat := m.entries.length

/-- Whether there is no key. -/
def isEmpty (m : OrderedMap κ α) : Bool := m.entries.isEmpty

/-- The entries that satisfy a test, in order. -/
def filter (keep : κ → α → Bool) (m : OrderedMap κ α) : OrderedMap κ α :=
  ⟨m.entries.filter fun e => keep e.1 e.2⟩

/-- Every value replaced, under the same keys. -/
def mapValues (f : κ → α → β) (m : OrderedMap κ α) : OrderedMap κ β :=
  ⟨m.entries.map fun e => (e.1, f e.1 e.2)⟩

variable [DecidableEq κ]

/-- The value of the first entry with key `k`. -/
def lookupIn (k : κ) : List (κ × α) → Option α
  | [] => none
  | (k', v) :: rest => if k' = k then some v else lookupIn k rest

/-- Entries with `k` set to `v`: in place when `k` occurs, else at the end. -/
def insertIn (k : κ) (v : α) : List (κ × α) → List (κ × α)
  | [] => [(k, v)]
  | (k', v') :: rest => if k' = k then (k, v) :: rest else (k', v') :: insertIn k v rest

/-- The value under `k`. -/
def get? (m : OrderedMap κ α) (k : κ) : Option α := lookupIn k m.entries

/-- Whether `k` has a value. -/
def contains (m : OrderedMap κ α) (k : κ) : Bool := (m.get? k).isSome

/-- Set `k` to `v`, keeping the position of a key that is already there. -/
def insert (m : OrderedMap κ α) (k : κ) (v : α) : OrderedMap κ α := ⟨insertIn k v m.entries⟩

/-- Remove `k`, keeping the order of the other keys. -/
def erase (m : OrderedMap κ α) (k : κ) : OrderedMap κ α := m.filter fun k' _ => k' ≠ k

/-- Overlay: the entries of `n` inserted into `m` one after another. -/
def merge (m n : OrderedMap κ α) : OrderedMap κ α :=
  n.entries.foldl (fun acc e => acc.insert e.1 e.2) m

/-- The map that inserting the pairs in order builds. -/
def ofList (pairs : List (κ × α)) : OrderedMap κ α := merge empty ⟨pairs⟩

/-- Replace the value under `k`, if there is one. -/
def modify (m : OrderedMap κ α) (k : κ) (f : α → α) : OrderedMap κ α :=
  m.mapValues fun k' v => if k' = k then f v else v

/-- Equality as maps: the same keys with equal values, in any order. -/
def sameAs [BEq α] (m n : OrderedMap κ α) : Bool :=
  m.size == n.size && m.entries.all fun e => (n.get? e.1).any (e.2 == ·)

instance [BEq α] : BEq (OrderedMap κ α) := ⟨sameAs⟩

/-! ## What each operation does to a lookup and to the keys -/

/-- What is inserted is found. -/
theorem lookupIn_insertIn_self (k : κ) (v : α) (l : List (κ × α)) :
    lookupIn k (insertIn k v l) = some v := by
  induction l with
  | nil => simp [insertIn, lookupIn]
  | cons e rest ih =>
    obtain ⟨k', v'⟩ := e
    by_cases h : k' = k <;> simp [insertIn, lookupIn, h, ih]

/-- An insertion leaves what is found under other keys. -/
theorem lookupIn_insertIn_of_ne {k k' : κ} (h : k' ≠ k) (v : α) (l : List (κ × α)) :
    lookupIn k' (insertIn k v l) = lookupIn k' l := by
  induction l with
  | nil => simp [insertIn, lookupIn, h.symm]
  | cons e rest ih =>
    obtain ⟨k₁, v₁⟩ := e
    by_cases h₁ : k₁ = k
    · subst h₁
      simp [insertIn, lookupIn, h.symm]
    · by_cases h₂ : k₁ = k'
      · subst h₂
        simp [insertIn, lookupIn, h₁]
      · simp [insertIn, lookupIn, h₁, h₂, ih]

/-- A key that is there keeps its place, and a new one comes last. -/
theorem map_fst_insertIn (k : κ) (v : α) (l : List (κ × α)) :
    (insertIn k v l).map Prod.fst
      = if k ∈ l.map Prod.fst then l.map Prod.fst else l.map Prod.fst ++ [k] := by
  induction l with
  | nil => simp [insertIn]
  | cons e rest ih =>
    obtain ⟨k', v'⟩ := e
    by_cases h : k' = k
    · subst h
      simp [insertIn]
    · by_cases hm : k ∈ rest.map Prod.fst
      · simp only [hm, if_true] at ih
        simp [insertIn, h, ih, hm]
      · simp only [hm, if_false] at ih
        simp [insertIn, h, Ne.symm h, ih, hm]

/-- **The last value wins:** a lookup after an insertion sees the new value. -/
@[simp]
theorem get?_insert_self (m : OrderedMap κ α) (k : κ) (v : α) : (m.insert k v).get? k = some v :=
  lookupIn_insertIn_self k v m.entries

/-- An insertion leaves what stands under other keys. -/
theorem get?_insert_of_ne {k k' : κ} (h : k' ≠ k) (m : OrderedMap κ α) (v : α) :
    (m.insert k v).get? k' = m.get? k' :=
  lookupIn_insertIn_of_ne h v m.entries

/-- **The first position wins:** an insertion moves no key. -/
theorem keys_insert (m : OrderedMap κ α) (k : κ) (v : α) :
    (m.insert k v).keys = if k ∈ m.keys then m.keys else m.keys ++ [k] :=
  map_fst_insertIn k v m.entries

/-- An insertion repeats no key. -/
theorem nodup_keys_insert {m : OrderedMap κ α} (h : m.keys.Nodup) (k : κ) (v : α) :
    (m.insert k v).keys.Nodup := by
  rw [keys_insert]
  split
  · exact h
  · rename_i hk
    rw [List.nodup_append]
    refine ⟨h, by simp, ?_⟩
    intro a ha b hb
    rw [List.mem_singleton] at hb
    subst hb
    exact fun e => hk (e ▸ ha)

/-- Nothing stands in the map without entries. -/
@[simp]
theorem get?_empty (k : κ) : (empty : OrderedMap κ α).get? k = none := rfl

/-- Removing a key closes the gap. -/
theorem keys_erase (m : OrderedMap κ α) (k : κ) : (m.erase k).keys = m.keys.filter (· ≠ k) := by
  simp only [erase, filter, keys, List.filter_map]
  rfl

end OrderedMap
end Inventory
