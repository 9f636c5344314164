/-
# The record store

`RecordStore`: `save`, `update`, `delete`, `apply_batch`, `get`, `list`, `list_in_context` and
`find_by`, with the `CacheInvalidator` that it tells.

Records by identifier, in insertion order, and a watcher that holds results
computed from them. Every change of the records tells the watcher once to drop
what it holds; operations that fail or have nothing to do leave it alone.

| operation | changes | tells the watcher |
| --- | --- | --- |
| `save` | inserts, or replaces in place | once |
| `update` | replaces in place, fails without the record | once |
| `delete` | removes, fails without the record | once |
| `applyBatch` | inserts all, then removes all | once, unless both lists are empty |
-/

import Inventory.Record.Basic

namespace Inventory

/-- What holds results computed from records and can drop them all at once. -/
class Watcher (σ : Type) where
  invalidateAll : σ → σ

/-- A watcher that counts how often it was told. -/
structure InvalidationCount where
  count : Nat := 0
  deriving DecidableEq, Repr

instance : Watcher InvalidationCount := ⟨fun c => ⟨c.count + 1⟩⟩

/-- Records by identifier, and their watcher. -/
structure Store (σ : Type) where
  records : OrderedMap Ulid Record := .empty
  watcher : σ

namespace Store

variable {σ : Type}

/-- A store without records. -/
def new (watcher : σ) : Store σ := { watcher }

/-- The record of an identifier. -/
def get? (s : Store σ) (id : Ulid) : Option Record := s.records.get? id

/-- Number of records. -/
def size (s : Store σ) : Nat := s.records.size

/-- The records of one entity type. -/
def list (s : Store σ) (entityType : String) : List Record :=
  s.records.values.filter fun r => r.entityType = entityType

/-- The records of one entity type in one cloud context. -/
def listInContext (s : Store σ) (entityType context : String) : List Record :=
  (s.list entityType).filter fun r => r.cloudContext? = some context

/-- The first record of an entity type on which a field has a value. -/
def findBy? (s : Store σ) (entityType field : String) (value : FieldValue) : Option Record :=
  (s.list entityType).find? fun r => (r.slots.get? field).any (· == value)

variable [Watcher σ]

/-- The store with other records, after the watcher was told. -/
def changed (s : Store σ) (records : OrderedMap Ulid Record) : Store σ where
  records := records
  watcher := Watcher.invalidateAll s.watcher

/-- Insert a record, or replace the one of its identifier. -/
def save (s : Store σ) (r : Record) : Store σ := s.changed (s.records.insert r.id r)

/-- Replace the record of the same identifier. -/
def updating (r : Record) : Attempt (Store σ) RecordError Unit := do
  if (← get).records.contains r.id then
    modify (·.save r)
  else
    throw (.recordNotFound r.id)

/-- Remove a record and hand it out. -/
def deleting (id : Ulid) : Attempt (Store σ) RecordError Record := do
  match (← get).get? id with
  | some r =>
    modify fun s => s.changed (s.records.erase id)
    return r
  | none => throw (.recordNotFound id)

/-- The store in which a record is replaced. -/
def update (s : Store σ) (r : Record) : Except RecordError (Store σ) := (updating r).next s

/-- A record, and the store from which it is removed. -/
def delete (s : Store σ) (id : Ulid) : Except RecordError (Record × Store σ) :=
  (deleting id).outcome s

/-- The records after saving some and then removing some. -/
def batched (records : OrderedMap Ulid Record) (upserts : List Record) (deletes : List Ulid) :
    OrderedMap Ulid Record :=
  deletes.foldl OrderedMap.erase (upserts.foldl (fun m r => m.insert r.id r) records)

/-- Save and remove in one step. -/
def applyBatch (s : Store σ) (upserts : List Record) (deletes : List Ulid) : Store σ :=
  if upserts.isEmpty ∧ deletes.isEmpty then s else s.changed (batched s.records upserts deletes)

/-! ### Changes that may fail -/

/-- Updating, run on a store. -/
theorem run_updating (s : Store σ) (r : Record) :
    (updating r).run.run s
      = if s.records.contains r.id then (.ok (), s.save r) else (.error (.recordNotFound r.id), s) := by
  rw [updating, ExceptT.run_bind, StateT.run_bind]
  change (if s.records.contains r.id then _ else _ : Attempt (Store σ) RecordError Unit).run.run s
    = _
  split <;> rfl

/-- **The store in which a record is replaced**, case by case. -/
theorem update_eq (s : Store σ) (r : Record) :
    s.update r
      = if s.records.contains r.id then .ok (s.save r) else .error (.recordNotFound r.id) := by
  rw [update, Attempt.next, Attempt.outcome, run_updating]
  by_cases hstored : s.records.contains r.id <;> simp only [hstored] <;> rfl

/-- An update that fails leaves the store and its watcher alone. -/
theorem atomic_updating (r : Record) : (updating r : Attempt (Store σ) RecordError Unit).Atomic := by
  intro s s' e h
  rw [run_updating] at h
  split at h
  · cases h
  · exact (Prod.mk.inj h).2.symm

/-- Deleting, run on a store. -/
theorem run_deleting (s : Store σ) (id : Ulid) :
    (deleting id).run.run s = match s.get? id with
      | some r => (.ok r, s.changed (s.records.erase id))
      | none => (.error (.recordNotFound id), s) := by
  rw [deleting, ExceptT.run_bind, StateT.run_bind]
  change (match s.get? id with
    | some r => _
    | none => _ : Attempt (Store σ) RecordError Record).run.run s = _
  cases s.get? id <;> rfl

/-- **The store from which a record is removed**, case by case. -/
theorem delete_eq (s : Store σ) (id : Ulid) :
    s.delete id = match s.get? id with
      | some r => .ok (r, s.changed (s.records.erase id))
      | none => .error (.recordNotFound id) := by
  rw [delete, Attempt.outcome, run_deleting]
  cases s.get? id <;> rfl

/-- A deletion that fails leaves the store and its watcher alone. -/
theorem atomic_deleting (id : Ulid) :
    (deleting id : Attempt (Store σ) RecordError Record).Atomic := by
  intro s s' e h
  rw [run_deleting] at h
  split at h
  · cases h
  · exact (Prod.mk.inj h).2.symm

end Store
end Inventory
