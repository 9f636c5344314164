/-
# Reconciling stored records with what the provider reports

`Reconciler`: `reconcile` with its `stamp`, and `SyncReport`.

Records of one entity type and cloud context are matched by the text of a key
field. Of several stored records with a key the first is kept and the others are
deleted; of several reported records with a key the last one counts.

| key is | the record |
| --- | --- |
| reported and stored | is replaced, under the stored identifier |
| reported only | is inserted |
| stored only | is deleted |

Three fields are stamped where the schema declares them and are ignored when
values are compared: `created` when a key first appears, `changed` when a value
differs from the stored one, `refreshed` always.

`plan` computes all of this from the stored and the reported records;
`Store.reconcile` reads the records, plans, and applies the plan as one batch.
-/

import Inventory.Store

namespace Inventory

/-- What a reconciliation did. Skipped are reported records without a key, and
those that a later one with the same key replaced. -/
structure SyncReport where
  entityType : String
  cloudContext : String
  created : Nat := 0
  updated : Nat := 0
  unchanged : Nat := 0
  deleted : Nat := 0
  skipped : Nat := 0
  deriving DecidableEq, Repr

namespace SyncReport

/-- Whether anything was created, updated or deleted. -/
def changed (r : SyncReport) : Bool := decide (0 < r.created + r.updated + r.deleted)

/-- The report in a document. -/
def toData (r : SyncReport) : Data := .ofMembers [
  ("entity_type", .str r.entityType),
  ("cloud_context", .str r.cloudContext),
  ("created", .int r.created),
  ("updated", .int r.updated),
  ("unchanged", .int r.unchanged),
  ("deleted", .int r.deleted),
  ("skipped", .int r.skipped)]

end SyncReport

namespace Reconcile

/-- When a key first appeared. -/
def createdField : String := "created"

/-- When a value last differed. -/
def changedField : String := "changed"

/-- When the record was last reported. -/
def refreshedField : String := "refreshed"

/-- The fields that reconciliation owns. They never count as a difference. -/
def stampFields : List String := [createdField, changedField, refreshedField]

/-- Set a stamp, on a record whose schema declares it. -/
def stamp (r : Record) (field : String) (value : FieldValue) : Except RecordError Record :=
  if r.schema.declares field then r.set field value else .ok r

/-- Give a record the stamp of another one that has it. -/
def copyStamp (r source : Record) (field : String) : Except RecordError Record :=
  match source.slots.get? field with
  | some value => stamp r field value
  | none => .ok r

/-- The text of the key field, which every record must declare. -/
def keyOf (keyField : String) (r : Record) : Except RecordError (Option String) :=
  match r.value keyField with
  | .ok v => .ok v.text?
  | .error e => .error e

/-- Stored records by key, first one first, and the identifiers of the others. -/
structure StoredIndex where
  byKey : OrderedMap String Record := .empty
  duplicates : List Ulid := []

/-- Enter a stored record. -/
def StoredIndex.enter (keyField : String) (index : StoredIndex) (r : Record) :
    Except RecordError StoredIndex :=
  match keyOf keyField r with
  | .error e => .error e
  | .ok none => .ok index
  | .ok (some key) =>
    if index.byKey.contains key then
      .ok { index with duplicates := index.duplicates ++ [r.id] }
    else .ok { index with byKey := index.byKey.insert key r }

/-- Reported records by key, last one winning, and how many were skipped. -/
structure ReportedIndex where
  byKey : OrderedMap String Record := .empty
  skipped : Nat := 0

/-- Enter a reported record, moved to the cloud context that is reconciled. -/
def ReportedIndex.enter (schema : Schema) (context keyField : String) (index : ReportedIndex)
    (r : Record) : Except RecordError ReportedIndex :=
  if r.entityType ≠ schema.name then .error (.entityTypeMismatch schema.name r.entityType)
  else
    let placed :=
      if schema.declares Record.contextField then r.set Record.contextField (.string context)
      else .ok r
    match placed with
    | .error e => .error e
    | .ok r =>
      match keyOf keyField r with
      | .error e => .error e
      | .ok none => .ok { index with skipped := index.skipped + 1 }
      | .ok (some key) =>
        let again := if index.byKey.contains key then 1 else 0
        .ok { byKey := index.byKey.insert key r, skipped := index.skipped + again }

/-- What became of a reported record. -/
inductive Outcome where
  | created
  | updated
  | unchanged
  deriving DecidableEq, Repr

/-- A reported record whose key is stored: it takes the identifier and the
creation stamp of the stored record, and its change stamp when no value differs. -/
def matched (now : Timestamp) (existing r : Record) : Except RecordError (Record × Outcome) := do
  let r ← copyStamp (r.withId existing.id) existing createdField
  let (r, outcome) ←
    if r.sameValuesExcept stampFields existing then
      pure (← copyStamp r existing changedField, Outcome.unchanged)
    else
      pure (← stamp r changedField (.timestamp now), Outcome.updated)
  return (← stamp r refreshedField (.timestamp now), outcome)

/-- A reported record whose key is new: it keeps a creation stamp it brings. -/
def fresh (now : Timestamp) (r : Record) : Except RecordError (Record × Outcome) := do
  let r ←
    match r.slots.get? createdField with
    | none | some .absent => stamp r createdField (.timestamp now)
    | some _ => pure r
  let r ← stamp r changedField (.timestamp now)
  return (← stamp r refreshedField (.timestamp now), .created)

/-- The record to store for a reported key. -/
def settle (now : Timestamp) (stored : OrderedMap String Record) (entry : String × Record) :
    Except RecordError (Record × Outcome) :=
  match stored.get? entry.1 with
  | some existing => matched now existing entry.2
  | none => fresh now entry.2

/-- What to store and what to delete, and the report on it. -/
structure Plan where
  report : SyncReport
  upserts : List Record
  deletes : List Ulid

/-- Plan a reconciliation of the stored records of one entity type and cloud
context with the reported ones. -/
def plan (schema : Schema) (context keyField : String) (stored remote : List Record)
    (now : Timestamp) : Except RecordError Plan := do
  match schema.requireField keyField with
  | .error e => throw (.schema e)
  | .ok _ => pure ()
  let held ← stored.foldlM (StoredIndex.enter keyField) {}
  let incoming ← remote.foldlM (ReportedIndex.enter schema context keyField) {}
  let settled ← incoming.byKey.entries.mapM (settle now held.byKey)
  let stale := held.byKey.filter fun key _ => !incoming.byKey.contains key
  let deletes := held.duplicates ++ stale.values.map Record.id
  let count (o : Outcome) := (settled.filter (·.2 = o)).length
  return {
    report := {
      entityType := schema.name
      cloudContext := context
      created := count .created
      updated := count .updated
      unchanged := count .unchanged
      deleted := deletes.length
      skipped := incoming.skipped }
    upserts := settled.map Prod.fst
    deletes }

end Reconcile

namespace Store

variable {σ : Type} [Watcher σ]

/-- Reconcile the records of one entity type and cloud context with those that
the provider reports. -/
def reconciling (schema : Schema) (context keyField : String) (remote : List Record)
    (now : Timestamp) : Attempt (Store σ) RecordError SyncReport := do
  let stored := (← get).listInContext schema.name context
  let plan ← ExceptT.mk (pure (Reconcile.plan schema context keyField stored remote now))
  modify (·.applyBatch plan.upserts plan.deletes)
  return plan.report

/-- The report of a reconciliation, and the store after it. -/
def reconcile (s : Store σ) (schema : Schema) (context keyField : String) (remote : List Record)
    (now : Timestamp) : Except RecordError (SyncReport × Store σ) :=
  (reconciling schema context keyField remote now).outcome s

variable (s : Store σ) (schema : Schema) (context keyField : String) (remote : List Record)
  (now : Timestamp)

/-- Reconciling, run on a store. -/
theorem run_reconciling :
    (reconciling schema context keyField remote now).run.run s
      = match Reconcile.plan schema context keyField (s.listInContext schema.name context) remote
          now with
        | .error e => (.error e, s)
        | .ok plan => (.ok plan.report, s.applyBatch plan.upserts plan.deletes) := by
  rw [reconciling, ExceptT.run_bind, StateT.run_bind]
  change (do
    let plan ← ExceptT.mk (pure (Reconcile.plan schema context keyField
      (s.listInContext schema.name context) remote now))
    _ : Attempt (Store σ) RecordError SyncReport).run.run s = _
  cases Reconcile.plan schema context keyField (s.listInContext schema.name context) remote now
    <;> rfl

/-- **Reconciling**, case by case. -/
theorem reconcile_eq :
    s.reconcile schema context keyField remote now
      = match Reconcile.plan schema context keyField (s.listInContext schema.name context) remote
          now with
        | .error e => .error e
        | .ok plan => .ok (plan.report, s.applyBatch plan.upserts plan.deletes) := by
  rw [reconcile, Attempt.outcome, run_reconciling]
  cases Reconcile.plan schema context keyField (s.listInContext schema.name context) remote now
    <;> rfl

/-- A reconciliation that fails leaves the store and its watcher alone: nothing is written
before everything is planned. -/
theorem atomic_reconciling :
    (reconciling schema context keyField remote now :
      Attempt (Store σ) RecordError SyncReport).Atomic := by
  intro s s' e h
  rw [run_reconciling] at h
  split at h
  · exact (Prod.mk.inj h).2.symm
  · cases h

end Store

end Inventory
