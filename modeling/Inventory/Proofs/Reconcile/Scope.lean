/-
# What a reconciliation has to achieve

What `reconcile` is asked to do, without its passes.

A reconciliation works on the records of one entity type and cloud context and
knows them by the text of a key field (`Scope.key?`). Reported records count as
moved to that context (`Scope.placed`). What it must leave behind is stated on the
lists of stored records `before` and `after` (`Reconciled`):

| stored records | afterwards |
| --- | --- |
| without a key in the scope | as they were, in their order |
| with a key in the scope | one for each reported key |
| the place of a key | where its first stored record was, else at the end |
-/

import Inventory.Reconcile

namespace Inventory
namespace Reconcile

/-- The records that a reconciliation is about, and how it tells them apart. -/
structure Scope where
  entityType : String
  context : String
  keyField : String

namespace Scope

variable (scope : Scope)

/-- The key of a record of the scope; other records have none. -/
def key? (r : Record) : Option String :=
  if r.entityType = scope.entityType ∧ r.cloudContext? = some scope.context then
    r.text? scope.keyField
  else none

/-- Whether a record is of the entity type and the cloud context. -/
def Covers (r : Record) : Prop :=
  r.entityType = scope.entityType ∧ r.cloudContext? = some scope.context

instance (r : Record) : Decidable (scope.Covers r) :=
  inferInstanceAs (Decidable (_ = _ ∧ _ = _))

/-- A record moved to the cloud context of the scope. -/
def placed (r : Record) : Record :=
  { r with slots := r.slots.insert Record.contextField (.string scope.context) }

/-- The first record of a key. -/
def first? (records : List Record) (key : String) : Option Record :=
  records.find? fun r => scope.key? r = some key

/-- The last reported record of a key, moved to the cloud context. -/
def last? (remote : List Record) (key : String) : Option Record :=
  scope.first? (remote.map scope.placed).reverse key

/-- The reported keys, each at its first mention. -/
def keys (remote : List Record) : List String :=
  ((remote.map scope.placed).filterMap scope.key?).eraseDups

/-- Whether a stored record keeps its place: it has no key in the scope, or is
the first of a key that is reported. -/
def keeps (before remote : List Record) (r : Record) : Bool :=
  match scope.key? r with
  | none => true
  | some key => key ∈ scope.keys remote ∧ (scope.first? before key).map Record.id = some r.id

/-- The identifier that a new key brings; a stored key brings none. -/
def newId? (before remote : List Record) (key : String) : Option Ulid :=
  if (scope.first? before key).isSome then none else (scope.last? remote key).map Record.id

end Scope

/-- Two records on one schema whose values agree outside the stamps. -/
structure Restamped (r' r : Record) : Prop where
  schema : r'.schema = r.schema
  slots : ∀ name ∉ stampFields, r'.slots.get? name = r.slots.get? name

/-- The stored records `after` are `before` brought in line with `remote`. -/
structure Reconciled (scope : Scope) (before remote after : List Record) : Prop where
  /-- Exactly one record for every reported key, and none for another. -/
  one_per_key : (after.filterMap scope.key?).Perm (scope.keys remote)
  /-- It has the values of the last reported record and the first stored identifier. -/
  agrees : ∀ r' ∈ after, ∀ key, scope.key? r' = some key →
    ∃ r, scope.last? remote key = some r ∧ Restamped r' r
      ∧ r'.id = ((scope.first? before key).map Record.id).getD r.id
  /-- Kept identifiers stay in place, new ones follow in the order of their keys. -/
  ids : after.map Record.id
    = (before.filter (scope.keeps before remote)).map Record.id
      ++ (scope.keys remote).filterMap (scope.newId? before remote)
  /-- Every other record is as it was. -/
  frame : after.filter (scope.key? · = none) = before.filter (scope.key? · = none)

end Reconcile
end Inventory
