/-
# The schema registry

`SchemaRegistry`: `new`, `insert`, `remove`, `get`, `require`, `field`, `all` and `names`.

Valid schemas by name, in the order in which the names were first registered.
Registering a name again replaces the schema in its place.
-/

import Inventory.OrderedMap
import Inventory.Schema.Basic

namespace Inventory

/-- Schemas by name. -/
structure SchemaRegistry where
  schemas : OrderedMap String Schema := .empty

namespace SchemaRegistry

/-- The registry without schemas. -/
def empty : SchemaRegistry := ⟨.empty⟩

/-- Register a valid schema, in the place of one of the same name. -/
def inserting (s : Schema) : Attempt SchemaRegistry SchemaError Unit := do
  match s.validate with
  | .error e => throw e
  | .ok () => modify fun r => ⟨r.schemas.insert s.name s⟩

/-- The registry in which a valid schema is registered. -/
def insert (r : SchemaRegistry) (s : Schema) : Except SchemaError SchemaRegistry :=
  (inserting s).next r

/-- Register schemas one after another, refusing a name that is already taken. -/
def extend (r : SchemaRegistry) : List Schema → Except SchemaError SchemaRegistry
  | [] => .ok r
  | s :: rest =>
    if r.schemas.contains s.name then .error (.duplicateSchema s.name)
    else match r.insert s with
      | .error e => .error e
      | .ok r => r.extend rest

/-- The registry of schemas with distinct names. -/
def ofList (schemas : List Schema) : Except SchemaError SchemaRegistry := empty.extend schemas

/-- Forget a schema. -/
def erase (r : SchemaRegistry) (name : String) : SchemaRegistry := ⟨r.schemas.erase name⟩

/-- The schema of a name. -/
def get? (r : SchemaRegistry) (name : String) : Option Schema := r.schemas.get? name

/-- The schema of a name, which has to be registered. -/
def require (r : SchemaRegistry) (name : String) : Except SchemaError Schema :=
  match r.get? name with
  | some s => .ok s
  | none => .error (.schemaNotFound name)

/-- One field of one resource type. -/
def field (r : SchemaRegistry) (entityType name : String) : Except SchemaError Field :=
  match r.require entityType with
  | .error e => .error e
  | .ok s => s.requireField name

/-- The schemas in order. -/
def all (r : SchemaRegistry) : List Schema := r.schemas.values

/-- The names in order. -/
def names (r : SchemaRegistry) : List String := r.schemas.keys

/-- Number of schemas. -/
def size (r : SchemaRegistry) : Nat := r.schemas.size

/-- Registering, run on a registry. -/
theorem run_inserting (r : SchemaRegistry) (s : Schema) :
    (inserting s).run.run r = match s.validate with
      | .error e => (.error e, r)
      | .ok () => (.ok (), ⟨r.schemas.insert s.name s⟩) := by
  unfold inserting
  cases s.validate <;> rfl

/-- **The registry in which a schema is registered**, case by case. -/
theorem insert_eq (r : SchemaRegistry) (s : Schema) :
    r.insert s = match s.validate with
      | .error e => .error e
      | .ok () => .ok ⟨r.schemas.insert s.name s⟩ := by
  rw [insert, Attempt.next, Attempt.outcome, run_inserting]
  cases s.validate <;> rfl

/-- A schema that is refused leaves the registry alone. -/
theorem atomic_inserting (s : Schema) : (inserting s).Atomic := by
  intro r r' e h
  rw [run_inserting] at h
  split at h
  · exact (Prod.mk.inj h).2.symm
  · cases h

end SchemaRegistry
end Inventory
