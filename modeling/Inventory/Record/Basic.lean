/-
# Records

`Record`: `new`, `with_id`, `set`, `value`, `get`, `label`, `cloud_context`, `with_only`,
`with_overrides` and `same_values_except`, with `EntityError`.

A record is one resource: an identifier, the schema it was built on, and a slot
for every field the schema declares, in schema order. Slots start absent.
Setting a field checks that the schema declares it and that the value fits its
type, so a slot never holds a value of another type.

Records are equal (`==`) when identifier and schema agree and the slots are
equal as maps.
-/

import Inventory.Record.Value
import Inventory.Schema.Basic
import Inventory.Ulid

namespace Inventory

/-- What can go wrong when records are read, stored or reconciled. -/
inductive RecordError where
  | fieldNotFound (entityType name : String)
  | typeMismatch (entityType field expected : String)
  | recordNotFound (id : Ulid)
  | entityTypeMismatch (expected actual : String)
  | invalidKey (key : String)
  | schema (cause : SchemaError)
  | file (cause : FileError)
  deriving DecidableEq, Repr

/-- The text of a record error. -/
def RecordError.message : RecordError → String
  | .fieldNotFound entityType name => "field not found on " ++ entityType ++ ": " ++ name
  | .typeMismatch entityType field expected =>
    "type mismatch on " ++ entityType ++ "." ++ field ++ ": expected " ++ expected
  | .recordNotFound id => "record not found: " ++ id.toText
  | .entityTypeMismatch expected actual => "expected a " ++ expected ++ " record, got " ++ actual
  | .invalidKey key => "invalid temp resource key: " ++ key
  | .schema cause => cause.message
  | .file cause => "IO error: " ++ cause.message

/-- One resource. -/
structure Record where
  id : Ulid
  schema : Schema
  slots : OrderedMap String FieldValue
  deriving Repr

namespace Record

/-- A record on which every field is absent. -/
def new (id : Ulid) (schema : Schema) : Record where
  id := id
  schema := schema
  slots := .ofList (schema.fields.map fun f => (f.name, .absent))

/-- The record under another identifier. -/
def withId (r : Record) (id : Ulid) : Record := { r with id }

/-- The name of the record's schema. -/
def entityType (r : Record) : String := r.schema.name

/-- Equality of identifier, schema and values; the slots compare as a map. -/
def sameAs (a b : Record) : Bool :=
  decide (a.id = b.id) && decide (a.schema = b.schema) && a.slots == b.slots

instance : BEq Record := ⟨sameAs⟩

/-- Set a declared field to a value that fits its type. -/
def setting (name : String) (value : FieldValue) : Attempt Record RecordError Unit := do
  let r ← get
  match r.schema.field? name with
  | none => throw (.fieldNotFound r.entityType name)
  | some f =>
    if value.conformsTo f.type then
      MonadStateOf.set { r with slots := r.slots.insert name value }
    else
      throw (.typeMismatch r.entityType name f.type.name)

/-- The record on which a declared field is set to a value that fits its type. -/
def set (r : Record) (name : String) (value : FieldValue) : Except RecordError Record :=
  (setting name value).next r

/-- Setting a field, run on a record. -/
theorem run_setting (r : Record) (name : String) (value : FieldValue) :
    (setting name value).run.run r = match r.schema.field? name with
      | none => (.error (.fieldNotFound r.entityType name), r)
      | some f =>
        if value.conformsTo f.type then (.ok (), { r with slots := r.slots.insert name value })
        else (.error (.typeMismatch r.entityType name f.type.name), r) := by
  rw [setting, ExceptT.run_bind, StateT.run_bind]
  change ((match r.schema.field? name with
    | none => _
    | some f => _ : Attempt Record RecordError Unit)).run.run r = _
  cases r.schema.field? name with
  | none => rfl
  | some f =>
    dsimp only
    split <;> rfl

/-- **The record on which a field is set**, case by case. -/
theorem set_eq (r : Record) (name : String) (value : FieldValue) :
    r.set name value = match r.schema.field? name with
      | none => .error (.fieldNotFound r.entityType name)
      | some f =>
        if value.conformsTo f.type then .ok { r with slots := r.slots.insert name value }
        else .error (.typeMismatch r.entityType name f.type.name) := by
  rw [set, Attempt.next, Attempt.outcome, run_setting]
  cases r.schema.field? name with
  | none => rfl
  | some f => by_cases hfits : value.conformsTo f.type <;> simp only [hfits] <;> rfl

/-- A field that is not set stays as it is. -/
theorem atomic_setting (name : String) (value : FieldValue) : (setting name value).Atomic := by
  intro r r' e h
  rw [run_setting] at h
  split at h
  · exact (Prod.mk.inj h).2.symm
  · split at h
    · cases h
    · exact (Prod.mk.inj h).2.symm

/-- Set fields one after another, up to the first that cannot be set. -/
def setAll (r : Record) : List (String × FieldValue) → Except RecordError Record
  | [] => .ok r
  | (name, value) :: rest =>
    match r.set name value with
    | .ok r => r.setAll rest
    | .error e => .error e

/-- The value of a declared field. -/
def value (r : Record) (name : String) : Except RecordError FieldValue :=
  match r.slots.get? name with
  | some v => .ok v
  | none => .error (.fieldNotFound r.entityType name)

/-- The value of a declared field read as one kind; nothing when it is absent. -/
def get {α : Type} (r : Record) (name : String) (kind : FieldValue.Accessor α) :
    Except RecordError (Option α) :=
  match r.value name with
  | .error e => .error e
  | .ok .absent => .ok none
  | .ok v =>
    match kind.read? v with
    | some a => .ok (some a)
    | none => .error (.typeMismatch r.entityType name kind.expected)

/-- The text of a field; nothing when it is not declared or has no text. -/
def text? (r : Record) (name : String) : Option String := (r.slots.get? name).bind FieldValue.text?

/-- The text of the label field. -/
def label? (r : Record) : Option String := r.text? r.schema.labelField

/-- The name of the field that says to which cloud account a record belongs. -/
def contextField : String := "cloud_context"

/-- The cloud context of a record, when it is declared, a text, and set. -/
def cloudContext? (r : Record) : Option String :=
  match r.get contextField FieldValue.asString with
  | .ok context => context
  | .error _ => none

/-- A copy on which only the named fields keep their values. -/
def withOnly (r : Record) (names : List String) : Record :=
  { r with slots := r.slots.mapValues fun name v => if name ∈ names then v else .absent }

/-- Whether `b` holds every value of `a` under the same names, apart from the
ignored names, and is of the same entity type. -/
def sameValuesExcept (ignored : List String) (a b : Record) : Bool :=
  decide (a.entityType = b.entityType)
    && a.slots.entries.all fun (name, v) =>
      decide (name ∈ ignored) || (b.slots.get? name).any (· == v)

end Record
end Inventory
