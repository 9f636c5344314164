/-
# Resource schemas

`ResourceSchema`: `field`, `fields`, `get_field`, `require_field`, `contains`, `field_names` and
`validate`, with `FieldsError`.

A schema lists the fields of one resource type in order and names the field
whose value labels a record. It is valid when no field name occurs twice and the
label field is among the fields; of two faults the repeated name is reported.
-/

import Inventory.Files.Disk
import Inventory.Schema.Field

namespace Inventory

/-- What can be wrong with schemas and their files. -/
inductive SchemaError where
  | fieldNotFound (entityType name : String)
  | schemaNotFound (name : String)
  | duplicateField (entityType name : String)
  | duplicateSchema (name : String)
  | labelFieldMissing (entityType field : String)
  | file (cause : FileError)
  deriving DecidableEq, Repr

/-- The text of a schema error. -/
def SchemaError.message : SchemaError → String
  | .fieldNotFound entityType name => "field not found on " ++ entityType ++ ": " ++ name
  | .schemaNotFound name => "resource schema not found: " ++ name
  | .duplicateField entityType name => "duplicate field name on " ++ entityType ++ ": " ++ name
  | .duplicateSchema name => "duplicate resource schema: " ++ name
  | .labelFieldMissing entityType field =>
    "label field '" ++ field ++ "' is not declared on " ++ entityType
  | .file cause => "IO error: " ++ cause.message

/-- The fields of one resource type. -/
structure Schema where
  name : String
  label : String
  labelField : String
  fields : List Field := []
  deriving DecidableEq, Repr

namespace Schema

/-- The schema with one more field. A weight left at zero becomes the position, cut to the 32 bits
of a weight. -/
def addField (s : Schema) (f : Field) : Schema :=
  let weight := if f.weight = 0 then (Int32.ofNat s.fields.length).toInt else f.weight
  { s with fields := s.fields ++ [{ f with weight }] }

/-- The schema with more fields, in order. -/
def addFields (s : Schema) (fs : List Field) : Schema := fs.foldl addField s

/-- The first field of a name. -/
def field? (s : Schema) (name : String) : Option Field := s.fields.find? (·.name = name)

/-- Whether the schema declares a field of that name. -/
def declares (s : Schema) (name : String) : Bool := (s.field? name).isSome

/-- The first field of a name, which has to be there. -/
def requireField (s : Schema) (name : String) : Except SchemaError Field :=
  match s.field? name with
  | some f => .ok f
  | none => .error (.fieldNotFound s.name name)

/-- The field names in order. -/
def fieldNames (s : Schema) : List String := s.fields.map (·.name)

/-- The first name that occurs in `seen` or earlier in the list. -/
def firstRepeat (seen : List String) : List String → Option String
  | [] => none
  | n :: rest => if n ∈ seen then some n else firstRepeat (n :: seen) rest

/-- Check that the names are distinct and the label field is declared. -/
def validate (s : Schema) : Except SchemaError Unit :=
  match firstRepeat [] s.fieldNames with
  | some n => .error (.duplicateField s.name n)
  | none =>
    if s.declares s.labelField then .ok ()
    else .error (.labelFieldMissing s.name s.labelField)

/-- A schema declares the names of its fields. -/
theorem declares_iff {s : Schema} {name : String} :
    s.declares name = true ↔ name ∈ s.fieldNames := by
  simp only [declares, field?, fieldNames, List.find?_isSome, List.mem_map, decide_eq_true_eq]

/-- Nothing repeats exactly when the names are distinct and none was seen. -/
theorem firstRepeat_eq_none_iff {seen names : List String} :
    firstRepeat seen names = none ↔ names.Nodup ∧ ∀ n ∈ names, n ∉ seen := by
  induction names generalizing seen with
  | nil => simp [firstRepeat]
  | cons n rest ih =>
    by_cases h : n ∈ seen
    · simp [firstRepeat, h]
    · simp only [firstRepeat, h, if_false, ih, List.nodup_cons, List.mem_cons, not_or]
      constructor
      · rintro ⟨hd, hs⟩
        refine ⟨⟨fun hn => (hs n hn).1 rfl, hd⟩, ?_⟩
        rintro m (rfl | hm)
        · exact h
        · exact (hs m hm).2
      · rintro ⟨⟨hn, hd⟩, hs⟩
        exact ⟨hd, fun m hm => ⟨fun e => hn (e ▸ hm), hs m (Or.inr hm)⟩⟩

end Schema
end Inventory
