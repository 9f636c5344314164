/-
# View definitions

`ViewDef` and `FieldsetDef`: `claimed_fields`, `problems` and `check`, with `PolicyProblem`.

A view says how one resource type is presented: the titled groups of fields of
its detail page, in order, and the columns of its list page that are filtered by
a choice among the stored values.

A view agrees with a schema when nothing of this is the case:

| problem | |
| --- | --- |
| `entityTypeMismatch` | the view is for another resource type |
| `duplicateFieldset` | a fieldset name occurs again |
| `nameCollision` | a fieldset is named like a field |
| `danglingField` | a fieldset lists a field that is not declared |
| `duplicateField` | a field is listed again, in the same fieldset or another |
| `unknownSelectable` | a selectable column is not a field |
| `unfilterableSelectable` | a selectable column holds items |
-/

import Inventory.Record.Basic

namespace Inventory

/-- A titled group of fields on a detail page. -/
structure Fieldset where
  name : String
  title : String
  isOpen : Bool := true
  fields : List String
  deriving DecidableEq, Repr

/-- The fieldset, closed at first. -/
def Fieldset.collapsed (f : Fieldset) : Fieldset := { f with isOpen := false }

/-- How one resource type is presented. -/
structure View where
  entityType : String
  fieldsets : List Fieldset := []
  selectable : List String := []
  deriving DecidableEq, Repr

/-- A way in which a view disagrees with its schema. -/
inductive ViewProblem where
  | danglingField (fieldset field : String)
  | duplicateField (field first second : String)
  | nameCollision (fieldset : String)
  | duplicateFieldset (fieldset : String)
  | unknownSelectable (field : String)
  | unfilterableSelectable (field : String)
  | entityTypeMismatch (expected actual : String)
  deriving DecidableEq, Repr

/-- The text of a view problem. -/
def ViewProblem.message : ViewProblem → String
  | .danglingField fieldset field =>
    "fieldset '" ++ fieldset ++ "' lists unknown field '" ++ field ++ "'"
  | .duplicateField field first second =>
    "field '" ++ field ++ "' is listed by both '" ++ first ++ "' and '" ++ second ++ "'"
  | .nameCollision fieldset => "fieldset '" ++ fieldset ++ "' has the same name as a field"
  | .duplicateFieldset fieldset => "fieldset '" ++ fieldset ++ "' is declared more than once"
  | .unknownSelectable field => "selectable column '" ++ field ++ "' is not a field"
  | .unfilterableSelectable field =>
    "selectable column '" ++ field ++ "' is composite and cannot be filtered"
  | .entityTypeMismatch expected actual =>
    "view is for '" ++ actual ++ "', schema is '" ++ expected ++ "'"

/-- What can go wrong with views and pages. -/
inductive ViewError where
  | viewNotFound (entityType : String)
  | invalidView (entityType : String) (problems : List ViewProblem)
  | render (message : String)
  | record (cause : RecordError)
  | schema (cause : SchemaError)
  | file (cause : FileError)
  deriving DecidableEq, Repr

/-- The text of a view error. -/
def ViewError.message : ViewError → String
  | .viewNotFound entityType => "view not found: " ++ entityType
  | .invalidView entityType problems =>
    "invalid view for " ++ entityType ++ ": " ++ "; ".intercalate (problems.map ViewProblem.message)
  | .render message => "render failed: " ++ message
  | .record cause => cause.message
  | .schema cause => cause.message
  | .file cause => "IO error: " ++ cause.message

/-- How strictly views are checked. -/
inductive ValidationMode where
  | strict
  | lenient
  deriving DecidableEq, Repr, Inhabited

namespace View

/-- The listed fields, each at its first mention. -/
def claimedFields (v : View) : List String :=
  (v.fieldsets.flatMap (·.fields)).foldl (fun seen f => if f ∈ seen then seen else seen ++ [f]) []

/-- What is known while the fieldsets are checked one after another: their names
so far, for each declared field the fieldset that listed it last, and the
problems found. -/
structure Survey where
  names : List String := []
  listedBy : OrderedMap String String := .empty
  problems : List ViewProblem := []

/-- Check one listing of a field. -/
def Survey.listing (schema : Schema) (fieldset : String) (s : Survey) (field : String) : Survey :=
  if schema.declares field then
    let problems := match s.listedBy.get? field with
      | some first => s.problems ++ [.duplicateField field first fieldset]
      | none => s.problems
    { s with listedBy := s.listedBy.insert field fieldset, problems }
  else { s with problems := s.problems ++ [.danglingField fieldset field] }

/-- Check one fieldset: its name first, then its listings. -/
def Survey.fieldset (schema : Schema) (s : Survey) (f : Fieldset) : Survey :=
  let repeated := if f.name ∈ s.names then [.duplicateFieldset f.name] else []
  let collision := if schema.declares f.name then [.nameCollision f.name] else []
  f.fields.foldl (Survey.listing schema f.name)
    { s with names := f.name :: s.names, problems := s.problems ++ repeated ++ collision }

/-- What is wrong with a selectable column, if anything. -/
def selectableProblem? (schema : Schema) (name : String) : Option ViewProblem :=
  match schema.field? name with
  | none => some (.unknownSelectable name)
  | some f => if f.isFilterable then none else some (.unfilterableSelectable name)

/-- Every disagreement with a schema: of entity type, of the fieldsets in order,
of the selectable columns in order. -/
def problems (v : View) (schema : Schema) : List ViewProblem :=
  let mismatch :=
    if v.entityType = schema.name then []
    else [.entityTypeMismatch schema.name v.entityType]
  mismatch ++ (v.fieldsets.foldl (Survey.fieldset schema) {}).problems
    ++ v.selectable.filterMap (selectableProblem? schema)

/-- Check a view against its schema. Only the strict mode refuses problems. -/
def check (v : View) (schema : Schema) (mode : ValidationMode) : Except ViewError Unit :=
  let problems := v.problems schema
  if problems ≠ [] ∧ mode = .strict then .error (.invalidView v.entityType problems) else .ok ()

end View
end Inventory
