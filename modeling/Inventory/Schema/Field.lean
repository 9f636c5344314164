/-
# Fields

`FieldDef`, `FieldType`, `PrimitiveType`, `Display` and `SortKind`: `is_filterable`,
`effective_display` and `effective_sort`.

A field is a named, typed attribute of a resource. It holds one scalar, or any
number of items with named properties. How it is displayed and how a column of
it sorts follow from its type unless the field says otherwise:

| type | display | sort |
| --- | --- | --- |
| string | text | alphanumeric |
| boolean | boolean | alphanumeric |
| integer | number | numeric |
| timestamp | timestamp | date and time |
| composite | table | none |
-/

namespace Inventory

/-- The scalar types. -/
inductive PrimitiveType where
  | string
  | boolean
  | integer
  | timestamp
  deriving DecidableEq, Repr, Inhabited

/-- What a field holds: one scalar, or items with the given properties in
display order. -/
inductive FieldType where
  | primitive (type : PrimitiveType)
  | composite (properties : List String)
  deriving DecidableEq, Repr, Inhabited

/-- How a value is displayed. -/
inductive Display where
  | text
  | boolean
  | number
  | timestamp
  | table
  deriving DecidableEq, Repr, Inhabited

/-- How a column sorts. -/
inductive SortKind where
  | alphanumeric
  | numeric
  | datetime
  deriving DecidableEq, Repr, Inhabited

namespace PrimitiveType

/-- The name of a scalar type. -/
def name : PrimitiveType → String
  | .string => "string"
  | .boolean => "boolean"
  | .integer => "integer"
  | .timestamp => "timestamp"

/-- Every scalar type. -/
def all : List PrimitiveType := [.string, .boolean, .integer, .timestamp]

/-- The scalar type of a name. -/
def ofName? (s : String) : Option PrimitiveType := all.find? (·.name = s)

theorem ofName?_name (t : PrimitiveType) : ofName? t.name = some t := by
  cases t <;> rfl

end PrimitiveType

namespace Display

/-- The name of a display. -/
def name : Display → String
  | .text => "text"
  | .boolean => "boolean"
  | .number => "number"
  | .timestamp => "timestamp"
  | .table => "table"

/-- Every display. -/
def all : List Display := [.text, .boolean, .number, .timestamp, .table]

/-- The display of a name. -/
def ofName? (s : String) : Option Display := all.find? (·.name = s)

theorem ofName?_name (d : Display) : ofName? d.name = some d := by
  cases d <;> rfl

end Display

namespace SortKind

/-- The name of a sort. -/
def name : SortKind → String
  | .alphanumeric => "alphanumeric"
  | .numeric => "numeric"
  | .datetime => "datetime"

/-- Every sort. -/
def all : List SortKind := [.alphanumeric, .numeric, .datetime]

/-- The sort of a name. -/
def ofName? (s : String) : Option SortKind := all.find? (·.name = s)

theorem ofName?_name (k : SortKind) : ofName? k.name = some k := by
  cases k <;> rfl

end SortKind

namespace FieldType

/-- The scalar type, for a field that holds a scalar. -/
def primitive? : FieldType → Option PrimitiveType
  | .primitive t => some t
  | .composite _ => none

/-- Whether the field holds items. -/
def isComposite : FieldType → Bool
  | .primitive _ => false
  | .composite _ => true

/-- The properties of the items; a scalar field has none. -/
def properties : FieldType → List String
  | .primitive _ => []
  | .composite properties => properties

/-- The name of the type that a value was expected to have. -/
def name : FieldType → String
  | .primitive t => t.name
  | .composite _ => "composite-repeated"

end FieldType

/-- A named, typed attribute and how it is presented. -/
structure Field where
  name : String
  label : String
  description : Option String := none
  type : FieldType
  readOnly : Bool := false
  weight : Int := 0
  display : Option Display := none
  sort : Option SortKind := none
  deriving DecidableEq, Repr

namespace Field

/-- A field that holds a text. -/
def string (name label : String) : Field := { name, label, type := .primitive .string }

/-- A field that holds a truth value. -/
def boolean (name label : String) : Field := { name, label, type := .primitive .boolean }

/-- A field that holds an integer. -/
def integer (name label : String) : Field := { name, label, type := .primitive .integer }

/-- A field that holds an instant. -/
def timestamp (name label : String) : Field := { name, label, type := .primitive .timestamp }

/-- A field that holds items with the given properties. -/
def composite (name label : String) (properties : List String) : Field :=
  { name, label, type := .composite properties }

/-- The field, not to be edited by hand. -/
def fixed (f : Field) : Field := { f with readOnly := true }

/-- The field with a description. -/
def describe (f : Field) (text : String) : Field := { f with description := some text }

/-- Only scalar columns can be filtered. -/
def isFilterable (f : Field) : Bool := !f.type.isComposite

/-- The display of the field, by its type unless it is set. -/
def effectiveDisplay (f : Field) : Display :=
  match f.display with
  | some d => d
  | none =>
    match f.type with
    | .primitive .string => .text
    | .primitive .boolean => .boolean
    | .primitive .integer => .number
    | .primitive .timestamp => .timestamp
    | .composite _ => .table

/-- The sort of the field, by its type unless it is set. Items do not sort. -/
def effectiveSort (f : Field) : Option SortKind :=
  match f.sort with
  | some k => some k
  | none =>
    match f.type with
    | .primitive .string | .primitive .boolean => some .alphanumeric
    | .primitive .integer => some .numeric
    | .primitive .timestamp => some .datetime
    | .composite _ => none

end Field
end Inventory
