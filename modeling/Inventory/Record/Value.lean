/-
# Field values

`FieldValue`: `is_empty`, `conforms_to`, `as_text`, `compare`, and `FromFieldValue`.

The value of a field on a record: nothing, one scalar, or a list of items, each
item a map from property names to texts. Two values are equal (`==`) when they
are of one kind and hold the same; in an item the order of the properties does
not count, in a value the order of the items does.

A scalar has a text, by which filters, select options and reconciliation keys
see it. Columns compare values of one kind as such; values of different kinds
compare by their texts, without regard to case, or as numbers in a numeric
column when both texts are numerals.
-/

import Inventory.Binary64
import Inventory.Data
import Inventory.Schema.Field
import Inventory.Text.Lowercase
import Inventory.Timestamp

namespace Inventory

/-- An item of a composite field: texts by property name. -/
abbrev Item := OrderedMap String String

/-- What a field of a record holds. -/
inductive FieldValue where
  | absent
  | string (value : String)
  | boolean (value : Bool)
  | integer (value : Int)
  | timestamp (value : Timestamp)
  | items (rows : List Item)
  deriving Inhabited, Repr

namespace FieldValue

/-- Equality of values; the properties of an item compare as a map. -/
def sameAs : FieldValue → FieldValue → Bool
  | .absent, .absent => true
  | .string a, .string b => a == b
  | .boolean a, .boolean b => a == b
  | .integer a, .integer b => a == b
  | .timestamp a, .timestamp b => decide (a = b)
  | .items a, .items b => a == b
  | _, _ => false

instance : BEq FieldValue := ⟨sameAs⟩

/-- Whether there is no value. -/
def isAbsent : FieldValue → Bool
  | .absent => true
  | _ => false

/-- Whether there is nothing to show: no value, or no items. -/
def isEmpty : FieldValue → Bool
  | .absent => true
  | .items rows => rows.isEmpty
  | _ => false

/-- The type of a scalar. -/
def primitive? : FieldValue → Option PrimitiveType
  | .string _ => some .string
  | .boolean _ => some .boolean
  | .integer _ => some .integer
  | .timestamp _ => some .timestamp
  | .absent | .items _ => none

/-- Whether a field of the type may hold the value. Every field may be empty. -/
def conformsTo : FieldValue → FieldType → Bool
  | .absent, _ => true
  | .items _, .composite _ => true
  | value, .primitive t => value.primitive? = some t
  | _, .composite _ => false

/-- The text of a scalar. -/
def text? : FieldValue → Option String
  | .string s => some s
  | .boolean true => some "true"
  | .boolean false => some "false"
  | .integer n => some (toString n)
  | .timestamp t => some t.rfc3339
  | .absent | .items _ => none

/-- The order of two texts in a column. -/
def compareTexts (sort : SortKind) (a b : String) : Ordering :=
  match sort with
  | .numeric =>
    match Binary64.read a.toList, Binary64.read b.toList with
    | some x, some y => x.compare y
    | _, _ => Ord.compare a b
  | .alphanumeric | .datetime =>
    Ord.compare (String.ofList (Text.lower a.toList)) (String.ofList (Text.lower b.toList))

/-- The order of two values in a column. Absent values come first. -/
def compare (sort : SortKind) : FieldValue → FieldValue → Ordering
  | .absent, .absent => .eq
  | .absent, _ => .lt
  | _, .absent => .gt
  | .integer a, .integer b => Ord.compare a b
  | .timestamp a, .timestamp b => a.compare b
  | .boolean a, .boolean b => Ord.compare a b
  | a, b => compareTexts sort (a.text?.getD "") (b.text?.getD "")

/-- The value in a document: instants as text, items as objects. -/
def toData : FieldValue → Data
  | .absent => .null
  | .string s => .str s
  | .boolean b => .bool b
  | .integer n => .int n
  | .timestamp t => .str t.iso
  | .items rows => .list (rows.map fun row => .object (row.mapValues fun _ text => .str text))

/-- A way to read values of one kind, and the name of that kind. -/
structure Accessor (α : Type) where
  expected : String
  read? : FieldValue → Option α

/-- Texts. -/
def asString : Accessor String where
  expected := PrimitiveType.string.name
  read?
    | .string s => some s
    | _ => none

/-- Truth values. -/
def asBoolean : Accessor Bool where
  expected := PrimitiveType.boolean.name
  read?
    | .boolean b => some b
    | _ => none

/-- Integers. -/
def asInteger : Accessor Int where
  expected := PrimitiveType.integer.name
  read?
    | .integer n => some n
    | _ => none

/-- Instants. -/
def asTimestamp : Accessor Timestamp where
  expected := PrimitiveType.timestamp.name
  read?
    | .timestamp t => some t
    | _ => none

/-- Items. -/
def asItems : Accessor (List Item) where
  expected := (FieldType.composite []).name
  read?
    | .items rows => some rows
    | _ => none

end FieldValue
end Inventory
