/-
# The plain rendering of a record

`FieldListRenderer`: `render`, `field_element` and `items`, with `RenderContext`.

Properties of the page first, then one element for every field that has
something to show, by weight, fields of equal weight in schema order.

| key | holds |
| --- | --- |
| `#entity_type`, `#entity_id`, `#view_mode` | what is shown, and which variant |
| `#cache` | the tag under which the page may be cached |
| `#langcode` | the language, when one is asked for |
| a field name | `#type`, `#field_name`, `#label`, `#weight`, `#display`, `#items` |

In a row of a composite field the declared properties come first, in their
declared order, then whatever else the item holds, in its own order.
-/

import Inventory.Page.Tree
import Inventory.Record.Basic

namespace Inventory

/-- Which variant of a page is asked for. -/
structure RenderContext where
  viewMode : String := "full"
  langcode : Option String := none
  deriving DecidableEq, Repr

namespace FieldList

/-- The cells of a row: declared properties first, then the others. -/
def row (properties : List String) (item : Item) : OrderedMap String String :=
  let declared := OrderedMap.ofList (properties.filterMap fun p => (item.get? p).map (p, ·))
  declared.merge (item.filter fun key _ => !declared.contains key)

/-- What is shown of a value. -/
def items (field : Field) : FieldValue → List Data
  | .absent => []
  | .string s => [.str s]
  | .boolean b => [.str (if b then "On" else "Off")]
  | .integer n => [.int n]
  | .timestamp t => [.str t.display]
  | .items rows => rows.map fun item =>
      .object ((row field.type.properties item).mapValues fun _ text => .str text)

/-- The element of a field. -/
def fieldElement (field : Field) (value : FieldValue) : Tree := .ofProperties [
  ("#type", .str "field"),
  ("#field_name", .str field.name),
  ("#label", .str field.label),
  ("#weight", .int field.weight),
  ("#display", .str field.effectiveDisplay.name),
  ("#items", .list (items field value))]

/-- The properties of the page of a record. -/
def header (r : Record) (context : RenderContext) : Tree := .ofProperties <|
  [("#entity_type", .str r.entityType),
   ("#entity_id", .str r.id.toText),
   ("#view_mode", .str context.viewMode),
   ("#cache", .ofMembers [("tags", .ofTexts [r.entityType ++ ":" ++ r.id.toText])])]
  ++ match context.langcode with
    | some langcode => [("#langcode", .str langcode)]
    | none => []

/-- The fields in the order in which they are shown. -/
def shownOrder (schema : Schema) : List Field :=
  schema.fields.mergeSort fun a b => decide (a.weight ≤ b.weight)

/-- Add the element of a field that has something to show. -/
def addField (r : Record) (t : Tree) (field : Field) : Except RecordError Tree :=
  match r.value field.name with
  | .error e => .error e
  | .ok value =>
    if value.isEmpty then .ok t else .ok (Tree.setElement t field.name (fieldElement field value))

/-- The page of a record with every field that has something to show. -/
def render (r : Record) (context : RenderContext) : Except RecordError Tree :=
  (shownOrder r.schema).foldlM (addField r) (header r context)

end FieldList
end Inventory
