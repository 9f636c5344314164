/-
# Schemas in documents

`ResourceSchema`, `FieldDef` and `FieldType` as they are written to and read from documents.

| member of a schema | holds | when missing |
| --- | --- | --- |
| `name`, `label`, `label_field` | a text | an error |
| `fields` | a list of fields | no fields |

| member of a field | holds | when missing |
| --- | --- | --- |
| `name`, `label` | a text | an error |
| `description` | a text or null | none |
| `type` | `kind` and what the kind asks for | an error |
| `read_only` | a boolean | false |
| `weight` | an integer of 32 bits | 0 |
| `display`, `sort` | a name or null | by the type |

A type of kind `primitive` has the name of a scalar type in `primitive`, one of
kind `composite-repeated` a list of texts in `properties`. Inside a type a plain
scalar with another meaning (`1`, `true`, `null`) is not taken for a text;
everywhere else it is. When written, a member that is none is left out.
-/

import Inventory.Data
import Inventory.Schema.Basic
import Inventory.Width
import Inventory.Yaml.Node
import Inventory.Yaml.Writer

namespace Inventory

/-! ## Writing -/

/-- The kind of a type, as documents name it. -/
def FieldType.kind : FieldType → String
  | .primitive _ => "primitive"
  | .composite _ => "composite-repeated"

/-- The type in a document. -/
def FieldType.toData (t : FieldType) : Data := .ofMembers [
  ("kind", .str t.kind),
  match t with
  | .primitive p => ("primitive", .str p.name)
  | .composite properties => ("properties", .ofTexts properties)]

/-- A member that is left out when it is none. -/
def Data.optionalMember (key : String) (value : Option Data) : List (String × Data) :=
  (value.map (key, ·)).toList

/-- The field in a document. -/
def Field.toData (f : Field) : Data := .ofMembers <|
  [("name", .str f.name), ("label", .str f.label)]
  ++ Data.optionalMember "description" (f.description.map .str)
  ++ [("type", f.type.toData), ("read_only", .bool f.readOnly), ("weight", .int f.weight)]
  ++ Data.optionalMember "display" (f.display.map fun d => .str d.name)
  ++ Data.optionalMember "sort" (f.sort.map fun k => .str k.name)

/-- The schema in a document. -/
def Schema.toData (s : Schema) : Data := .ofMembers [
  ("name", .str s.name),
  ("label", .str s.label),
  ("label_field", .str s.labelField),
  ("fields", .list (s.fields.map Field.toData))]

/-! ## Reading -/

namespace FieldType

/-- A scalar that is a text, not a plain one with another meaning. -/
def strictText? : Yaml.Node → Option String
  | .scalar false text => some text
  | .scalar true text => if Yaml.Scalar.ofPlain text.toList = .text then some text else none
  | .list _ | .mapping _ => none

/-- A name: a text, or the only key of a mapping that has nothing as its value. -/
def name? : Yaml.Node → Option String
  | .mapping [(key, .mapping [])] => strictText? key
  | .mapping [(key, value)] => if value.isNull then strictText? key else none
  | n => strictText? n

/-- Whether a key may stand in a type: a text, or a number that is not negative. -/
def isKey (n : Yaml.Node) : Bool := (strictText? n).isSome || n.int?.any (0 ≤ ·)

/-- The type of a kind from the members of that kind. -/
def ofMembers? (kind : String) (members : Yaml.Node) : Option FieldType :=
  if kind = "primitive" then do
    let name ← (← members.members? ["primitive"]).get? "primitive"
    return .primitive (← PrimitiveType.ofName? (← name? name))
  else if kind = "composite-repeated" then do
    match (← members.members? ["properties"]).get? "properties" with
    | none => return .composite []
    | some (.list items) => return .composite (← items.mapM strictText?)
    | some _ => none
  else none

/-- The type that a node writes: a mapping with one `kind`, or a list of the kind
and the other values. -/
def ofNode? : Yaml.Node → Option FieldType
  | .mapping entries => do
    let isKind (e : Yaml.Node × Yaml.Node) : Bool := e.1.text? = some "kind"
    match entries.filter isKind with
    | [(_, kind)] =>
      let others := entries.filter (!isKind ·)
      if others.all fun e => isKey e.1 then ofMembers? (← kind.text?) (.mapping others) else none
    | _ => none
  | .list (kind :: others) => do ofMembers? (← kind.text?) (.list others)
  | .list [] | .scalar _ _ => none

end FieldType

namespace Field

/-- The members of a field in order. -/
def memberNames : List String :=
  ["name", "label", "description", "type", "read_only", "weight", "display", "sort"]

/-- An integer of 32 bits with sign. -/
def weight? (n : Yaml.Node) : Option Int := n.int?.filter (Width.holdsSigned 32)

/-- The field that a node writes. -/
def ofNode? (n : Yaml.Node) : Option Field := do
  let members ← n.members? memberNames
  return {
    name := ← (← members.get? "name").text?
    label := ← (← members.get? "label").text?
    description := ← Yaml.Node.orNull Yaml.Node.text? (members.get? "description")
    type := ← FieldType.ofNode? (← members.get? "type")
    readOnly := ← Yaml.Node.orDefault Yaml.Node.bool? false (members.get? "read_only")
    weight := ← Yaml.Node.orDefault weight? 0 (members.get? "weight")
    display := ← Yaml.Node.orNull (fun n => n.text?.bind Display.ofName?) (members.get? "display")
    sort := ← Yaml.Node.orNull (fun n => n.text?.bind SortKind.ofName?) (members.get? "sort") }

end Field

namespace Schema

/-- The schema that a node writes. -/
def ofNode? (n : Yaml.Node) : Option Schema := do
  let members ← n.members? ["name", "label", "label_field", "fields"]
  return {
    name := ← (← members.get? "name").text?
    label := ← (← members.get? "label").text?
    labelField := ← (← members.get? "label_field").text?
    fields := ← Yaml.Node.orDefault (fun n => do (← n.items?).mapM Field.ofNode?) []
      (members.get? "fields") }

/-- The YAML text of a schema. -/
def toYaml (s : Schema) : String := s.toData.toYaml

/-- The schema that a YAML text writes. -/
def ofYaml? (text : String) : Option Schema := (Yaml.Node.ofText? text).bind ofNode?

end Schema
end Inventory
