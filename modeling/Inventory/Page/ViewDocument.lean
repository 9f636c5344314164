/-
# Views in documents

`ViewDef` and `FieldsetDef` as they are written to and read from documents.

| member of a view | holds | when missing |
| --- | --- | --- |
| `entity_type` | a text | an error |
| `fieldsets` | a list of fieldsets | no fieldsets |
| `selectable` | a list of texts | no columns |

| member of a fieldset | holds | when missing |
| --- | --- | --- |
| `name`, `title` | a text | an error |
| `open` | a boolean | true |
| `fields` | a list of texts | an error |
-/

import Inventory.Page.View
import Inventory.Yaml.Node
import Inventory.Yaml.Writer

namespace Inventory

/-- The fieldset in a document. -/
def Fieldset.toData (f : Fieldset) : Data := .ofMembers [
  ("name", .str f.name),
  ("title", .str f.title),
  ("open", .bool f.isOpen),
  ("fields", .ofTexts f.fields)]

/-- The fieldset that a node writes. -/
def Fieldset.ofNode? (n : Yaml.Node) : Option Fieldset := do
  let members ← n.members? ["name", "title", "open", "fields"]
  return {
    name := ← (← members.get? "name").text?
    title := ← (← members.get? "title").text?
    isOpen := ← Yaml.Node.orDefault Yaml.Node.bool? true (members.get? "open")
    fields := ← (← members.get? "fields").texts? }

namespace View

/-- The view in a document. Without selectable columns that member is left out. -/
def toData (v : View) : Data := .ofMembers <|
  [("entity_type", .str v.entityType), ("fieldsets", .list (v.fieldsets.map Fieldset.toData))]
  ++ if v.selectable = [] then [] else [("selectable", .ofTexts v.selectable)]

/-- The view that a node writes. -/
def ofNode? (n : Yaml.Node) : Option View := do
  let members ← n.members? ["entity_type", "fieldsets", "selectable"]
  return {
    entityType := ← (← members.get? "entity_type").text?
    fieldsets := ← Yaml.Node.orDefault (fun n => do (← n.items?).mapM Fieldset.ofNode?) []
      (members.get? "fieldsets")
    selectable := ← Yaml.Node.orDefault Yaml.Node.texts? [] (members.get? "selectable") }

/-- The YAML text of a view. -/
def toYaml (v : View) : String := v.toData.toYaml

/-- The view that a YAML text writes. -/
def ofYaml? (text : String) : Option View := (Yaml.Node.ofText? text).bind ofNode?

end View
end Inventory
