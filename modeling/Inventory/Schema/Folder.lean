/-
# The folder of schemas

`SchemaContext`: `get_schema`, `write_schema` and `delete_schema`.

Only valid schemas are loaded and written.
-/

import Inventory.Definitions
import Inventory.Schema.Document
import Inventory.Schema.Registry

namespace Inventory

/-- How schemas are kept in files. -/
def Schema.format : DefinitionFormat Schema where
  folder := "schemas"
  nameOf := Schema.name
  isValid s := s.validate.isOk
  encode := Schema.toYaml
  decode? := Schema.ofYaml?

/-- The schemas of a folder. -/
abbrev SchemaFolder := Definitions Schema

namespace SchemaFolder

/-- The schemas in memory. -/
def registry (f : SchemaFolder) : SchemaRegistry := ⟨f.byName⟩

/-- Open the folder of schemas below a root. -/
def openAt (root : Path) (defaults : List Schema) : DiskM SchemaError SchemaFolder :=
  Definitions.openAt Schema.format .file .file root defaults

/-- Write a valid schema. -/
def write (f : SchemaFolder) (s : Schema) : DiskM SchemaError SchemaFolder :=
  match s.validate with
  | .error e => throw e
  | .ok () => ExceptT.adapt SchemaError.file (Definitions.write Schema.format f s)

/-- Delete a schema that is there. -/
def delete (f : SchemaFolder) (name : String) : DiskM SchemaError SchemaFolder :=
  if f.byName.contains name then
    show StateM Disk (Except SchemaError SchemaFolder) from
      Except.ok <$> Definitions.delete Schema.format f name
  else throw (.schemaNotFound name)

end SchemaFolder
end Inventory
