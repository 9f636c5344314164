/-
# The folder of views

`ViewsContext`: `get_view`, `require_view`, `write_view`, `delete_view` and `check_all`.

Views are loaded and written whether or not they agree with a schema; whether they
do is checked for all of them at once.
-/

import Inventory.Definitions
import Inventory.Page.ViewDocument
import Inventory.Schema.Registry

namespace Inventory

/-- How views are kept in files. -/
def View.format : DefinitionFormat View where
  folder := "views"
  nameOf := View.entityType
  isValid _ := true
  encode := View.toYaml
  decode? := View.ofYaml?

/-- The views of a folder. -/
abbrev ViewFolder := Definitions View

namespace ViewFolder

/-- How an error of writing the file of a definition is reported. -/
def writingError (cause : FileError) : ViewError := .schema (.file cause)

/-- Open the folder of views below a root. -/
def openAt (root : Path) (defaults : List View) : DiskM ViewError ViewFolder :=
  Definitions.openAt View.format .file writingError root defaults

/-- Views that are only in memory. -/
def inMemory (defaults : List View) : ViewFolder := Definitions.inMemory View.format defaults

/-- The view of an entity type, which has to be there. -/
def require (f : ViewFolder) (entityType : String) : Except ViewError View :=
  match f.get? entityType with
  | some v => .ok v
  | none => .error (.viewNotFound entityType)

/-- Check views against their schemas, up to the first that has none or that the
mode refuses. -/
def checkEach (schemas : SchemaRegistry) (mode : ValidationMode) : List View → Except ViewError Unit
  | [] => .ok ()
  | v :: rest =>
    match schemas.require v.entityType with
    | .error e => .error (.schema e)
    | .ok s =>
      match v.check s mode with
      | .error e => .error e
      | .ok () => checkEach schemas mode rest

/-- Check every view against its schema. -/
def checkAll (f : ViewFolder) (schemas : SchemaRegistry) (mode : ValidationMode) :
    Except ViewError Unit :=
  checkEach schemas mode f.byName.values

/-- Write a view. -/
def write (f : ViewFolder) (v : View) : DiskM ViewError ViewFolder :=
  ExceptT.adapt writingError (Definitions.write View.format f v)

/-- Delete a view that is there. -/
def delete (f : ViewFolder) (entityType : String) : DiskM ViewError ViewFolder :=
  if f.byName.contains entityType then
    show StateM Disk (Except ViewError ViewFolder) from
      Except.ok <$> Definitions.delete View.format f entityType
  else throw (.viewNotFound entityType)

end ViewFolder
end Inventory
