/-
# Folders of definitions

What `SchemaContext` and `ViewsContext` have in common: `open`, `seed_defaults`, `load_schemas` and
`load_views`, `write_schema` and `write_view`, `delete_schema` and `delete_view`.

Definitions of one kind (schemas, views) are files of a folder below a root, one
definition a file, named for the definition with the ending `.yaml`. They are held
in memory as well, by name, in the order in which the names were first added.

| operation | on the folder | in memory |
| --- | --- | --- |
| open | makes it, writes the defaults that have no file | what its files define |
| write | replaces the file as a whole | inserts, once the file is there |
| delete | removes the file, if it can be | removes |

Files are read in the order of their names. One that does not hold a valid
definition is skipped; one that cannot be read is an error.
-/

import Inventory.Files.Disk

namespace Inventory

/-- How definitions of one kind are kept in files. -/
structure DefinitionFormat (α : Type) where
  folder : String
  nameOf : α → String
  isValid : α → Bool
  encode : α → String
  decode? : String → Option α

/-- The ending of definition files. -/
def definitionEnding : String := "yaml"

namespace DefinitionFormat

variable {α : Type} (format : DefinitionFormat α)

/-- The folder below a root. -/
def folderIn (root : Path) : Path := root.join (.ofText format.folder)

/-- The file of a definition. -/
def fileOf (root : Path) (name : String) : Path :=
  (format.folderIn root).join (.ofText (name ++ "." ++ definitionEnding))

/-- Write the file of a definition. -/
def writeFile (root : Path) (d : α) : DiskM FileError Unit :=
  Disk.writeAtomically (format.fileOf root (format.nameOf d)) (format.encode d).toUTF8

/-- Write the definitions that have no file. -/
def seed (root : Path) : List α → DiskM FileError Unit
  | [] => pure ()
  | d :: rest => do
    if !(← get).holds (format.fileOf root (format.nameOf d)) then
      format.writeFile root d
    seed root rest

/-- The definition that a text holds, if it is a valid one. -/
def valid? (text : String) : Option α := (format.decode? text).filter format.isValid

/-- Add what a file holds. -/
def addText (held : OrderedMap String α) (text : String) : OrderedMap String α :=
  match format.valid? text with
  | some d => held.insert (format.nameOf d) d
  | none => held

/-- Whether a name is that of a definition file. -/
def isDefinitionFile (name : String) : Bool :=
  Path.extensionOf? name = some definitionEnding

/-- Add what files of the folder hold, one after another. -/
def addFiles (root : Path) (held : OrderedMap String α) :
    List String → DiskM FileError (OrderedMap String α)
  | [] => pure held
  | name :: rest => do
    let text ← Disk.ask (·.readText ((format.folderIn root).join (.ofText name)))
    addFiles root (format.addText held text) rest

/-- What the files of the folder define. -/
def load (root : Path) : DiskM FileError (OrderedMap String α) := do
  let names ← Disk.ask (·.namesIn (format.folderIn root))
  let files := (names.filter isDefinitionFile).mergeSort fun a b => decide (a ≤ b)
  format.addFiles root .empty files

end DefinitionFormat

/-- Definitions of one kind in memory, and the root of their folder. -/
structure Definitions (α : Type) where
  root : Path
  byName : OrderedMap String α

namespace Definitions

variable {α : Type}

/-- The definition of a name. -/
def get? (d : Definitions α) (name : String) : Option α := d.byName.get? name

/-- The names in order. -/
def names (d : Definitions α) : List String := d.byName.keys

/-- Number of definitions. -/
def size (d : Definitions α) : Nat := d.byName.size

variable (format : DefinitionFormat α)

/-- Open the folder below a root, making it and writing the defaults that have no
file. Errors of writing files are reported in one way, all others in another. -/
def openAt {ε : Type} (report reportWriting : FileError → ε) (root : Path) (defaults : List α) :
    DiskM ε (Definitions α) := do
  ExceptT.adapt report (Disk.change (·.createDirectories (format.folderIn root)))
  ExceptT.adapt reportWriting (format.seed root defaults)
  let byName ← ExceptT.adapt report (format.load root)
  return { root, byName }

/-- Definitions that are only in memory. Writing one fails for lack of a folder. -/
def inMemory (defaults : List α) : Definitions α where
  root := .ofText ""
  byName := .ofList (defaults.map fun d => (format.nameOf d, d))

/-- Write a definition, in the place of one of its name. -/
def write (held : Definitions α) (d : α) : DiskM FileError (Definitions α) := do
  format.writeFile held.root d
  return { held with byName := held.byName.insert (format.nameOf d) d }

/-- Delete a definition. Its file goes too, unless it cannot be removed. -/
def delete (held : Definitions α) (name : String) : StateM Disk (Definitions α) := do
  match (← get).remove (format.fileOf held.root name) with
  | .ok disk => set disk
  | .error _ => pure ()
  return { held with byName := held.byName.erase name }

end Definitions
end Inventory
