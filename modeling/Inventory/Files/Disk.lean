/-
# A disk of directories and files

The operations on files that the program asks of the operating system, and its own `atomic_write`.

The disk maps locations (the names on the way down from the root) to directories
and files. Operations take paths, and find the location step by step: every part
but the last has to be a directory that exists, and `..` goes back up one step.

| operation | fails when |
| --- | --- |
| `createDirectories` | a file is in the way |
| `write` | the directory is missing, or a directory has that name |
| `rename` | the target is a directory |
| `remove`, `read` | there is no such file |

A failed operation leaves the disk as it was. A file is replaced as a whole by
`writeAtomically`: the new content goes to a temporary file beside the target,
which is then renamed. When the renaming fails, the temporary file stays.
-/

import Inventory.Attempt
import Inventory.OrderedMap
import Inventory.Files.Path

namespace Inventory

/-- Why an operation on files failed. -/
inductive FileError where
  | notFound
  | busy
  | exists
  | notADirectory
  | isADirectory
  | nameTooLong
  | noParent
  | nulInName
  | invalidUtf8
  deriving DecidableEq, Repr

/-- The text of a file error; those of the operating system carry its number. -/
def FileError.message : FileError → String
  | .notFound => "No such file or directory (os error 2)"
  | .busy => "Device or resource busy (os error 16)"
  | .exists => "File exists (os error 17)"
  | .notADirectory => "Not a directory (os error 20)"
  | .isADirectory => "Is a directory (os error 21)"
  | .nameTooLong => "File name too long (os error 36)"
  | .noParent => "no parent dir"
  | .nulInName => "file name contained an unexpected NUL byte"
  | .invalidUtf8 => "stream did not contain valid UTF-8"

/-- The names on the way down from the root. -/
abbrev Location := List String

/-- What stands at a location. -/
inductive FileEntry where
  | directory
  | file (content : ByteArray)

/-- Directories and files by location, and how many temporary names were given
out. The root is a directory and has no entry. -/
structure Disk where
  entries : OrderedMap Location FileEntry := .empty
  temporaries : Nat := 0

instance : Inhabited Disk := ⟨⟨.empty, 0⟩⟩

/-- Steps that read and change a disk and may fail with an error. What they
changed before they failed stays changed. -/
abbrev DiskM (ε : Type) := Attempt Disk ε

namespace Disk

/-- What stands at a location. -/
def entryAt? (d : Disk) (l : Location) : Option FileEntry :=
  if l = [] then some .directory else d.entries.get? l

/-- Go down (or up, for `..`) one step from a location. -/
def step (d : Disk) (l : Location) (part : String) : Except FileError Location :=
  match d.entryAt? l with
  | none => .error .notFound
  | some (.file _) => .error .notADirectory
  | some .directory =>
    if part = ".." then .ok l.dropLast
    else if 255 < part.utf8ByteSize then .error .nameTooLong
    else .ok (l ++ [part])

/-- The location that parts lead to from a location. It may be vacant, but what
stands before it must be directories. -/
def walk (d : Disk) (l : Location) : List String → Except FileError Location
  | [] => .ok l
  | part :: rest =>
    match d.step l part with
    | .ok l' => d.walk l' rest
    | .error e => .error e

/-- The location of a path. Relative paths start at the root. -/
def locate (d : Disk) (p : Path) : Except FileError Location :=
  if p.parts.any (·.toList.contains '\x00') then .error .nulInName
  else if p.parts = [] ∧ p.absolute = false then .error .notFound
  else d.walk [] p.parts

/-- What stands at a path. A slash at the end asks for a directory. -/
def entryAtPath (d : Disk) (p : Path) : Except FileError FileEntry :=
  match d.locate p with
  | .error e => .error e
  | .ok l =>
    match d.entryAt? l with
    | none => .error .notFound
    | some (.file content) => if p.slashAtEnd then .error .notADirectory else .ok (.file content)
    | some .directory => .ok .directory

/-- Whether something stands at a path. -/
def holds (d : Disk) (p : Path) : Bool := (d.entryAtPath p).isOk

/-- Whether a directory stands at a path. -/
def isDirectory (d : Disk) (p : Path) : Bool :=
  match d.entryAtPath p with
  | .ok .directory => true
  | _ => false

/-- Set what stands at a location. -/
def put (d : Disk) (l : Location) (e : FileEntry) : Disk :=
  { d with entries := d.entries.insert l e }

/-- Make one directory whose parent exists. -/
def createDirectory (d : Disk) (p : Path) : Except FileError Disk :=
  match d.locate p with
  | .error e => .error e
  | .ok l => if (d.entryAt? l).isSome then .error .exists else .ok (d.put l .directory)

/-- Make a directory and those above it, the parts given deepest first. -/
def createDirectoriesFrom (d : Disk) (absolute : Bool) : List String → Except FileError Disk
  | [] => .ok d
  | part :: above =>
    let p : Path := { absolute, parts := (part :: above).reverse }
    match d.createDirectory p with
    | .ok d => .ok d
    | .error .notFound =>
      match d.createDirectoriesFrom absolute above with
      | .error e => .error e
      | .ok d =>
        match d.createDirectory p with
        | .ok d => .ok d
        | .error e => if d.isDirectory p then .ok d else .error e
    | .error e => if d.isDirectory p then .ok d else .error e

/-- Make a directory and those above it that are missing. -/
def createDirectories (d : Disk) (p : Path) : Except FileError Disk :=
  d.createDirectoriesFrom p.absolute p.parts.reverse

/-- Write a file, replacing the content of one that is there. -/
def write (d : Disk) (p : Path) (content : ByteArray) : Except FileError Disk :=
  match d.locate p with
  | .error e => .error e
  | .ok l =>
    if p.slashAtEnd then .error .isADirectory
    else match d.entryAt? l with
      | some .directory => .error .isADirectory
      | _ => .ok (d.put l (.file content))

/-- Give the file at `source` the place of `target`, replacing a file there. -/
def rename (d : Disk) (source target : Path) : Except FileError Disk :=
  match d.locate source, d.locate target with
  | .error e, _ => .error e
  | _, .error e => .error e
  | .ok s, .ok t =>
    match d.entryAt? s with
    | none => .error .notFound
    | some entry =>
      if target.parts.getLast? = none ∨ target.parts.getLast? = some ".." then .error .busy
      else if target.slashAtEnd then .error .notADirectory
      else match d.entryAt? t with
        | some .directory => .error .isADirectory
        | _ => .ok ({ d with entries := d.entries.erase s }.put t entry)

/-- Remove a file. -/
def remove (d : Disk) (p : Path) : Except FileError Disk :=
  match d.entryAtPath p, d.locate p with
  | .error e, _ => .error e
  | .ok .directory, _ => .error .isADirectory
  | .ok (.file _), .ok l => .ok { d with entries := d.entries.erase l }
  | .ok (.file _), .error e => .error e

/-- The content of a file. -/
def read (d : Disk) (p : Path) : Except FileError ByteArray :=
  match d.entryAtPath p with
  | .error e => .error e
  | .ok .directory => .error .isADirectory
  | .ok (.file content) => .ok content

/-- The content of a file as text. -/
def readText (d : Disk) (p : Path) : Except FileError String :=
  match d.read p with
  | .error e => .error e
  | .ok content =>
    match String.fromUTF8? content with
    | some text => .ok text
    | none => .error .invalidUtf8

/-- The names in a directory, in no particular order. -/
def namesIn (d : Disk) (p : Path) : Except FileError (List String) :=
  match d.entryAtPath p, d.locate p with
  | .error e, _ => .error e
  | .ok (.file _), _ => .error .notADirectory
  | .ok .directory, .error e => .error e
  | .ok .directory, .ok l =>
    .ok (d.entries.keys.filterMap fun k =>
      if k.dropLast = l then k.getLast? else none)

/-- A temporary name that was not given out before. -/
def temporaryName (d : Disk) : String := ".tmp_" ++ toString d.temporaries

/-- An operation as a step that keeps the disk when it fails. -/
def change (operation : Disk → Except FileError Disk) : DiskM FileError Unit := do
  match operation (← get) with
  | .ok d => set d
  | .error e => throw e

/-- A question to the disk as a step. -/
def ask {α : Type} (question : Disk → Except FileError α) : DiskM FileError α := do
  match question (← get) with
  | .ok a => pure a
  | .error e => throw e

/-- Replace a file as a whole: write a temporary file beside it, then rename. -/
def writeAtomically (p : Path) (content : ByteArray) : DiskM FileError Unit := do
  match p.parent? with
  | none => throw .noParent
  | some directory =>
    let name := (← get).temporaryName
    modify fun d => { d with temporaries := d.temporaries + 1 }
    let temporary := directory.join { absolute := false, parts := [name] }
    change (·.write temporary content)
    change (·.rename temporary p)

/-- The paths of everything below a directory, relative to it and in order,
directories with a slash at the end. -/
def listing (d : Disk) (directory : Location) : List String :=
  let relative := d.entries.entries.filterMap fun (l, e) =>
    if directory.isPrefixOf l ∧ l ≠ directory then
      let path := "/".intercalate (l.drop directory.length)
      some (match e with
        | .directory => path ++ "/"
        | .file _ => path)
    else none
  relative.mergeSort (· ≤ ·)

end Disk
end Inventory
