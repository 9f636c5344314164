/-
# Documents of TOML

A document is a sequence of lines, each empty, a header, or a key and its value.
Keys are parts between points, and lead into nested tables. A key is set once;
how a table came to be decides what may still be added to it:

| a table that | may be declared by a header | may be extended by keys with points |
| --- | --- | --- |
| a header declared | no | no |
| only deeper headers implied | once | no |
| keys with points made | no | yes |

A header in double brackets adds a table to a list; a later header with its key
goes into the last of them. A value in braces is complete as it stands.

Brackets nest at most 79 deep, and a key has at most 79 parts.
-/

import Inventory.Toml.Quoted
import Inventory.Toml.Scalar

namespace Inventory
namespace Toml

/-- How a table came to be. -/
inductive Origin where
  | header
  | implied
  | dotted
  deriving DecidableEq, Repr

/-- What stands under a key while a document is read. -/
inductive Entry where
  | value (d : Data)
  | table (origin : Origin) (members : OrderedMap String Entry)
  | tables (elements : List (OrderedMap String Entry))
  deriving Inhabited

/-- Entries by key. -/
abbrev Table := OrderedMap String Entry

mutual

/-- An entry as a value. -/
def Entry.toData : Entry → Data
  | .value d => d
  | .table _ ⟨entries⟩ => .object ⟨Entry.membersToData entries⟩
  | .tables elements => .list (Entry.tablesToData elements)

/-- Entries as the members of an object. -/
def Entry.membersToData : List (String × Entry) → List (String × Data)
  | [] => []
  | (key, entry) :: rest => (key, entry.toData) :: Entry.membersToData rest

/-- Tables as objects. -/
def Entry.tablesToData : List Table → List Data
  | [] => []
  | ⟨entries⟩ :: rest => .object ⟨Entry.membersToData entries⟩ :: Entry.tablesToData rest

end

namespace Table

/-- Change the table at the end of a path, making the tables on the way that are
missing. A path made of points may not lead through a table with a header. -/
def update (dotted : Bool) (change : Origin → Table → Option Table) (origin : Origin) :
    List String → Table → Option Table
  | [], t => change origin t
  | key :: path, t =>
    match t.get? key with
    | none =>
      let made := if dotted then Origin.dotted else .implied
      (update dotted change made path .empty).map fun inner => t.insert key (.table made inner)
    | some (.value _) => none
    | some (.table origin inner) =>
      if dotted ∧ origin = .header then none
      else (update dotted change origin path inner).map fun inner =>
        t.insert key (.table origin inner)
    | some (.tables elements) =>
      match elements.getLast? with
      | none => none
      | some last => (update dotted change .header path last).map fun last =>
          t.insert key (.tables (elements.dropLast ++ [last]))

/-- Set a key with points, which must be new. -/
def assign (t : Table) (path : List String) (key : String) (d : Data) : Option Table :=
  update true (fun origin inner =>
    if (origin = .dotted ↔ path = []) ∨ inner.contains key then none
    else some (inner.insert key (.value d))) .header path t

/-- Set keys one after another. -/
def assignAll (t : Table) (entries : List (List String × String × Data)) : Option Table :=
  entries.foldlM (fun t (path, key, d) => t.assign path key d) t

end Table

/-! ## Keys and values -/

/-- How deep brackets nest and how many parts a key has, at most. -/
def maxDepth : Nat := 79

/-- A character of a key without quotes. -/
def isBareChar (c : Char) : Bool := c.isAlphanum || c = '_' || c = '-'

/-- One part of a key. -/
def readPart (s : List Char) : Option (String × List Char) :=
  match s with
  | '"' :: rest => (readBasic rest).map fun (t, r) => (String.ofList t, r)
  | '\'' :: rest => (readLiteral rest).map fun (t, r) => (String.ofList t, r)
  | s =>
    let part := s.takeWhile isBareChar
    if part = [] then none else some (String.ofList part, s.drop part.length)

/-- The parts of a key, with blanks around them: those that lead to the table, and
the last one. -/
def readKey : Nat → List Char → Option ((List String × String) × List Char)
  | 0, _ => none
  | fuel + 1, s => do
    let (part, rest) ← readPart (s.dropWhile isBlank)
    match rest.dropWhile isBlank with
    | '.' :: rest =>
      let ((path, key), rest) ← readKey fuel rest
      return ((part :: path, key), rest)
    | rest => return (([], part), rest)

/-- What follows blanks, comments and line breaks. -/
def afterLines : Nat → List Char → Option (List Char)
  | 0, _ => none
  | fuel + 1, s => do
    let rest ← afterComment (s.dropWhile isBlank)
    match afterBreak? rest with
    | some rest => afterLines fuel rest
    | none => return rest

mutual

/-- A value, inside brackets of a depth that is left. -/
def readValue (depth : Nat) : Nat → List Char → Option (Data × List Char)
  | 0, _ => none
  | fuel + 1, s =>
    match s with
    | '[' :: rest =>
      if depth = 0 then none
      else (readItems (depth - 1) fuel rest).map fun (items, r) => (.list items, r)
    | '\x7b' :: rest => do
      if depth = 0 then none
      let (entries, rest) ←
        match rest.dropWhile isBlank with
        | '\x7d' :: rest => some ([], rest)
        | rest => readEntries (depth - 1) fuel rest
      let table ← Table.assignAll .empty entries
      return ((Entry.table .header table).toData, rest)
    | '"' :: _ | '\'' :: _ => (readText s).map fun (t, r) => (.str (String.ofList t), r)
    | _ =>
      let (word, rest) := takeWord s
      (wordValue? word).map (·, rest)

/-- The items of a list and its closing bracket. -/
def readItems (depth : Nat) : Nat → List Char → Option (List Data × List Char)
  | 0, _ => none
  | fuel + 1, s => do
    match ← afterLines (s.length + 1) s with
    | ']' :: rest => return ([], rest)
    | rest =>
      let (item, rest) ← readValue depth fuel rest
      match ← afterLines (rest.length + 1) rest with
      | ']' :: rest => return ([item], rest)
      | ',' :: rest =>
        let (items, rest) ← readItems depth fuel rest
        return (item :: items, rest)
      | _ => none

/-- The entries of a value in braces, at least one, and its closing brace. -/
def readEntries (depth : Nat) :
    Nat → List Char → Option (List (List String × String × Data) × List Char)
  | 0, _ => none
  | fuel + 1, s => do
    let ((path, key), rest) ← readKey maxDepth s
    let rest ← after? '=' rest
    let (d, rest) ← readValue depth fuel (rest.dropWhile isBlank)
    match rest.dropWhile isBlank with
    | '\x7d' :: rest => return ([(path, key, d)], rest)
    | ',' :: rest =>
      let (entries, rest) ← readEntries depth fuel rest
      return ((path, key, d) :: entries, rest)
    | _ => none

end

/-! ## Lines -/

/-- What a line with something on it says. -/
inductive Line where
  | header (path : List String) (key : String)
  | listHeader (path : List String) (key : String)
  | entry (path : List String) (key : String) (d : Data)

/-- The line at the start of a text, and what follows it. -/
def readLine (s : List Char) : Option (Line × List Char) := do
  match s with
  | '[' :: '[' :: rest =>
    let ((path, key), rest) ← readKey maxDepth rest
    let rest ← after? ']' (← after? ']' rest)
    return (.listHeader path key, ← afterLine? rest)
  | '[' :: rest =>
    let ((path, key), rest) ← readKey maxDepth rest
    return (.header path key, ← afterLine? (← after? ']' rest))
  | s =>
    let ((path, key), rest) ← readKey maxDepth s
    let (d, rest) ← readValue maxDepth (2 * s.length + 2) ((← after? '=' rest).dropWhile isBlank)
    return (.entry path key d, ← afterLine? rest)

/-- The lines of a text that are not empty. -/
def readDocument : Nat → List Char → Option (List Line)
  | 0, _ => none
  | fuel + 1, s => do
    match ← afterLines (s.length + 1) s with
    | [] => return []
    | rest =>
      let (line, rest) ← readLine rest
      return line :: (← readDocument fuel rest)

/-- The tables of a document so far: all but the current one, and the current one
with the place where it belongs. -/
structure Draft where
  root : Table := .empty
  current : Table := .empty
  place : Option (Bool × List String × String) := none

namespace Draft

/-- Put the current table where it belongs. -/
def close (d : Draft) : Option Table :=
  match d.place with
  | none => some d.current
  | some (inList, path, key) =>
    Table.update false (fun _ parent =>
      if inList then
        match parent.get? key with
        | some (.tables elements) => some (parent.insert key (.tables (elements ++ [d.current])))
        | _ => none
      else if parent.contains key then none
      else some (parent.insert key (.table .header d.current))) .header path d.root

/-- Start a table with a header. One that was only implied goes on with what it
has. -/
def openTable (d : Draft) (path : List String) (key : String) : Option Draft := do
  let root ← d.close
  let parent ← Table.update false (fun _ parent =>
    match parent.get? key with
    | none | some (.table .implied _) => some parent
    | some _ => none) .header path root
  let found ← locate parent path
  let current := match found.get? key with
    | some (.table .implied inner) => inner
    | _ => .empty
  let root ← Table.update false (fun _ parent => some (parent.erase key)) .header path parent
  return { root, current, place := some (false, path, key) }
where
  /-- The table at the end of a path. -/
  locate (t : Table) : List String → Option Table
    | [] => some t
    | key :: path =>
      match t.get? key with
      | some (.table _ inner) => locate inner path
      | some (.tables elements) => elements.getLast?.bind (locate · path)
      | _ => none

/-- Start a table of a list. -/
def openElement (d : Draft) (path : List String) (key : String) : Option Draft := do
  let root ← Table.update false (fun _ parent =>
    match parent.get? key with
    | none => some (parent.insert key (.tables []))
    | some (.tables _) => some parent
    | some _ => none) .header path (← d.close)
  return { root, current := .empty, place := some (true, path, key) }

/-- Take a line. -/
def add (d : Draft) : Line → Option Draft
  | .header path key => d.openTable path key
  | .listHeader path key => d.openElement path key
  | .entry path key value =>
    (d.current.assign path key value).map fun current => { d with current }

end Draft

/-- The table that a text writes. A byte order mark in front is passed over. -/
def read (s : List Char) : Option Data := do
  let s := match s with
    | c :: rest => if c.toNat = 0xFEFF then rest else c :: rest
    | [] => []
  let lines ← readDocument (s.length + 1) s
  let draft ← lines.foldlM Draft.add {}
  let table ← draft.close
  return (Entry.table .header table).toData

end Toml

/-- The object that a TOML text writes. -/
def Data.ofToml? (text : String) : Option Data := Toml.read text.toList

end Inventory
