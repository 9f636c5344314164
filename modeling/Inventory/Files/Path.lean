/-
# Paths

Paths as the program joins them, and the names of their files.

A path is a sequence of parts between slashes, absolute when it starts with a
slash. Empty parts and `.` say nothing and are dropped; `..` stays, because what
it means depends on the directory that is reached before it.

| text | parts |
| --- | --- |
| `schemas/t.yaml` | `schemas`, `t.yaml` |
| `/a//b/./c/` | absolute, `a`, `b`, `c`, with a slash at the end |
| `a/../b` | `a`, `..`, `b` |
-/

namespace Inventory

/-- A path, taken apart. -/
structure Path where
  absolute : Bool
  parts : List String
  slashAtEnd : Bool := false
  deriving DecidableEq, Repr

namespace Path

/-- The pieces of a text between slashes. -/
def splitSlash : List Char → List (List Char)
  | [] => [[]]
  | c :: rest =>
    if c = '/' then [] :: splitSlash rest
    else match splitSlash rest with
      | [] => [[c]]
      | piece :: pieces => (c :: piece) :: pieces

/-- The path that a text writes. -/
def ofText (text : String) : Path where
  absolute := text.toList.head? = some '/'
  parts := ((splitSlash text.toList).filter fun p => p ≠ [] ∧ p ≠ ['.']).map String.ofList
  slashAtEnd := text.toList.getLast? = some '/'

/-- The path `q` seen from `p`: an absolute path replaces what it is joined to. -/
def join (p q : Path) : Path :=
  if q.absolute then q else ⟨p.absolute, p.parts ++ q.parts, q.slashAtEnd⟩

/-- The path without its last part. The root and the empty path have no parent. -/
def parent? (p : Path) : Option Path :=
  if p.parts = [] then none else some ⟨p.absolute, p.parts.dropLast, false⟩

/-- What follows the last point of a file name, if a character stands before it. -/
def extensionOf? (name : String) : Option String :=
  let reversed := name.toList.reverse
  let ending := reversed.takeWhile (· ≠ '.')
  match reversed.drop ending.length with
  | [] | ['.'] => none
  | _ => if name = ".." then none else some (String.ofList ending.reverse)

end Path
end Inventory
