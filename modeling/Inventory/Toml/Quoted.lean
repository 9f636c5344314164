/-
# Texts and comments of TOML

A text stands between quotes, one on each side or three. Double quotes allow
escapes. Between three quotes a text may have several lines: a line break right
after the opening quotes is dropped, the others are line feeds, and a backslash at
the end of a line swallows the blanks and line breaks that follow. One or two
quotes of the closing kind may stand inside, also right before the closing ones.

Outside escapes no control characters occur except tabs.
-/

import Inventory.Text.Hexadecimal

namespace Inventory
namespace Toml

/-- A space or a tab. -/
def isBlank (c : Char) : Bool := c = ' ' || c = '\t'

/-- A character that texts and comments may hold as it is. -/
def isPlainChar (c : Char) : Bool :=
  c = '\t' || (decide (32 ≤ c.toNat) && c.toNat != 127)

/-- What follows a line break, if the text starts with one. -/
def afterBreak? : List Char → Option (List Char)
  | '\n' :: rest => some rest
  | '\r' :: '\n' :: rest => some rest
  | _ => none

/-- The character that a backslash and another one stand for. -/
def unescape? : Char → Option Char
  | 'b' => some '\x08'
  | 't' => some '\t'
  | 'n' => some '\n'
  | 'f' => some '\x0c'
  | 'r' => some '\r'
  | '"' => some '"'
  | '\\' => some '\\'
  | _ => none

/-- How many hexadecimal digits follow the letter of an escape. -/
def hexWidth? : Char → Option Nat
  | 'u' => some 4
  | 'U' => some 8
  | _ => none

/-- An escape after its backslash: the character, and how many characters the
escape takes. -/
def readEscape (s : List Char) : Option (Char × Nat) :=
  match s with
  | [] => none
  | c :: rest =>
    match hexWidth? c with
    | some width => (Text.charOfHex? width rest).map (·, width + 1)
    | none => (unescape? c).map (·, 1)

/-- A text between single quotes, after the first. -/
def readLiteral : List Char → Option (List Char × List Char)
  | [] => none
  | c :: rest =>
    if c = '\'' then some ([], rest)
    else if isPlainChar c then (readLiteral rest).map fun (t, r) => (c :: t, r)
    else none

/-- A text between double quotes, after the first. -/
def readBasic (s : List Char) : Option (List Char × List Char) :=
  match s with
  | [] => none
  | c :: rest =>
    if c = '"' then some ([], rest)
    else if c = '\\' then do
      let (d, width) ← readEscape rest
      let (t, r) ← readBasic (rest.drop width)
      return (d :: t, r)
    else if isPlainChar c then do
      let (t, r) ← readBasic rest
      return (c :: t, r)
    else none
termination_by s.length
decreasing_by all_goals simp only [List.length_cons, List.length_drop]; omega

/-- What follows blanks and line breaks, if at least one line break is among them
before anything else. -/
def afterLineEnd? (s : List Char) : Option (List Char) :=
  (afterBreak? (s.dropWhile isBlank)).map fun rest =>
    rest.dropWhile fun c => isBlank c || c = '\n' || c = '\r'

/-- Closing quotes, with the one or two that belong to the text: how many belong to
it, and what follows. Nothing when fewer than three quotes stand here. -/
def closing? (quote : Char) (s : List Char) : Option (Nat × List Char) :=
  let count := (s.takeWhile (· = quote)).length
  if count < 3 then none
  else some (min (count - 3) 2, s.drop (3 + min (count - 3) 2))

/-- A text of several lines, after its opening quotes. -/
def readLines (quote : Char) (escapes : Bool) : Nat → List Char → Option (List Char × List Char)
  | 0, _ => none
  | fuel + 1, s =>
    match closing? quote s with
    | some (n, rest) => some (List.replicate n quote, rest)
    | none =>
      match afterBreak? s with
      | some rest => (readLines quote escapes fuel rest).map fun (t, r) => ('\n' :: t, r)
      | none =>
        match s with
        | [] => none
        | c :: rest =>
          if c = '\\' ∧ escapes then
            match afterLineEnd? rest with
            | some rest => readLines quote escapes fuel rest
            | none => do
              let (d, width) ← readEscape rest
              let (t, r) ← readLines quote escapes fuel (rest.drop width)
              return (d :: t, r)
          else if isPlainChar c then
            (readLines quote escapes fuel rest).map fun (t, r) => (c :: t, r)
          else none

/-- The text at the start of some characters, if a text starts there. -/
def readText (s : List Char) : Option (List Char × List Char) :=
  match s with
  | '"' :: '"' :: '"' :: rest => readLines '"' true (rest.length + 1) ((afterBreak? rest).getD rest)
  | '\'' :: '\'' :: '\'' :: rest =>
    readLines '\'' false (rest.length + 1) ((afterBreak? rest).getD rest)
  | '"' :: rest => readBasic rest
  | '\'' :: rest => readLiteral rest
  | _ => none

/-- What follows a comment, if one starts here. -/
def afterComment (s : List Char) : Option (List Char) :=
  match s with
  | '#' :: rest =>
    let after := rest.dropWhile isPlainChar
    if after.isEmpty || (afterBreak? after).isSome then some after else none
  | s => some s

/-- What follows the blanks, the comment and the line break that may end a line. -/
def afterLine? (s : List Char) : Option (List Char) := do
  let rest ← afterComment (s.dropWhile isBlank)
  if rest.isEmpty then some [] else afterBreak? rest

end Toml
end Inventory
