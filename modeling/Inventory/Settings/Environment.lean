/-
# Environment variables as settings

`env_layer` of `ConfigProvider`.

A variable whose name starts with a prefix, in any case, sets the key that
follows the prefix, in lower case. Points in a key lead into nested objects. The
value is trimmed and then read:

| text | value |
| --- | --- |
| `true`, `false` | boolean |
| `12`, `-5`, `+5` | integer, of 64 bits with or without sign |
| `1.5`, `inf` | real |
| `"…"`, `'…'` | the text inside |
| `[…, …]` | list of values |
| `{key = …, …}` | object |

What does not read as one of these to its end is a text as it stands.
-/

import Inventory.Binary64
import Inventory.Data
import Inventory.Text.Hexadecimal
import Inventory.Text.Lowercase
import Inventory.Text.WhiteSpace
import Inventory.Width

namespace Inventory
namespace Environment

/-- The characters that end a value without quotes. -/
def isSeparator (c : Char) : Bool := ",[]\x7b\x7d".toList.contains c

/-- A space, tab, line feed, form feed or carriage return. -/
def isBlank (c : Char) : Bool := c = ' ' || c = '\t' || c = '\n' || c = '\x0c' || c = '\r'

/-- A character of a key. -/
def isKeyChar (c : Char) : Bool := c.isAlphanum || c = '_' || c = '-'

/-- The character that a backslash and another one stand for. -/
def unescape? : Char → Option Char
  | '"' => some '"'
  | '\\' => some '\\'
  | 'b' => some '\x08'
  | 'f' => some '\x0c'
  | 'n' => some '\n'
  | 'r' => some '\r'
  | 't' => some '\t'
  | _ => none

/-- How many hexadecimal digits follow the letter of an escape. -/
def hexWidth? : Char → Option Nat
  | 'u' => some 4
  | 'U' => some 8
  | _ => none

/-- A text between double quotes, after the first. -/
def readQuoted (s : List Char) : Option (List Char × List Char) :=
  match s with
  | [] => none
  | c :: rest =>
    if c = '"' then some ([], rest)
    else if c = '\\' then
      match rest with
      | [] => none
      | d :: rest =>
        match hexWidth? d with
        | some width => do
          let e ← Text.charOfHex? width rest
          let (t, r) ← readQuoted (rest.drop width)
          return (e :: t, r)
        | none => do
          let e ← unescape? d
          let (t, r) ← readQuoted rest
          return (e :: t, r)
    else do
      let (t, r) ← readQuoted rest
      return (c :: t, r)
termination_by s.length
decreasing_by all_goals simp only [List.length_cons, List.length_drop]; omega

/-- A text between single quotes, after the first. -/
def readSingleQuoted (s : List Char) : Option (List Char × List Char) :=
  match s.dropWhile (· ≠ '\'') with
  | _ :: rest => some (s.takeWhile (· ≠ '\''), rest)
  | [] => none

/-- The integer that a text writes, if it fits 64 bits, without sign or with. -/
def integer? (s : List Char) : Option Int :=
  let (negative, digits) := match s with
    | '-' :: digits => (true, digits)
    | '+' :: digits => (false, digits)
    | digits => (false, digits)
  if digits.all Char.isDigit then
    let value := (Text.natInBase? 10 digits).map fun n => if negative then -(n : Int) else n
    value.filter (Width.holds 64)
  else none

/-- A value without quotes and brackets. -/
def bare (s : List Char) : Data :=
  match integer? s with
  | some n => .int n
  | none =>
    let text := String.ofList s
    if (Binary64.read s).isSome then .real text else .str text

/-- What follows a word, if the text starts with it. -/
def after? (word s : List Char) : Option (List Char) :=
  if word.isPrefixOf s then some (s.drop word.length) else none

/-- The key of an entry. -/
def readKey (s : List Char) : Option (String × List Char) :=
  match s with
  | '"' :: rest => (readQuoted rest).map fun (t, r) => (String.ofList t, r)
  | s =>
    let key := s.takeWhile isKeyChar
    if key = [] then none else some (String.ofList key, s.drop key.length)

mutual

/-- A value with the blanks around it. -/
def readValue : Nat → List Char → Option (Data × List Char)
  | 0, _ => none
  | fuel + 1, s => do
    let s := s.dropWhile isBlank
    let (d, rest) ←
      match after? "true".toList s, after? "false".toList s with
      | some rest, _ => some (.bool true, rest)
      | none, some rest => some (.bool false, rest)
      | none, none =>
        match s with
        | '[' :: rest => (readItems fuel rest).map fun (items, r) => (.list items, r)
        | '\x7b' :: rest =>
          (readEntries fuel rest).map fun (entries, r) => (.object (.ofList entries), r)
        | '"' :: rest => (readQuoted rest).map fun (t, r) => (.str (String.ofList t), r)
        | '\'' :: rest => (readSingleQuoted rest).map fun (t, r) => (.str (String.ofList t), r)
        | s =>
          let word := s.takeWhile (!isSeparator ·)
          some (bare (Text.trim word), s.drop word.length)
    return (d, rest.dropWhile isBlank)

/-- The items of a list and its closing bracket. A comma may stand before it. -/
def readItems : Nat → List Char → Option (List Data × List Char)
  | 0, _ => none
  | fuel + 1, s =>
    match s with
    | ']' :: rest => some ([], rest)
    | s => do
      let (item, rest) ← readValue fuel s
      match rest with
      | ']' :: rest => return ([item], rest)
      | ',' :: rest =>
        let (items, rest) ← readItems fuel rest
        return (item :: items, rest)
      | _ => none

/-- The entries of an object and its closing brace. A comma may stand before it. -/
def readEntries : Nat → List Char → Option (List (String × Data) × List Char)
  | 0, _ => none
  | fuel + 1, s =>
    match s with
    | '\x7d' :: rest => some ([], rest)
    | s => do
      let (key, rest) ← readKey (s.dropWhile isBlank)
      let rest ← after? ['='] (rest.dropWhile isBlank)
      let (value, rest) ← readValue fuel rest
      match rest with
      | '\x7d' :: rest => return ([(key, value)], rest)
      | ',' :: rest =>
        let (entries, rest) ← readEntries fuel rest
        return ((key, value) :: entries, rest)
      | _ => none

end

/-- The value of a variable. -/
def valueOf (text : String) : Data :=
  let s := Text.trim text.toList
  match readValue (2 * s.length + 2) s with
  | some (d, []) => d
  | _ => .str (String.ofList s)

/-- The pieces of a text between points. -/
def splitPoints : List Char → List (List Char)
  | [] => [[]]
  | c :: rest =>
    if c = '.' then [] :: splitPoints rest
    else match splitPoints rest with
      | [] => [[c]]
      | piece :: pieces => (c :: piece) :: pieces

/-- The path of keys that a variable sets, if its name starts with the prefix and
no key is empty. -/
def keyPath? (leading name : String) : Option (List String) :=
  let name := Text.trim name.toList
  let start := name.take leading.length
  if start.map Char.toLower = leading.toList.map Char.toLower then
    let key := Text.trim (Text.lower (name.drop leading.length))
    let pieces := splitPoints key
    if pieces.any (· = []) then none else some (pieces.map String.ofList)
  else none

/-- A value below a path of keys. -/
def nested (d : Data) : List String → Data
  | [] => d
  | key :: path => .ofMembers [(key, nested d path)]

/-- The settings that variables make. Of several for one key the last counts. -/
def layer (leading : String) (entries : List (String × String)) : OrderedMap String Data :=
  .ofList (entries.filterMap fun (name, text) =>
    match keyPath? leading name with
    | some (key :: path) => some (key, nested (valueOf text) path)
    | _ => none)

end Environment
end Inventory
