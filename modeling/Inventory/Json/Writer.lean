/-
# Writing JSON text

The text is compact: no blanks, members in the order of the object, integers in
decimal. Inside a text only the quote, the backslash and the characters below
U+0020 are escaped:

| character | written |
| --- | --- |
| quote, backslash | a backslash before it |
| U+0008, U+0009, U+000A, U+000C, U+000D | `\b`, `\t`, `\n`, `\f`, `\r` |
| any other below U+0020 | `\u00` and two lower-case hexadecimal digits |
| everything else | itself |
-/

import Inventory.Data
import Inventory.Text.Hexadecimal

namespace Inventory
namespace Json

/-- A character as it stands between the quotes of a text. -/
def escape (c : Char) : List Char :=
  if c = '"' then ['\\', '"']
  else if c = '\\' then ['\\', '\\']
  else if c = '\x08' then ['\\', 'b']
  else if c = '\t' then ['\\', 't']
  else if c = '\n' then ['\\', 'n']
  else if c = '\x0c' then ['\\', 'f']
  else if c = '\r' then ['\\', 'r']
  else if c.toNat < 32 then
    ['\\', 'u', '0', '0', Text.hexDigit (c.toNat / 16), Text.hexDigit (c.toNat % 16)]
  else [c]

/-- A text between quotes. -/
def quote (text : List Char) : List Char := '"' :: text.flatMap escape ++ ['"']

mutual

/-- The characters of a value's JSON text. -/
def chars : Data → List Char
  | .null => "null".toList
  | .bool true => "true".toList
  | .bool false => "false".toList
  | .int n => (toString n).toList
  | .real written => written.toList
  | .str s => quote s.toList
  | .list items => '[' :: itemChars items ++ [']']
  | .object ⟨members⟩ => '\x7b' :: memberChars members ++ ['\x7d']

/-- The items of a list, with commas between them. -/
def itemChars : List Data → List Char
  | [] => []
  | [item] => chars item
  | item :: rest => chars item ++ ',' :: itemChars rest

/-- The members of an object, with commas between them. -/
def memberChars : List (String × Data) → List Char
  | [] => []
  | [(key, value)] => quote key.toList ++ ':' :: chars value
  | (key, value) :: rest => quote key.toList ++ ':' :: chars value ++ ',' :: memberChars rest

end

end Json

/-- The JSON text of a value. -/
def Data.toJson (d : Data) : String := String.ofList (Json.chars d)

end Inventory
