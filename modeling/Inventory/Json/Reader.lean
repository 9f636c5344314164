/-
# Reading JSON text

The whole text must be one value, with blanks (space, tab, line feed, carriage
return) allowed around every token. What is read:

| value | read as |
| --- | --- |
| a number without fraction and exponent | an integer, of any size |
| any other number, and `-0` | a real, kept as written |
| a text | its characters, escapes resolved, surrogate pairs joined |
| an object | its members in order, a repeated key included |

Refused are trailing commas, leading zeros, unescaped characters below U+0020,
surrogates without their partner, and anything after the value.
-/

import Inventory.Data
import Inventory.Text.Hexadecimal

namespace Inventory
namespace Json

/-- The blanks between tokens. -/
def isBlank (c : Char) : Bool := c = ' ' || c = '\t' || c = '\n' || c = '\r'

/-- The text after its leading blanks. -/
def skipBlanks (s : List Char) : List Char := s.dropWhile isBlank

/-- The number that four hexadecimal digits write. -/
def hex4? (a b c d : Char) : Option Nat := Text.natInBase? 16 [a, b, c, d]

/-- The character that a backslash and `c` stand for. -/
def unescape? (c : Char) : Option Char :=
  if c = '"' ∨ c = '\\' ∨ c = '/' then some c
  else if c = 'b' then some '\x08'
  else if c = 't' then some '\t'
  else if c = 'n' then some '\n'
  else if c = 'f' then some '\x0c'
  else if c = 'r' then some '\r'
  else none

/-- A text up to its closing quote, and what follows the quote. -/
def readText : List Char → Option (List Char × List Char)
  | [] => none
  | '"' :: rest => some ([], rest)
  | '\\' :: 'u' :: a :: b :: c :: d :: '\\' :: 'u' :: e :: f :: g :: h :: rest =>
    match hex4? a b c d with
    | none => none
    | some unit =>
      if 0xD800 ≤ unit ∧ unit < 0xDC00 then
        match hex4? e f g h with
        | none => none
        | some low =>
          if 0xDC00 ≤ low ∧ low < 0xE000 then
            (readText rest).map fun (t, r) =>
              (Char.ofNat (0x10000 + (unit - 0xD800) * 0x400 + (low - 0xDC00)) :: t, r)
          else none
      else if 0xDC00 ≤ unit ∧ unit < 0xE000 then none
      else (readText ('\\' :: 'u' :: e :: f :: g :: h :: rest)).map fun (t, r) =>
        (Char.ofNat unit :: t, r)
  | '\\' :: 'u' :: a :: b :: c :: d :: rest =>
    match hex4? a b c d with
    | none => none
    | some unit =>
      if 0xD800 ≤ unit ∧ unit < 0xE000 then none
      else (readText rest).map fun (t, r) => (Char.ofNat unit :: t, r)
  | '\\' :: c :: rest =>
    match unescape? c with
    | none => none
    | some c => (readText rest).map fun (t, r) => (c :: t, r)
  | c :: rest =>
    if c.toNat < 32 then none else (readText rest).map fun (t, r) => (c :: t, r)

/-- Decimal digits, and what follows them. -/
def readDigits (s : List Char) : List Char × List Char := s.span Char.isDigit

/-- The number that decimal digits write. -/
def digitsValue (digits : List Char) : Nat :=
  digits.foldl (fun n c => n * 10 + (c.toNat - 48)) 0

/-- The fraction of a number, if one starts here: a point and at least one digit. -/
def readFraction : List Char → Option (List Char × List Char)
  | '.' :: rest =>
    match readDigits rest with
    | ([], _) => none
    | (digits, rest) => some ('.' :: digits, rest)
  | s => some ([], s)

/-- The exponent of a number, if one starts here. -/
def readExponent : List Char → Option (List Char × List Char)
  | [] => some ([], [])
  | e :: rest =>
    if e = 'e' ∨ e = 'E' then
      let (sign, rest) := match rest with
        | '+' :: rest => (['+'], rest)
        | '-' :: rest => (['-'], rest)
        | rest => ([], rest)
      match readDigits rest with
      | ([], _) => none
      | (digits, rest) => some (e :: sign ++ digits, rest)
    else some ([], e :: rest)

/-- A number after its sign. -/
def readNumber (negative : Bool) (s : List Char) : Option (Data × List Char) :=
  match readDigits s with
  | ([], _) => none
  | (digits, rest) =>
    if digits.head? = some '0' ∧ digits.length ≠ 1 then none
    else do
      let (fraction, rest) ← readFraction rest
      let (exponent, rest) ← readExponent rest
      let sign := if negative then ['-'] else []
      if fraction = [] ∧ exponent = [] then
        if negative ∧ digitsValue digits = 0 then return (.real "-0", rest)
        let n : Int := digitsValue digits
        return (.int (if negative then -n else n), rest)
      return (.real (String.ofList (sign ++ digits ++ fraction ++ exponent)), rest)

/-- What is left after the characters of `word`, if the text starts with them. -/
def afterWord : List Char → List Char → Option (List Char)
  | [], s => some s
  | w :: ws, c :: s => if w = c then afterWord ws s else none
  | _ :: _, [] => none

mutual

/-- One value at the start of the text, and what follows it. -/
def readValue : Nat → List Char → Option (Data × List Char)
  | 0, _ => none
  | fuel + 1, s =>
    match skipBlanks s with
    | 'n' :: rest => (afterWord "ull".toList rest).map (Data.null, ·)
    | 't' :: rest => (afterWord "rue".toList rest).map (Data.bool true, ·)
    | 'f' :: rest => (afterWord "alse".toList rest).map (Data.bool false, ·)
    | '"' :: rest => (readText rest).map fun (t, r) => (.str (String.ofList t), r)
    | '[' :: rest =>
      match skipBlanks rest with
      | ']' :: rest => some (.list [], rest)
      | rest => (readItems fuel rest).map fun (items, r) => (.list items, r)
    | '\x7b' :: rest =>
      match skipBlanks rest with
      | '\x7d' :: rest => some (.object ⟨[]⟩, rest)
      | rest => (readMembers fuel rest).map fun (members, r) => (.object ⟨members⟩, r)
    | '-' :: rest => readNumber true rest
    | s => readNumber false s

/-- The items of a list that has at least one, and what follows its bracket. -/
def readItems : Nat → List Char → Option (List Data × List Char)
  | 0, _ => none
  | fuel + 1, s =>
    match readValue fuel s with
    | none => none
    | some (item, rest) =>
      match skipBlanks rest with
      | ']' :: rest => some ([item], rest)
      | ',' :: rest => (readItems fuel rest).map fun (items, r) => (item :: items, r)
      | _ => none

/-- The members of an object that has at least one, and what follows its brace. -/
def readMembers : Nat → List Char → Option (List (String × Data) × List Char)
  | 0, _ => none
  | fuel + 1, s =>
    match skipBlanks s with
    | '"' :: rest =>
      match readText rest with
      | none => none
      | some (key, rest) =>
        match skipBlanks rest with
        | ':' :: rest =>
          match readValue fuel rest with
          | none => none
          | some (value, rest) =>
            match skipBlanks rest with
            | '\x7d' :: rest => some ([(String.ofList key, value)], rest)
            | ',' :: rest =>
              (readMembers fuel rest).map fun (members, r) =>
                ((String.ofList key, value) :: members, r)
            | _ => none
        | _ => none
    | _ => none

end

/-- The value that a text writes. Every token takes a character, so twice the
length of the text bounds the steps of the reader. -/
def read (s : List Char) : Option Data :=
  match readValue (2 * s.length + 2) s with
  | some (d, rest) => if skipBlanks rest = [] then some d else none
  | none => none

end Json

/-- The value that a JSON text writes, if it is one. -/
def Data.ofJson? (text : String) : Option Data := Json.read text.toList

end Inventory
