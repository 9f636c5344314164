/-
# Writing YAML

Block style with two blanks per level; the items of a list below a key stand
under the key. Empty lists and objects are `[]` and `{}`. Lines are never folded,
and there is no document marker.

| text | style |
| --- | --- |
| with a line feed | literal block, if that can hold it |
| that a plain scalar would not give back or may not hold, and digits after a zero | single quotes |
| with characters that are not printable, or blanks before a line break | double quotes |
| any other | plain |

A key that is longer than 128 bytes or has several lines is introduced by `?`.
-/

import Inventory.Data
import Inventory.Yaml.Character
import Inventory.Yaml.Scalar

namespace Inventory
namespace Yaml

/-- How a text may be written. -/
structure Styles where
  plain : Bool
  singleQuoted : Bool
  block : Bool
  deriving DecidableEq, Repr

/-- Whether two neighbours in a text satisfy a test. -/
def anyAdjacent (test : Char → Char → Bool) (s : List Char) : Bool :=
  (s.zip s.tail).any fun (a, b) => test a b

/-- Whether the characters in front make a text unfit to be plain. -/
def startsLikeIndicator (s : List Char) : Bool :=
  match s with
  | '-' :: '-' :: '-' :: _ | '.' :: '.' :: '.' :: _ => true
  | c :: rest =>
    decide (c ∈ "#,[]\x7b\x7d&*!|>'\"%@`".toList)
      || (decide (c ∈ ['?', ':', '-']) && isBlankBreakOrEnd rest.head?)
  | [] => false

/-- Whether a later character makes a text unfit to be plain: a colon before a
blank, or a number sign after one. -/
def hasInnerIndicator (s : List Char) : Bool :=
  anyAdjacent (fun a b => a = ':' && isBlankBreakOrEnd (some b)) (s.drop 1)
    || (decide (1 < s.length) && decide (s.getLast? = some ':'))
    || anyAdjacent (fun a b => isBlankBreakOrEnd (some a) && b = '#') s

/-- How a text that is not empty may be written. -/
def stylesOf (s : List Char) : Styles :=
  let special := s.any fun c => !isPrintable c
  let edge := fun c => c = some ' ' || (c.any isBreak)
  let atEdge := edge s.head? || edge s.getLast?
  let spaceAfterBreak := anyAdjacent (fun a b => isBreak a && b = ' ') s
  let spaceBeforeBreak := anyAdjacent (fun a b => a = ' ' && isBreak b) s
  let quotable := !spaceBeforeBreak && !special
  { plain := quotable && !atEdge && !spaceAfterBreak && !s.any isBreak
      && !startsLikeIndicator s && !hasInnerIndicator s
    singleQuoted := quotable && !spaceAfterBreak
    block := quotable && s.getLast? ≠ some ' ' }

/-- How a text is written. -/
inductive Style where
  | plain
  | singleQuoted
  | doubleQuoted
  | literal
  deriving DecidableEq, Repr

/-- The style of a text, in a place where it may take several lines or not. -/
def styleOf (oneLine : Bool) (s : List Char) : Style :=
  if s = [] then .singleQuoted
  else
    let styles := stylesOf s
    let quoted := if styles.singleQuoted then Style.singleQuoted else .doubleQuoted
    if oneLine && s.any isBreak then .doubleQuoted
    else if s.contains '\n' then if styles.block && !oneLine then .literal else .doubleQuoted
    else if Scalar.ofPlain s = .text && !hasLeadingZero s && styles.plain then .plain
    else quoted

/-- An upper-case hexadecimal number with zeros in front up to a width. -/
def hexPadded (width n : Nat) : List Char :=
  let digits := (Nat.toDigits 16 n).map Char.toUpper
  List.replicate (width - digits.length) '0' ++ digits

/-- The escape of a character between double quotes. -/
def escape (c : Char) : List Char :=
  '\\' :: match c.toNat with
    | 0x00 => ['0']
    | 0x07 => ['a']
    | 0x08 => ['b']
    | 0x09 => ['t']
    | 0x0A => ['n']
    | 0x0B => ['v']
    | 0x0C => ['f']
    | 0x0D => ['r']
    | 0x1B => ['e']
    | 0x22 => ['"']
    | 0x5C => ['\\']
    | 0x85 => ['N']
    | 0xA0 => ['_']
    | 0x2028 => ['L']
    | 0x2029 => ['P']
    | n =>
      if n ≤ 0xFF then 'x' :: hexPadded 2 n
      else if n ≤ 0xFFFF then 'u' :: hexPadded 4 n
      else 'U' :: hexPadded 8 n

/-- A text between double quotes. -/
def doubleQuoted (s : List Char) : List Char :=
  '"' :: s.flatMap (fun c =>
    if !isPrintable c || isBreak c || c = '"' || c = '\\' then escape c else [c]) ++ ['"']

/-- So many blanks. -/
def blanks (n : Nat) : List Char := List.replicate n ' '

/-- The characters of a text, with an indentation after every line break that a
line follows. -/
def indented (indent : Nat) : List Char → List Char
  | [] => []
  | [c] => [c]
  | c :: d :: rest =>
    if isBreak c && !isBreak d then c :: blanks indent ++ indented indent (d :: rest)
    else c :: indented indent (d :: rest)

/-- A text between single quotes, which are doubled inside. -/
def singleQuoted (indent : Nat) (s : List Char) : List Char :=
  '\'' :: (indented indent s).flatMap (fun c => if c = '\'' then ['\'', '\''] else [c]) ++ ['\'']

/-- The header of a literal block: the indentation when the text starts with a
blank or a line break, then what happens to the line breaks at its end. -/
def literalHeader (s : List Char) : List Char :=
  let hint := if s.head? = some ' ' || s.head?.any isBreak then ['2'] else []
  let keep := match s.reverse with
    | [] => ['-']
    | [c] => if isBreak c then ['+'] else ['-']
    | c :: d :: _ => if !isBreak c then ['-'] else if isBreak d then ['+'] else []
  '|' :: hint ++ keep

/-- A literal block. -/
def literal (indent : Nat) (s : List Char) : List Char :=
  let first := if s.head?.any isBreak then [] else blanks indent
  literalHeader s ++ '\n' :: first ++ indented indent s

/-- A text in its style. -/
def textChars (oneLine : Bool) (indent : Nat) (s : List Char) : List Char :=
  match styleOf oneLine s with
  | .plain => s
  | .singleQuoted => singleQuoted indent s
  | .doubleQuoted => doubleQuoted s
  | .literal => literal indent s

/-- Entries on lines of their own, indented. An entry that ends with a line break
needs no other. -/
def lines (indent : Nat) : List (List Char) → List Char
  | [] => []
  | [entry] => entry
  | entry :: rest =>
    let ending := if entry.getLast?.any isBreak then [] else ['\n']
    entry ++ ending ++ blanks indent ++ lines indent rest

/-- A key and its colon. The value of a key on a line of its own follows on the
line of the colon. -/
def isSimpleKey (key : String) : Bool :=
  !key.toList.any isBreak && decide (key.utf8ByteSize ≤ 128)

mutual

/-- What follows a dash, or the colon of a key on a line of its own, at an
indentation. -/
def afterDash (indent : Nat) : Data → List Char
  | .list (item :: rest) => ' ' :: lines (indent + 2) (items (indent + 2) (item :: rest))
  | .object ⟨member :: rest⟩ => ' ' :: lines (indent + 2) (members (indent + 2) (member :: rest))
  | .list [] => " []".toList
  | .object ⟨[]⟩ => " \x7b\x7d".toList
  | .null => " null".toList
  | .bool b => ' ' :: (if b then "true" else "false").toList
  | .int n => ' ' :: (toString n).toList
  | .real written => ' ' :: written.toList
  | .str s => ' ' :: textChars false (indent + 2) s.toList

/-- What follows the colon of a key at an indentation. -/
def afterColon (indent : Nat) : Data → List Char
  | .list (item :: rest) => '\n' :: blanks indent ++ lines indent (items indent (item :: rest))
  | .object ⟨member :: rest⟩ =>
    '\n' :: blanks (indent + 2) ++ lines (indent + 2) (members (indent + 2) (member :: rest))
  | .list [] => " []".toList
  | .object ⟨[]⟩ => " \x7b\x7d".toList
  | .null => " null".toList
  | .bool b => ' ' :: (if b then "true" else "false").toList
  | .int n => ' ' :: (toString n).toList
  | .real written => ' ' :: written.toList
  | .str s => ' ' :: textChars false (indent + 2) s.toList

/-- The items of a list at an indentation, each with its dash. -/
def items (indent : Nat) : List Data → List (List Char)
  | [] => []
  | item :: rest => ('-' :: afterDash indent item) :: items indent rest

/-- The members of an object at an indentation. -/
def members (indent : Nat) : List (String × Data) → List (List Char)
  | [] => []
  | (key, value) :: rest =>
    (if isSimpleKey key then
      textChars true (indent + 2) key.toList ++ ':' :: afterColon indent value
    else
      lines indent ['?' :: ' ' :: textChars false (indent + 2) key.toList,
        ':' :: afterDash indent value])
    :: members indent rest

end

/-- The lines of a document. -/
def documentChars : Data → List Char
  | .list (item :: rest) => lines 0 (items 0 (item :: rest))
  | .object ⟨member :: rest⟩ => lines 0 (members 0 (member :: rest))
  | scalar => (afterDash 0 scalar).drop 1

end Yaml

/-- The YAML text of a value, ending with a line break. -/
def Data.toYaml (d : Data) : String :=
  let chars := Yaml.documentChars d
  String.ofList (chars ++ if chars.getLast?.any Yaml.isBreak then [] else ['\n'])

/-- The text in which a value is shown to people: its YAML on lines of its own. -/
def Data.toDisplay (d : Data) : String := "\n" ++ d.toYaml

end Inventory
