/-
# Plain scalars

What a scalar without quotes means, by its characters:

| kind | written |
| --- | --- |
| null | nothing, `~`, `null`, `Null`, `NULL` |
| boolean | `true`, `True`, `TRUE`, and the same of `false` |
| integer | digits; `0x`, `0o`, `0b` and digits of that base; a sign in front; 128 bits |
| real | a numeral with a finite value, `.inf`, `.nan` and their capitals |
| text | everything else |

Digits after a leading zero write a text, not a number: `012`.
-/

import Inventory.Binary64
import Inventory.Text.Hexadecimal
import Inventory.Width

namespace Inventory
namespace Yaml

/-- What the characters of a plain scalar mean. -/
inductive Scalar where
  | null
  | bool (value : Bool)
  | int (value : Int)
  | real
  | text
  deriving DecidableEq, Repr

/-- The text without one sign in front, and whether that sign was a minus. -/
def unsigned : List Char → Bool × List Char
  | '-' :: rest => (true, rest)
  | '+' :: rest => (false, rest)
  | s => (false, s)

/-- More than one digit, the first of them zero. -/
def hasLeadingZero (s : List Char) : Bool :=
  match (unsigned s).2 with
  | '0' :: rest => !rest.isEmpty && rest.all Char.isDigit
  | _ => false

/-- The integer that a plain scalar writes, if 128 bits hold it. -/
def int? (s : List Char) : Option Int :=
  let (negative, rest) := unsigned s
  let magnitude := match rest with
    | '0' :: 'x' :: digits => Text.natInBase? 16 digits
    | '0' :: 'o' :: digits => Text.natInBase? 8 digits
    | '0' :: 'b' :: digits => Text.natInBase? 2 digits
    | digits => if hasLeadingZero s then none else Text.natInBase? 10 digits
  let value := magnitude.map fun n => if negative then -(n : Int) else n
  value.filter (Width.holds 128)

/-- Whether a plain scalar writes a real. -/
def isReal (s : List Char) : Bool :=
  let word := String.ofList s
  let body := match s with
    | '+' :: rest => rest
    | s => s
  if s.head? = some '+' ∧ (body.head? = some '+' ∨ body.head? = some '-') then false
  else
    decide (String.ofList body ∈ [".inf", ".Inf", ".INF"])
      || decide (word ∈ ["-.inf", "-.Inf", "-.INF", ".nan", ".NaN", ".NAN"])
      || (!hasLeadingZero s && Binary64.isFiniteNumeral body)

/-- The truth value that a plain scalar writes. -/
def bool? (s : List Char) : Option Bool :=
  let word := String.ofList s
  if word ∈ ["true", "True", "TRUE"] then some true
  else if word ∈ ["false", "False", "FALSE"] then some false
  else none

/-- Whether a plain scalar writes null. -/
def isNull (s : List Char) : Bool :=
  decide (String.ofList s ∈ ["", "~", "null", "Null", "NULL"])

/-- What a plain scalar means. -/
def Scalar.ofPlain (s : List Char) : Scalar :=
  if isNull s then .null
  else match bool? s with
    | some b => .bool b
    | none =>
      match int? s with
      | some n => .int n
      | none => if isReal s then .real else .text

end Yaml
end Inventory
