/-
# Self-describing values

The values that documents are made of, whatever text format they are written in:
null, booleans, numbers, text, lists, and objects whose members keep their order.

A number with a fraction or an exponent keeps its written form, because nothing
here computes with it: it only has to be told apart from an integer.

Values are equal (`==`) when they are of one kind and hold the same; the members
of an object compare as a map.
-/

import Inventory.OrderedMap

namespace Inventory

/-- A value of a document. -/
inductive Data where
  | null
  | bool (value : Bool)
  | int (value : Int)
  | real (written : String)
  | str (value : String)
  | list (items : List Data)
  | object (members : OrderedMap String Data)
  deriving Inhabited, Repr

namespace Data

/-- An object from its members in order. -/
def ofMembers (members : List (String × Data)) : Data := .object ⟨members⟩

/-- A list of texts. -/
def ofTexts (texts : List String) : Data := .list (texts.map .str)

/-- The text of a text value. -/
def str? : Data → Option String
  | .str s => some s
  | _ => none

/-- The number of an integer value. -/
def int? : Data → Option Int
  | .int n => some n
  | _ => none

mutual

/-- Equality of values; objects compare as maps, at any depth. -/
def sameAs : Data → Data → Bool
  | .null, .null => true
  | .bool a, .bool b => a == b
  | .int a, .int b => a == b
  | .real a, .real b => a == b
  | .str a, .str b => a == b
  | .list as, .list bs => sameItems as bs
  | .object ⟨as⟩, .object n => as.length == n.size && sameMembers as n
  | _, _ => false

/-- Equality of lists of values. -/
def sameItems : List Data → List Data → Bool
  | [], [] => true
  | a :: as, b :: bs => a.sameAs b && sameItems as bs
  | _, _ => false

/-- Whether the members are found in an object, with equal values. -/
def sameMembers : List (String × Data) → OrderedMap String Data → Bool
  | [], _ => true
  | (key, a) :: rest, n => (n.get? key).any (fun b => a.sameAs b) && sameMembers rest n

end

instance : BEq Data := ⟨sameAs⟩

end Data
end Inventory
