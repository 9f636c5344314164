/-
# Render trees

`RenderTree` and `RenderNode`: `set_property`, `insert_element`, `element_mut`, `remove`, `merge`,
`retain`, `children`, and `is_meta_key`.

A page is an ordered map. A key that starts with `#` holds a property of the
element (`#type`, `#title`, `#weight`); every other key holds a child element.

Elements are equal (`==`) when they hold equal nodes under the same keys.
-/

import Inventory.Data
import Inventory.Width

namespace Inventory

/-- A property of an element, or an element below it. -/
inductive Node where
  | property (value : Data)
  | element (tree : OrderedMap String Node)
  deriving Inhabited, Repr

/-- An element of a page: properties and children by key, in order. -/
abbrev Tree := OrderedMap String Node

/-- Whether a key names a property. -/
def isMetaKey (key : String) : Bool := decide (key.toList.head? = some '#')

mutual

/-- A node in a document. -/
def Node.toData : Node → Data
  | .property value => value
  | .element ⟨entries⟩ => .object ⟨Node.entriesToData entries⟩

/-- The entries of an element in a document. -/
def Node.entriesToData : List (String × Node) → List (String × Data)
  | [] => []
  | (key, node) :: rest => (key, node.toData) :: Node.entriesToData rest

end

mutual

/-- Equality of nodes; elements compare as maps, at any depth. -/
def Node.sameAs : Node → Node → Bool
  | .property a, .property b => a == b
  | .element ⟨as⟩, .element n => as.length == n.size && Node.sameEntries as n
  | _, _ => false

/-- Whether the entries are found in an element, with equal nodes. -/
def Node.sameEntries : List (String × Node) → OrderedMap String Node → Bool
  | [], _ => true
  | (key, a) :: rest, n => (n.get? key).any (fun b => a.sameAs b) && Node.sameEntries rest n

end

instance : BEq Node := ⟨Node.sameAs⟩

namespace Tree

/-- An element of properties. -/
def ofProperties (properties : List (String × Data)) : Tree :=
  .ofList (properties.map fun (key, value) => (key, .property value))

/-- Set a property, keeping the position of a key that is there. -/
def setProperty (t : Tree) (key : String) (value : Data) : Tree := t.insert key (.property value)

/-- Set a child element, keeping the position of a key that is there. -/
def setElement (t : Tree) (key : String) (child : Tree) : Tree := t.insert key (.element child)

/-- The property under a key. -/
def property? (t : Tree) (key : String) : Option Data :=
  match t.get? key with
  | some (.property value) => some value
  | _ => none

/-- The element under a key. -/
def element? (t : Tree) (key : String) : Option Tree :=
  match t.get? key with
  | some (.element child) => some child
  | _ => none

/-- The text of a property. -/
def text? (t : Tree) (key : String) : Option String := (Tree.property? t key).bind Data.str?

/-- The child elements in order: elements under keys that name no property. -/
def children (t : Tree) : List (String × Tree) :=
  t.entries.filterMap fun
    | (key, .element child) => if isMetaKey key then none else some (key, child)
    | (_, .property _) => none

/-- The keys of the child elements in order. -/
def childKeys (t : Tree) : List String := (Tree.children t).map Prod.fst

/-- The property `#weight`, when it is an integer of 64 bits with sign. -/
def weight? (t : Tree) : Option Int :=
  ((Tree.property? t "#weight").bind Data.int?).filter (Width.holdsSigned 64)

/-- The property `#type`. -/
def type? (t : Tree) : Option String := Tree.text? t "#type"

/-- The element in a document. -/
def toData (t : Tree) : Data := (Node.element t).toData

end Tree
end Inventory
