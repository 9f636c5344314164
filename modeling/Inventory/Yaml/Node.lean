/-
# Nodes of YAML

A document is one node: a scalar, a list, or a mapping of nodes to nodes. An
alias stands for the node that its anchor marked before. What is left out (the
value behind a colon, the item behind a dash, the document itself) is the empty
plain scalar.

Of the tokens between a node and the end of the text only marks of the document's
end may be left: a second document is an error.
-/

import Inventory.Data
import Inventory.Yaml.Scalar
import Inventory.Yaml.Token

namespace Inventory
namespace Yaml

/-- A node of a document. -/
inductive Node where
  | scalar (plain : Bool) (text : String)
  | list (items : List Node)
  | mapping (entries : List (Node × Node))
  deriving Repr, Inhabited

namespace Node

/-- What is left out. -/
def empty : Node := .scalar true ""

/-! ## From tokens to nodes -/

/-- The tokens that are left, and the nodes that anchors marked so far, newest
first. -/
structure Supply where
  tokens : List Token
  anchors : List (String × Node) := []

/-- Steps that take tokens and may fail. -/
abbrev Parse := StateT Supply Option

/-- The next token. -/
def peek? : Parse (Option Token) := do return (← get).tokens.head?

/-- Leave the next token behind. -/
def skip : Parse Unit := modify fun s => { s with tokens := s.tokens.drop 1 }

/-- Take the next token if it is the given one. -/
def skipIf (t : Token) : Parse Bool := do
  if (← peek?) = some t then
    skip
    return true
  else return false

/-- Whether the next token is among some, or there is none. -/
def atAny (ts : List Token) : Parse Bool := do
  match ← peek? with
  | none => return true
  | some t => return ts.contains t

/-- The anchor and the tag in front of a node, each at most once: the anchor's
name, and whether there was any of the two. -/
def properties : Parse (Option String × Bool) := do
  let tagged ← skipIf .tag
  match ← peek? with
  | some (.anchor name) =>
    skip
    if !tagged then discard (skipIf .tag)
    return (some name, true)
  | _ => return (none, tagged)

/-- Remember the node that an anchor marks. -/
def mark (name : Option String) (n : Node) : Parse Node := do
  match name with
  | none => return n
  | some name =>
    modify fun s => { s with anchors := (name, n) :: s.anchors }
    return n

mutual

/-- One node. Block collections start only in block context, and a list that is
not indented only below a key. -/
def node (block unindented : Bool) : Nat → Parse Node
  | 0 => failure
  | fuel + 1 => do
    match ← peek? with
    | some (.alias name) =>
      skip
      match (← get).anchors.lookup name with
      | some n => return n
      | none => failure
    | _ =>
      let (name, marked) ← properties
      match ← peek? with
      | some (.scalar plain text) =>
        skip
        mark name (.scalar plain text)
      | some .flowSequenceStart =>
        skip
        mark name (.list (← flowItems true fuel))
      | some .flowMappingStart =>
        skip
        mark name (.mapping (← flowEntries true fuel))
      | next =>
        if unindented && next = some .blockEntry then mark name (.list (← unindentedItems fuel))
        else if block && next = some .blockSequenceStart then
          skip
          mark name (.list (← blockItems fuel))
        else if block && next = some .blockMappingStart then
          skip
          mark name (.mapping (← blockEntries fuel))
        else if marked then mark name empty
        else failure

/-- The items of an indented list and its end. -/
def blockItems : Nat → Parse (List Node)
  | 0 => failure
  | fuel + 1 => do
    if ← skipIf .blockEntry then
      let item ← if ← atAny [.blockEntry, .blockEnd] then pure empty else node true false fuel
      return item :: (← blockItems fuel)
    else if ← skipIf .blockEnd then return []
    else failure

/-- The items of a list that stands under its key. -/
def unindentedItems : Nat → Parse (List Node)
  | 0 => failure
  | fuel + 1 => do
    if ← skipIf .blockEntry then
      let item ←
        if ← atAny [.blockEntry, .key, .value, .blockEnd] then pure empty else node true false fuel
      return item :: (← unindentedItems fuel)
    else return []

/-- The entries of a block mapping and its end. -/
def blockEntries : Nat → Parse (List (Node × Node))
  | 0 => failure
  | fuel + 1 => do
    let ends := [.key, .value, .blockEnd]
    if ← skipIf .key then
      let key ← if ← atAny ends then pure empty else node true true fuel
      let value ←
        if ← skipIf .value then
          if ← atAny ends then pure empty else node true true fuel
        else pure empty
      return (key, value) :: (← blockEntries fuel)
    else if ← skipIf .blockEnd then return []
    else failure

/-- The items of a list in brackets and its end. A key mark makes an item that is
a mapping of one entry. -/
def flowItems (first : Bool) : Nat → Parse (List Node)
  | 0 => failure
  | fuel + 1 => do
    if ← skipIf .flowSequenceEnd then return []
    if !first then guard (← skipIf .flowEntry)
    if ← skipIf .flowSequenceEnd then return []
    if ← skipIf .key then
      let key ←
        if ← atAny [.value, .flowEntry, .flowSequenceEnd] then
          skip
          pure empty
        else node false false fuel
      let value ←
        if ← skipIf .value then
          if ← atAny [.flowEntry, .flowSequenceEnd] then pure empty else node false false fuel
        else pure empty
      return .mapping [(key, value)] :: (← flowItems false fuel)
    else
      let item ← node false false fuel
      return item :: (← flowItems false fuel)

/-- The entries of a mapping in braces and its end. -/
def flowEntries (first : Bool) : Nat → Parse (List (Node × Node))
  | 0 => failure
  | fuel + 1 => do
    if ← skipIf .flowMappingEnd then return []
    if !first then guard (← skipIf .flowEntry)
    if ← skipIf .flowMappingEnd then return []
    if ← skipIf .key then
      let key ←
        if ← atAny [.value, .flowEntry, .flowMappingEnd] then pure empty else node false false fuel
      let value ←
        if ← skipIf .value then
          if ← atAny [.flowEntry, .flowMappingEnd] then pure empty else node false false fuel
        else pure empty
      return (key, value) :: (← flowEntries false fuel)
    else
      let key ← node false false fuel
      return (key, empty) :: (← flowEntries false fuel)

end

/-- The node of a document, after its directives and its start mark. -/
def document (fuel : Nat) : Parse Node := do
  let directives := (← get).tokens.takeWhile (· = .directive)
  modify fun s => { s with tokens := s.tokens.drop directives.length }
  if ← skipIf .documentStart then
    if ← atAny [.directive, .documentStart, .documentEnd] then return empty
    else node true false fuel
  else if !directives.isEmpty then failure
  else node true false fuel

/-- The node that the tokens of a text write. Every node takes a token, and so
does every collection for its start. -/
def ofTokens? (ts : List Token) : Option Node :=
  if ts = [] then some empty
  else do
    let (n, s) ← (document (2 * ts.length + 2)).run { tokens := ts }
    if s.tokens.all (· = .documentEnd) then return n else none

/-- The node that a text writes. -/
def ofText? (text : String) : Option Node := (Token.scan text.toList).bind ofTokens?

/-! ## What nodes mean -/

/-- The text of a scalar, whatever its characters mean when they are plain. -/
def text? : Node → Option String
  | .scalar _ text => some text
  | .list _ | .mapping _ => none

/-- The meaning of a plain scalar. -/
def plain? : Node → Option Scalar
  | .scalar true text => some (.ofPlain text.toList)
  | _ => none

/-- Whether the node is null. -/
def isNull (n : Node) : Bool := n.plain? = some .null

/-- Whether the node is left out. -/
def isEmpty : Node → Bool
  | .scalar true "" => true
  | _ => false

/-- The truth value that a plain scalar writes. -/
def bool? (n : Node) : Option Bool :=
  match n.plain? with
  | some (.bool b) => some b
  | _ => none

/-- The integer that a plain scalar writes. -/
def int? (n : Node) : Option Int :=
  match n.plain? with
  | some (.int i) => some i
  | _ => none

/-- The items of a list. What is left out is a list without items. -/
def items? : Node → Option (List Node)
  | .list items => some items
  | n => if n.isEmpty then some [] else none

/-- The texts of a list of scalars. -/
def texts? (n : Node) : Option (List String) := do (← n.items?).mapM text?

/-- The members of a node that stands for a structure with the given member names:
a mapping, of which other keys are passed over, or a list of the values in the
order of the names. A member that occurs twice is an error. -/
def members? (names : List String) : Node → Option (OrderedMap String Node)
  | .mapping entries =>
    entries.foldlM (fun members (key, value) => do
      let name ← key.text?
      if names.contains name then
        if members.contains name then none else some (members.insert name value)
      else some members) .empty
  | .list items => if names.length < items.length then none else some (.ofList (names.zip items))
  | .scalar _ _ => none

/-- A member that may be missing, with a value for that case. -/
def orDefault {α : Type} (read : Node → Option α) (default : α) : Option Node → Option α
  | none => some default
  | some n => read n

/-- A member that may be missing or null. -/
def orNull {α : Type} (read : Node → Option α) : Option Node → Option (Option α)
  | none => some none
  | some n => if n.isNull then some none else (read n).map some

end Node
end Yaml
end Inventory
