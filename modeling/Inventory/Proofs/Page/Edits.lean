/-
# Elements under edits

`RenderTree` under `set_property`, `insert_element`, `remove`, `merge` and `retain`.

An element is built from the empty one by edits. What it holds, and in which order, is told
by the writes that the edits have made (`Tree.writesOf`), without looking at an element:

| edit | writes |
| --- | --- |
| `setProperty`, `setElement`, `insert` | the node, under its key |
| `remove` | the removal of the key |
| `merge` | the nodes of the other element, one after another in its order |
| `retain` | the removal of each key whose node does not pass |

So no key stands twice, and the keys stand in the order in which they were last inserted
while absent (`Tree.built_eq_replay`). Elements that are built in this way can be overlaid in
any grouping, and a filter by the key can be applied before or after an overlay
(`Tree.overlays_of_edits`): a composed page is such an overlay, filtered.
-/

import Inventory.Page.Tree
import Inventory.Proofs.OrderedMap.Overlay

namespace Inventory
namespace Tree

open OrderedMap (Write InInsertionOrder)

/-! ### Edits -/

/-- What can be done to an element. -/
inductive Edit where
  | setProperty (key : String) (value : Data)
  | setElement (key : String) (child : Tree)
  | insert (key : String) (node : Node)
  | remove (key : String)
  | merge (other : Tree)
  | retain (keep : String → Node → Bool)

/-- What an edit makes of an element. -/
def Edit.apply (t : Tree) : Edit → Tree
  | .setProperty key value => Tree.setProperty t key value
  | .setElement key child => Tree.setElement t key child
  | .insert key node => OrderedMap.insert t key node
  | .remove key => OrderedMap.erase t key
  | .merge other => OrderedMap.merge t other
  | .retain keep => OrderedMap.filter keep t

/-- The element that edits build, one after another. -/
def built (edits : List Edit) : Tree := edits.foldl Edit.apply .empty

/-- What an edit writes, given what was written before. -/
def Edit.writes (log : List (Write String Node)) : Edit → List (Write String Node)
  | .setProperty key value => [.put key (.property value)]
  | .setElement key child => [.put key (.element child)]
  | .insert key node => [.put key node]
  | .remove key => [.drop key]
  | .merge other => other.entries.map fun e => .put e.1 e.2
  | .retain keep =>
    ((log.map Write.key).filter fun key => (OrderedMap.content log key).any fun node =>
      !keep key node).map .drop

/-- What edits write, one after another. -/
def writesOf (edits : List Edit) : List (Write String Node) :=
  edits.foldl (fun log e => log ++ e.writes log) []

variable {log : List (Write String Node)}

/-- The keys that a filter removes are those that were written and whose node does not pass. -/
theorem applyAll_writes_retain (log : List (Write String Node)) (keep : String → Node → Bool) :
    OrderedMap.applyAll (OrderedMap.replay log) (Edit.writes log (.retain keep))
      = (OrderedMap.replay log).filter keep := by
  rw [Edit.writes, OrderedMap.applyAll_drops]
  refine congrArg OrderedMap.mk (List.filter_congr fun e he => ?_)
  have hcontent : OrderedMap.content log e.1 = some e.2 := by
    rw [← OrderedMap.get?_replay, OrderedMap.get?_eq_some_iff (OrderedMap.nodup_keys_replay log)]
    exact he
  have hwritten : e.1 ∈ log.map Write.key :=
    List.mem_map.2 ⟨_, OrderedMap.exists_put_of_content_eq_some hcontent, rfl⟩
  simp [List.mem_filter, hcontent, hwritten]

/-- **Step:** an edit does to an element what its writes do. -/
theorem apply_replay (log : List (Write String Node)) (e : Edit) :
    e.apply (OrderedMap.replay log) = OrderedMap.replay (log ++ e.writes log) := by
  have happend : OrderedMap.replay (log ++ e.writes log)
      = OrderedMap.applyAll (OrderedMap.replay log) (e.writes log) :=
    OrderedMap.applyAll_append .empty log _
  rw [happend]
  cases e with
  | merge other => exact OrderedMap.merge_eq_applyAll _ other
  | retain keep => exact (applyAll_writes_retain log keep).symm
  | _ => rfl

/-- **Run:** edits build the element that their writes lead to. -/
theorem built_eq_replay (edits : List Edit) :
    built edits = OrderedMap.replay (writesOf edits) := by
  induction edits using List.reverseRecOn with
  | nil => rfl
  | append_singleton edits e ih =>
    rw [built, writesOf, List.foldl_append, List.foldl_append]
    change e.apply (built edits) = OrderedMap.replay (writesOf edits ++ e.writes (writesOf edits))
    rw [ih, apply_replay]

/-- No key is repeated in an element that is built. -/
theorem nodup_keys_built (edits : List Edit) : (built edits).keys.Nodup :=
  built_eq_replay edits ▸ OrderedMap.nodup_keys_replay _

/-! ### The algebra -/

/-- What an element has to do with the writes that have led to it. -/
structure Recalls (log : List (Write String Node)) (t : Tree) : Prop where
  once : t.keys.Nodup
  ordered : InInsertionOrder log t.keys
  holds : ∀ key, t.get? key = OrderedMap.content log key

/-- The laws of overlaying elements. The equations are between elements with their order. -/
structure Overlays (a b c : Tree) : Prop where
  associative : (a.merge b).merge c = a.merge (b.merge c)
  empty_left : OrderedMap.merge .empty a = a
  empty_right : a.merge .empty = a
  idempotent : a.merge a = a
  /-- The values of the right operand win. -/
  values : ∀ key, (a.merge b).get? key = (b.get? key).or (a.get? key)
  /-- The positions of the left operand are kept; the new keys follow in their order. -/
  positions : (a.merge b).keys = a.keys ++ b.keys.filter (· ∉ a.keys)
  /-- A filter by the key can be applied before the overlay. -/
  retain : ∀ keep : String → Bool, (a.merge b).filter (fun key _ => keep key)
    = (a.filter fun key _ => keep key).merge (b.filter fun key _ => keep key)

/-- An element that is built recalls the writes of its edits. -/
theorem recalls_built (edits : List Edit) : Recalls (writesOf edits) (built edits) := by
  rw [built_eq_replay]
  exact {
    once := OrderedMap.nodup_keys_replay _
    ordered := OrderedMap.inInsertionOrder_replay _
    holds := OrderedMap.get?_replay _ }

/-- The laws of overlays hold of elements without repeated keys. -/
theorem overlays_of_nodup {a b c : Tree} (ha : a.keys.Nodup) (hb : b.keys.Nodup)
    (hc : c.keys.Nodup) : Overlays a b c where
  associative := OrderedMap.merge_assoc ha hb hc
  empty_left := OrderedMap.empty_merge ha
  empty_right := OrderedMap.merge_empty a
  idempotent := OrderedMap.merge_self ha
  values := OrderedMap.get?_merge_of_nodup hb a
  positions := OrderedMap.keys_merge_of_nodup hb a
  retain keep := OrderedMap.filter_merge_key keep a b

/-- **Elements are ordered overlays.** Whatever edits build an element, no key stands twice in
it, the keys stand in the order in which they were last inserted while absent, and each holds
what was last written under it. For any three elements that edits build, overlaying is
associative and idempotent with the empty element for its unit, the values of the right operand
win at the positions of the left one, and a filter by the key distributes over it. -/
theorem overlays_of_edits (edits edits' edits'' : List Edit) :
    Recalls (writesOf edits) (built edits)
      ∧ Overlays (built edits) (built edits') (built edits'') :=
  ⟨recalls_built edits,
    overlays_of_nodup (nodup_keys_built edits) (nodup_keys_built edits') (nodup_keys_built edits'')⟩

/-- A key that is replaced by an overlay stays where it is, and one that was removed comes last
when it is set again. -/
example :
    let label (text : String) : Edit := .setProperty "#label" (.str text)
    let t := built [label "a", .setProperty "#weight" (.int 1),
      .merge (built [.setProperty "#open" (.bool true), label "b"]), .remove "#weight",
      .setProperty "#weight" (.int 2)]
    t.keys = ["#label", "#open", "#weight"] := by
  decide +kernel

end Tree
end Inventory
