/-
# Maps laid over each other

Laying maps without repeated keys over each other is associative, has the map without
entries for its unit, and changes nothing when a map is laid over itself. These are
equations between maps with their order:

| of `m.merge n` | |
| --- | --- |
| the value of a key | that of `n` where it has one, else that of `m` (`get?_merge_of_nodup`) |
| the order of the keys | those of `m`, then the new ones of `n` (`keys_merge_of_nodup`) |

Each law is proved for the order of the keys and for the values apart. An overlay is the
writes of its entries (`merge_eq_applyAll`), and a filter by the key is the removal of the
keys that do not pass (`applyAll_drops`).
-/

import Inventory.Proofs.OrderedMap.WriteLog

namespace Inventory
namespace OrderedMap

variable {κ α : Type} [DecidableEq κ] {a b c m n : OrderedMap κ α}

/-- **The positions of the left operand are kept,** and the new keys follow in their order. -/
theorem keys_merge_of_nodup (hn : n.keys.Nodup) (m : OrderedMap κ α) :
    (m.merge n).keys = m.keys ++ n.keys.filter (· ∉ m.keys) := by
  rw [keys_merge, eraseDups_eq_self hn]

/-! ### The laws -/

theorem merge_empty (m : OrderedMap κ α) : m.merge empty = m := rfl

theorem empty_merge (hm : m.keys.Nodup) : empty.merge m = m :=
  congrArg mk (entries_ofList hm)

/-- A map laid over itself is that map. -/
theorem merge_self (hm : m.keys.Nodup) : m.merge m = m := by
  have hkeys : (m.merge m).keys = m.keys := by
    have hnone : m.keys.filter (· ∉ m.keys) = [] := by simp
    rw [keys_merge_of_nodup hm, hnone, List.append_nil]
  refine eq_of_get? (nodup_keys_merge hm m) hkeys fun k => ?_
  rw [get?_merge_of_nodup hm, Option.or_self]

/-- A key of the third map is new to the others when it is new to each of them. -/
theorem keys_merge_merge (hb : b.keys.Nodup) (hc : c.keys.Nodup) :
    ((a.merge b).merge c).keys = (a.merge (b.merge c)).keys := by
  have hnew (k : κ) : (k ∉ a.keys ++ b.keys.filter (· ∉ a.keys)) ↔ k ∉ a.keys ∧ k ∉ b.keys := by
    by_cases hk : k ∈ a.keys <;> simp [hk]
  rw [keys_merge_of_nodup hc, keys_merge_of_nodup hb, keys_merge_of_nodup (nodup_keys_merge hb c),
    keys_merge_of_nodup hc, List.filter_append, List.filter_filter, List.append_assoc]
  simp only [hnew, Bool.decide_and]

/-- **Overlaying is associative.** -/
theorem merge_assoc (ha : a.keys.Nodup) (hb : b.keys.Nodup) (hc : c.keys.Nodup) :
    (a.merge b).merge c = a.merge (b.merge c) := by
  have hbc := nodup_keys_merge hb c
  refine eq_of_get? (nodup_keys_merge (nodup_keys_merge ha b) c) (keys_merge_merge hb hc)
    fun k => ?_
  rw [get?_merge_of_nodup hc, get?_merge_of_nodup hb, get?_merge_of_nodup hbc,
    get?_merge_of_nodup hc, Option.or_assoc]

/-! ### Overlays and filters as writes -/

/-- An overlay writes the entries of the upper map, one after another. -/
theorem merge_eq_applyAll (m n : OrderedMap κ α) :
    m.merge n = applyAll m (n.entries.map fun e => .put e.1 e.2) := by
  rw [applyAll, List.foldl_map]
  rfl

/-- To remove some keys is to keep the others. -/
theorem applyAll_drops (m : OrderedMap κ α) (ks : List κ) :
    applyAll m (ks.map .drop) = m.filter fun k _ => k ∉ ks := by
  induction ks generalizing m with
  | nil => simp [applyAll, filter]
  | cons k rest ih =>
    have hstep : applyAll m ((k :: rest).map .drop) = applyAll (m.erase k) (rest.map .drop) := rfl
    rw [hstep, ih, erase, filter, filter, filter, List.filter_filter]
    simp only [List.mem_cons, not_or, Bool.decide_and, Bool.and_comm]

end OrderedMap
end Inventory
