/-
# A map as its log of writes

What saving and deleting leave in a `RecordStore`.

Records are written one after another. The map that the writes lead to (`replay`) is
determined by the log alone:

| of the map | in the log |
| --- | --- |
| the record of an identifier | what the last write for it has left (`content`) |
| the order of the identifiers | when each was last inserted while absent (`LastInserted`) |

A record that is written again stays where it is. One that is written after it was
removed comes last. Each record is put under its own identifier (`Write.onMap`), so all
this is what the log of any map says of it (`OrderedMap.get?_replay`,
`OrderedMap.inInsertionOrder_replay`).
-/

import Inventory.Proofs.OrderedMap.WriteLog
import Inventory.Proofs.Store

namespace Inventory
namespace Store

/-- One write to the records. -/
inductive Write where
  | put (r : Record)
  | drop (id : Ulid)

namespace Write

/-- The identifier that is written to. -/
def id : Write → Ulid
  | put r => r.id
  | drop id => id

/-- What stands under the identifier afterwards. -/
def left : Write → Option Record
  | put r => some r
  | drop _ => none

/-- The records after the write. -/
def apply (records : OrderedMap Ulid Record) : Write → OrderedMap Ulid Record
  | put r => records.insert r.id r
  | drop id => records.erase id

/-- The write to the map, which puts a record under its identifier. -/
def onMap : Write → OrderedMap.Write Ulid Record
  | put r => .put r.id r
  | drop id => .drop id

/-- **Step:** a write keeps a store consistent. -/
theorem consistent_apply {records : OrderedMap Ulid Record} (h : Consistent records) (w : Write) :
    Consistent (w.apply records) := by
  cases w with
  | put r => exact h.insert r
  | drop id => exact h.erase id

/-- A write of a record has its identifier for a key. -/
theorem key_onMap (w : Write) : w.onMap.key = w.id := by cases w <;> rfl

/-- A write of a record leaves the record. -/
theorem left_onMap (w : Write) : w.onMap.left = w.left := by cases w <;> rfl

/-- A write of a record is the one on the map. -/
theorem apply_onMap (records : OrderedMap Ulid Record) (w : Write) :
    w.onMap.apply records = w.apply records := by cases w <;> rfl

/-- A write puts a record under its identifier. -/
theorem onMap_eq_put_iff {w : Write} {id : Ulid} {r : Record} :
    w.onMap = .put id r ↔ w = .put r ∧ r.id = id := by
  cases w with
  | put r' =>
    simp only [onMap, OrderedMap.Write.put.injEq, put.injEq]
    constructor
    · rintro ⟨rfl, rfl⟩
      exact ⟨rfl, rfl⟩
    · rintro ⟨rfl, rfl⟩
      exact ⟨rfl, rfl⟩
  | drop id' => simp [onMap]

end Write

/-- The records after some writes. -/
def applyAll (records : OrderedMap Ulid Record) (writes : List Write) : OrderedMap Ulid Record :=
  writes.foldl Write.apply records

/-- The records that a log of writes leads to. -/
def replay (log : List Write) : OrderedMap Ulid Record := applyAll .empty log

/-- What the last write for an identifier has left under it. -/
def content (log : List Write) (id : Ulid) : Option Record :=
  (log.reverse.find? fun w => w.id = id).bind Write.left

/-- The write at place `n` puts a record under an identifier under which there is none. -/
def InsertsAt (log : List Write) (id : Ulid) (n : Nat) : Prop :=
  content (log.take n) id = none ∧ ∃ r, log[n]? = some (.put r) ∧ r.id = id

/-- Place `n` is the last one at which an identifier was inserted while absent. -/
structure LastInserted (log : List Write) (id : Ulid) (n : Nat) : Prop where
  inserts : InsertsAt log id n
  last : ∀ m, InsertsAt log id m → m ≤ n

/-- Identifiers in the order in which they were last inserted while absent. -/
structure InInsertionOrder (log : List Write) (ids : List Ulid) : Prop where
  inserted : ∀ id ∈ ids, ∃ n, LastInserted log id n
  increasing : ids.Pairwise fun id id' =>
    ∃ m n, LastInserted log id m ∧ LastInserted log id' n ∧ m < n

variable {log : List Write} {id : Ulid} {n : Nat}

/-- Writes are applied one after another. -/
theorem applyAll_append (records : OrderedMap Ulid Record) (writes writes' : List Write) :
    applyAll records (writes ++ writes') = applyAll (applyAll records writes) writes' :=
  List.foldl_append

/-- The last write is applied to what the writes before it lead to. -/
theorem replay_append_singleton (log : List Write) (w : Write) :
    replay (log ++ [w]) = w.apply (replay log) :=
  applyAll_append .empty log [w]

/-- **Run:** writes lead to a consistent store. -/
theorem consistent_replay (log : List Write) : Consistent (replay log) := by
  induction log using List.reverseRecOn with
  | nil => exact .empty
  | append_singleton log w ih =>
    rw [replay_append_singleton]
    exact Write.consistent_apply ih w

/-! ### The log of the map -/

/-- Writes of records lead where those on the map lead. -/
theorem replay_onMap (log : List Write) : OrderedMap.replay (log.map Write.onMap) = replay log := by
  rw [OrderedMap.replay, OrderedMap.applyAll, List.foldl_map]
  simp only [Write.apply_onMap]
  rfl

/-- Writes of records leave what those on the map leave. -/
theorem content_onMap (log : List Write) (id : Ulid) :
    OrderedMap.content (log.map Write.onMap) id = content log id := by
  rw [OrderedMap.content, ← List.map_reverse, List.find?_map, Option.bind_map, content]
  simp only [Function.comp_def, Write.key_onMap, Write.left_onMap]

/-- Writes of records insert where those on the map do. -/
theorem insertsAt_onMap :
    OrderedMap.InsertsAt (log.map Write.onMap) id n ↔ InsertsAt log id n := by
  rw [OrderedMap.InsertsAt, ← List.map_take, content_onMap, List.getElem?_map]
  simp only [Option.map_eq_some_iff, Write.onMap_eq_put_iff]
  refine and_congr_right fun _ => exists_congr fun r => ?_
  constructor
  · rintro ⟨w, hw, rfl, hid⟩
    exact ⟨hw, hid⟩
  · rintro ⟨hw, hid⟩
    exact ⟨_, hw, rfl, hid⟩

/-- Writes of records insert for the last time where those on the map do. -/
theorem lastInserted_onMap :
    OrderedMap.LastInserted (log.map Write.onMap) id n ↔ LastInserted log id n :=
  ⟨fun h => ⟨insertsAt_onMap.1 h.inserts, fun m hm => h.last m (insertsAt_onMap.2 hm)⟩,
    fun h => ⟨insertsAt_onMap.2 h.inserts, fun m hm => h.last m (insertsAt_onMap.1 hm)⟩⟩

/-- **What stands under an identifier** is what the last write for it has left. -/
theorem get?_replay (log : List Write) (id : Ulid) : (replay log).get? id = content log id := by
  rw [← replay_onMap, ← content_onMap]
  exact OrderedMap.get?_replay _ id

/-- **The identifiers stand in the order in which they were last inserted while absent.** -/
theorem inInsertionOrder_replay (log : List Write) : InInsertionOrder log (replay log).keys := by
  have h := OrderedMap.inInsertionOrder_replay (log.map Write.onMap)
  rw [replay_onMap] at h
  refine ⟨fun id hid => ?_, h.increasing.imp fun ⟨m, n, hm, hn, hlt⟩ => ?_⟩
  · obtain ⟨n, hn⟩ := h.inserted id hid
    exact ⟨n, lastInserted_onMap.1 hn⟩
  · exact ⟨m, n, lastInserted_onMap.1 hm, lastInserted_onMap.1 hn, hlt⟩

end Store
end Inventory
