/-
# A map as its log of writes

Keys are written one after another. The map that the writes lead to (`replay`) is
determined by the log alone:

| of the map | in the log |
| --- | --- |
| the value of a key | what the last write of the key has left (`content`) |
| the order of the keys | when each was last inserted while absent (`LastInserted`) |

A key that is written again stays where it is. One that is written after it was
removed comes last.
-/

import Inventory.Proofs.OrderedMap

namespace Inventory
namespace OrderedMap

/-- One write to a map. -/
inductive Write (κ α : Type) where
  | put (key : κ) (value : α)
  | drop (key : κ)

variable {κ α : Type}

namespace Write

/-- The key that is written to. -/
def key : Write κ α → κ
  | put k _ => k
  | drop k => k

/-- What stands under the key afterwards. -/
def left : Write κ α → Option α
  | put _ v => some v
  | drop _ => none

variable [DecidableEq κ]

/-- The map after the write. -/
def apply (m : OrderedMap κ α) : Write κ α → OrderedMap κ α
  | put k v => m.insert k v
  | drop k => m.erase k

/-- One write, seen from any key. -/
theorem get?_apply (m : OrderedMap κ α) (w : Write κ α) (k : κ) :
    (w.apply m).get? k = if k = w.key then w.left else m.get? k := by
  cases w with
  | put k' v => exact get?_insert m k' v k
  | drop k' => exact get?_erase m k' k

/-- A write repeats no key. -/
theorem nodup_keys_apply {m : OrderedMap κ α} (h : m.keys.Nodup) (w : Write κ α) :
    (w.apply m).keys.Nodup := by
  cases w with
  | put k v => exact nodup_keys_insert h k v
  | drop k => exact nodup_keys_filter h _

end Write

variable [DecidableEq κ]

/-- The map after some writes. -/
def applyAll (m : OrderedMap κ α) (writes : List (Write κ α)) : OrderedMap κ α :=
  writes.foldl Write.apply m

/-- The map that a log of writes leads to. -/
def replay (log : List (Write κ α)) : OrderedMap κ α := applyAll empty log

/-- What the last write of a key has left under it. -/
def content (log : List (Write κ α)) (k : κ) : Option α :=
  (log.reverse.find? fun w => w.key = k).bind Write.left

/-- The write at place `n` puts a value under a key that is absent. -/
def InsertsAt (log : List (Write κ α)) (k : κ) (n : Nat) : Prop :=
  content (log.take n) k = none ∧ ∃ v, log[n]? = some (.put k v)

/-- Place `n` is the last one at which a key was inserted while absent. -/
structure LastInserted (log : List (Write κ α)) (k : κ) (n : Nat) : Prop where
  inserts : InsertsAt log k n
  last : ∀ m, InsertsAt log k m → m ≤ n

/-- Keys in the order in which they were last inserted while absent. -/
structure InInsertionOrder (log : List (Write κ α)) (keys : List κ) : Prop where
  inserted : ∀ k ∈ keys, ∃ n, LastInserted log k n
  increasing : keys.Pairwise fun k k' =>
    ∃ m n, LastInserted log k m ∧ LastInserted log k' n ∧ m < n

variable {log : List (Write κ α)} {w : Write κ α} {k : κ} {n : Nat}

/-- Writes are applied one after another. -/
theorem applyAll_append (m : OrderedMap κ α) (writes writes' : List (Write κ α)) :
    applyAll m (writes ++ writes') = applyAll (applyAll m writes) writes' :=
  List.foldl_append

/-- The last write is applied to what the writes before it lead to. -/
theorem replay_append_singleton (log : List (Write κ α)) (w : Write κ α) :
    replay (log ++ [w]) = w.apply (replay log) :=
  applyAll_append empty log [w]

/-- The last write decides what its key holds. -/
theorem content_append_singleton (log : List (Write κ α)) (w : Write κ α) (k : κ) :
    content (log ++ [w]) k = if k = w.key then w.left else content log k := by
  rw [content, List.reverse_append, List.reverse_singleton, List.singleton_append,
    List.find?_cons]
  by_cases hk : k = w.key
  · simp [hk]
  · simp [hk, Ne.symm hk, content]

/-- What stands under a key was put there. -/
theorem exists_put_of_content_eq_some {v : α} (h : content log k = some v) :
    .put k v ∈ log := by
  obtain ⟨w, hfind, hleft⟩ := Option.bind_eq_some_iff.1 h
  have hmem : w ∈ log := List.mem_reverse.1 (List.mem_of_find?_eq_some hfind)
  have hkey : w.key = k := by simpa using List.find?_some hfind
  cases w with
  | put k' v' =>
    obtain rfl : k' = k := hkey
    obtain rfl : v' = v := Option.some.inj hleft
    exact hmem
  | drop k' => cases hleft

/-- **What stands under a key** is what its last write has left. -/
theorem get?_replay (log : List (Write κ α)) (k : κ) : (replay log).get? k = content log k := by
  induction log using List.reverseRecOn with
  | nil => rfl
  | append_singleton log w ih =>
    rw [replay_append_singleton, Write.get?_apply, content_append_singleton, ih]

/-- Writes lead to a map without repeated keys. -/
theorem nodup_keys_replay (log : List (Write κ α)) : (replay log).keys.Nodup := by
  induction log using List.reverseRecOn with
  | nil => exact .nil
  | append_singleton log w ih =>
    rw [replay_append_singleton]
    exact Write.nodup_keys_apply ih w

/-! ### The order of the keys -/

/-- An insertion is one of the writes. -/
theorem InsertsAt.lt (h : InsertsAt log k n) : n < log.length := by
  obtain ⟨-, v, hv⟩ := h
  exact (List.getElem?_eq_some_iff.1 hv).1

/-- A write does not change what earlier writes did. -/
theorem insertsAt_append_of_lt (h : n < log.length) :
    InsertsAt (log ++ [w]) k n ↔ InsertsAt log k n := by
  rw [InsertsAt, InsertsAt, List.take_append_of_le_length (Nat.le_of_lt h),
    List.getElem?_append_left h]

/-- The last write inserts its key when nothing stood there. -/
theorem insertsAt_length :
    InsertsAt (log ++ [w]) k log.length ↔ content log k = none ∧ ∃ v, w = .put k v := by
  simp [InsertsAt]

/-- A write leaves it at the last insertion of a key that is there. -/
theorem LastInserted.append (h : LastInserted log k n) (hcontent : content log k ≠ none) :
    LastInserted (log ++ [w]) k n where
  inserts := (insertsAt_append_of_lt h.inserts.lt).2 h.inserts
  last m hm := by
    have hlength := hm.lt
    rw [List.length_append, List.length_singleton] at hlength
    rcases Nat.lt_or_ge m log.length with hlt | hge
    · exact h.last m ((insertsAt_append_of_lt hlt).1 hm)
    · obtain rfl : m = log.length := by omega
      exact absurd (insertsAt_length.1 hm).1 hcontent

/-- A key that is not there is inserted last. -/
theorem lastInserted_put (h : content log k = none) (v : α) :
    LastInserted (log ++ [.put k v]) k log.length where
  inserts := insertsAt_length.2 ⟨h, v, rfl⟩
  last m hm := by
    have hlength := hm.lt
    rw [List.length_append, List.length_singleton] at hlength
    omega

/-- Keys that are held stay in their order when something is written. -/
theorem InInsertionOrder.append {keys : List κ} (h : InInsertionOrder log keys)
    (hcontent : ∀ k ∈ keys, content log k ≠ none) : InInsertionOrder (log ++ [w]) keys where
  inserted k hk := by
    obtain ⟨n, hn⟩ := h.inserted k hk
    exact ⟨n, hn.append (hcontent k hk)⟩
  increasing := by
    refine h.increasing.imp_of_mem fun hk hk' ⟨m, n, hm, hn, hlt⟩ => ?_
    exact ⟨m, n, hm.append (hcontent _ hk), hn.append (hcontent _ hk'), hlt⟩

/-- Some of the keys are in the same order as all of them. -/
theorem InInsertionOrder.filter {keys : List κ} (h : InInsertionOrder log keys) (p : κ → Bool) :
    InInsertionOrder log (keys.filter p) where
  inserted k hk := h.inserted k (List.mem_filter.1 hk).1
  increasing := h.increasing.filter p

/-- A key that was absent comes after all others. -/
theorem InInsertionOrder.concat {keys : List κ} (h : InInsertionOrder log keys)
    (hcontent : ∀ k ∈ keys, content log k ≠ none) (hnew : content log k = none) (v : α) :
    InInsertionOrder (log ++ [.put k v]) (keys ++ [k]) where
  inserted k' hk' := by
    rcases List.mem_append.1 hk' with hk' | hk'
    · exact (h.append hcontent).inserted k' hk'
    · rw [List.mem_singleton.1 hk']
      exact ⟨log.length, lastInserted_put hnew v⟩
  increasing := by
    refine List.pairwise_append.2 ⟨(h.append hcontent).increasing, List.pairwise_singleton _ _, ?_⟩
    intro k₁ hk₁ k₂ hk₂
    obtain ⟨n, hn⟩ := h.inserted k₁ hk₁
    rw [List.mem_singleton.1 hk₂]
    exact ⟨n, log.length, hn.append (hcontent k₁ hk₁), lastInserted_put hnew v, hn.inserts.lt⟩

/-- **The keys stand in the order in which they were last inserted while absent.** -/
theorem inInsertionOrder_replay (log : List (Write κ α)) :
    InInsertionOrder log (replay log).keys := by
  induction log using List.reverseRecOn with
  | nil => exact ⟨nofun, .nil⟩
  | append_singleton log w ih =>
    have hcontent : ∀ k ∈ (replay log).keys, content log k ≠ none := by
      intro k hk hnone
      rw [← get?_replay, get?_eq_none_iff] at hnone
      exact hnone hk
    rw [replay_append_singleton]
    cases w with
    | put k v =>
      rw [Write.apply, keys_insert]
      split
      · exact ih.append hcontent
      · rename_i hnew
        rw [← get?_eq_none_iff, get?_replay] at hnew
        exact ih.concat hcontent hnew v
    | drop k =>
      rw [Write.apply, keys_erase]
      exact (ih.append hcontent).filter _

end OrderedMap
end Inventory
