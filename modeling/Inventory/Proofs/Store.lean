/-
# The store under changes

`RecordStore`: `save`, `update`, `delete` and `apply_batch`, one at a time.

A store is *consistent* when every record stands under its own identifier and
no identifier stands twice. Every operation of the store keeps this.

A batch is described by its identifiers and by what it leaves under each
(`keys_batched`, `get?_batched`): new identifiers follow the old ones in the
order of their records, deleted ones are gone, and of the records to save the
last of an identifier counts. The order of the deletions does not show
(`batched_perm`).
-/

import Inventory.Proofs.OrderedMap
import Inventory.Store

namespace Inventory
namespace Store

variable {σ : Type}

/-- Every record stands under its own identifier, and none stands twice. -/
structure Consistent (records : OrderedMap Ulid Record) : Prop where
  nodup : records.keys.Nodup
  own : ∀ id r, records.get? id = some r → r.id = id

namespace Consistent

variable {records : OrderedMap Ulid Record}

/-- A store without records is consistent. -/
theorem empty : Consistent OrderedMap.empty := ⟨List.nodup_nil, by simp⟩

/-- **Step:** saving a record keeps a store consistent. -/
theorem insert (h : Consistent records) (r : Record) : Consistent (records.insert r.id r) where
  nodup := OrderedMap.nodup_keys_insert h.nodup r.id r
  own id r' hr' := by
    by_cases hid : id = r.id
    · subst hid
      rw [OrderedMap.get?_insert_self] at hr'
      rw [← Option.some.inj hr']
    · rw [OrderedMap.get?_insert_of_ne hid] at hr'
      exact h.own id r' hr'

/-- **Step:** removing a record keeps a store consistent. -/
theorem erase (h : Consistent records) (id : Ulid) : Consistent (records.erase id) where
  nodup := OrderedMap.nodup_keys_filter h.nodup _
  own id' r hr := by
    rw [OrderedMap.get?_erase] at hr
    split at hr
    · simp at hr
    · exact h.own id' r hr

/-- The identifiers in order are those of the records in order. -/
theorem map_id_values (h : Consistent records) : records.values.map Record.id = records.keys := by
  rw [OrderedMap.values, OrderedMap.keys, List.map_map]
  refine List.map_congr_left fun e he => ?_
  exact h.own e.1 e.2 ((OrderedMap.get?_eq_some_iff h.nodup).2 he)

/-- A record is stored exactly when it is found under its identifier. -/
theorem mem_values_iff (h : Consistent records) {r : Record} :
    r ∈ records.values ↔ records.get? r.id = some r := by
  rw [OrderedMap.mem_values_iff]
  constructor
  · rintro ⟨id, hid⟩
    have hget := (OrderedMap.get?_eq_some_iff h.nodup).2 hid
    rwa [h.own id r hget]
  · exact fun hget => ⟨r.id, OrderedMap.mem_entries_of_get? hget⟩

/-- Under an identifier that is not there no record stands. -/
theorem id_ne (h : Consistent records) {r : Record} {id : Ulid} (hr : r ∈ records.values)
    (hid : records.get? id = none) : r.id ≠ id := by
  rintro rfl
  rw [h.mem_values_iff.1 hr] at hid
  cases hid

/-- Records of a consistent store have identifiers of their own. -/
theorem nodup_map_id (h : Consistent records) : (records.values.map Record.id).Nodup :=
  h.map_id_values ▸ h.nodup

/-- Stored records with one identifier are one record. -/
theorem eq_of_id_eq (h : Consistent records) {r r' : Record} (hr : r ∈ records.values)
    (hr' : r' ∈ records.values) (hid : r.id = r'.id) : r = r' := by
  rw [h.mem_values_iff] at hr hr'
  rw [hid, hr'] at hr
  exact (Option.some.inj hr).symm

end Consistent

/-! ### Batches -/

/-- The records to save, keyed by their identifiers. -/
def keyed (upserts : List Record) : OrderedMap Ulid Record := ⟨upserts.map fun r => (r.id, r)⟩

/-- Saved records stand under their identifiers. -/
theorem keys_keyed (upserts : List Record) : (keyed upserts).keys = upserts.map Record.id := by
  simp [keyed, OrderedMap.keys, Function.comp_def]

/-- Saving one after another lays the saved records over the others. -/
theorem foldl_insert_eq_merge (records : OrderedMap Ulid Record) (upserts : List Record) :
    upserts.foldl (fun m r => m.insert r.id r) records = records.merge (keyed upserts) := by
  rw [keyed, OrderedMap.merge, List.foldl_map]

/-- Removing one after another takes them all out. -/
theorem foldl_erase_eq_filter (records : OrderedMap Ulid Record) (deletes : List Ulid) :
    deletes.foldl OrderedMap.erase records = records.filter fun id _ => id ∉ deletes := by
  induction deletes generalizing records with
  | nil => simp [OrderedMap.filter]
  | cons id rest ih =>
    rw [List.foldl_cons, ih, OrderedMap.erase, OrderedMap.filter, OrderedMap.filter,
      OrderedMap.filter, List.filter_filter]
    simp [Bool.and_comm]

/-- **A batch** lays the saved records over the others and takes the removed ones out. -/
theorem batched_eq (records : OrderedMap Ulid Record) (upserts : List Record)
    (deletes : List Ulid) :
    batched records upserts deletes
      = (records.merge (keyed upserts)).filter fun id _ => id ∉ deletes := by
  rw [batched, foldl_insert_eq_merge, foldl_erase_eq_filter]

/-- **The identifiers after a batch** that saves each record once. -/
theorem keys_batched {records : OrderedMap Ulid Record} {upserts : List Record}
    (h : (upserts.map Record.id).Nodup) (deletes : List Ulid) :
    (batched records upserts deletes).keys
      = records.keys.filter (· ∉ deletes)
        ++ (upserts.map Record.id).filter fun id => id ∉ records.keys ∧ id ∉ deletes := by
  rw [batched_eq, OrderedMap.keys_filter_key, OrderedMap.keys_merge, keys_keyed,
    OrderedMap.eraseDups_eq_self h, List.filter_append, List.filter_filter]
  simp [Bool.and_comm]

/-- **A batch of new records** puts them behind the old ones. -/
theorem values_batched_of_new {records : OrderedMap Ulid Record} {upserts : List Record}
    (h : (upserts.map Record.id).Nodup) (hnew : ∀ u ∈ upserts, records.get? u.id = none) :
    (batched records upserts []).values = records.values ++ upserts := by
  have hdisjoint : ∀ id ∈ (keyed upserts).keys, id ∉ records.keys := by
    intro id hid
    rw [keys_keyed] at hid
    obtain ⟨u, hu, rfl⟩ := List.mem_map.1 hid
    exact OrderedMap.get?_eq_none_iff.1 (hnew u hu)
  have hentries : (keyed upserts).entries.map Prod.snd = upserts := by
    simp [keyed, Function.comp_def]
  rw [batched, List.foldl_nil, foldl_insert_eq_merge, OrderedMap.values,
    OrderedMap.entries_merge_of_disjoint (by rwa [keys_keyed]) hdisjoint, List.map_append, hentries]
  rfl

/-- **What stands under an identifier after a batch** that saves each record once. -/
theorem get?_batched {records : OrderedMap Ulid Record} {upserts : List Record}
    (h : (upserts.map Record.id).Nodup) (deletes : List Ulid) (id : Ulid) :
    (batched records upserts deletes).get? id
      = if id ∈ deletes then none
        else ((keyed upserts).get? id).or (records.get? id) := by
  rw [batched_eq, OrderedMap.get?_filter_key,
    OrderedMap.get?_merge_of_nodup (by rwa [keys_keyed])]
  by_cases hid : id ∈ deletes <;> simp [hid]

/-- **Whatever is stored after a batch** was saved, or was stored and gave way to nothing. -/
theorem saved_or_kept {records : OrderedMap Ulid Record} {upserts : List Record}
    {deletes : List Ulid} {id : Ulid} {r : Record}
    (h : (batched records upserts deletes).get? id = some r) :
    id ∉ deletes ∧ (r ∈ upserts ∧ r.id = id
      ∨ id ∉ upserts.map Record.id ∧ records.get? id = some r) := by
  rw [batched_eq, OrderedMap.get?_filter_key, OrderedMap.get?_merge] at h
  split at h
  · rename_i hdel
    refine ⟨of_decide_eq_true hdel, ?_⟩
    rcases Option.or_eq_some_iff.1 h with hsaved | ⟨hunsaved, hget⟩
    · obtain ⟨u, hu, he⟩ := List.mem_map.1
        (List.mem_reverse.1 (OrderedMap.mem_of_lookupIn_eq_some hsaved))
      obtain ⟨rfl, rfl⟩ := Prod.mk.inj he
      exact .inl ⟨hu, rfl⟩
    · refine .inr ⟨fun hid => ?_, hget⟩
      refine OrderedMap.lookupIn_eq_none_iff.1 hunsaved ?_
      rw [List.map_reverse, List.mem_reverse]
      change id ∈ (keyed upserts).keys
      rwa [keys_keyed]
  · cases h

/-- After a batch that saves each record once, everything that was saved is stored. -/
theorem get?_batched_eq_some_iff {records : OrderedMap Ulid Record} {upserts : List Record}
    (hnodup : (upserts.map Record.id).Nodup) {deletes : List Ulid} {id : Ulid} {r : Record} :
    (batched records upserts deletes).get? id = some r ↔
      id ∉ deletes ∧ (r ∈ upserts ∧ r.id = id
        ∨ id ∉ upserts.map Record.id ∧ records.get? id = some r) := by
  refine ⟨saved_or_kept, fun ⟨hdel, h⟩ => ?_⟩
  have hkeyed : (keyed upserts).keys.Nodup := by rwa [keys_keyed]
  rw [get?_batched hnodup, if_neg hdel, Option.or_eq_some_iff]
  rcases h with ⟨hr, hid⟩ | ⟨hunsaved, hget⟩
  · exact .inl ((OrderedMap.get?_eq_some_iff hkeyed).2 (List.mem_map.2 ⟨r, hr, by rw [hid]⟩))
  · exact .inr ⟨OrderedMap.get?_eq_none_iff.2 (by rwa [keys_keyed]), hget⟩

/-- **A batch that replaces stored records** relates each record to what has become of it. -/
theorem forall₂_values_batched {records : OrderedMap Ulid Record} {upserts : List Record}
    (hs : Consistent records) (hnodup : (upserts.map Record.id).Nodup)
    {R : Record → Record → Prop} (hsaved : ∀ u ∈ upserts, ∃ r, records.get? u.id = some r ∧ R r u)
    (hkept : ∀ r ∈ records.values, r.id ∉ upserts.map Record.id → R r r) :
    List.Forall₂ R records.values (batched records upserts []).values := by
  have hkeys : records.keys = (batched records upserts []).keys := by
    have hnew : (upserts.map Record.id).filter (fun id => id ∉ records.keys ∧ id ∉ []) = [] := by
      refine List.filter_eq_nil_iff.2 fun id hid => ?_
      obtain ⟨u, hu, rfl⟩ := List.mem_map.1 hid
      obtain ⟨r, hr, -⟩ := hsaved u hu
      have hmem : u.id ∈ records.keys := OrderedMap.isSome_get?_iff.1 (by rw [hr]; rfl)
      simp [hmem]
    rw [keys_batched hnodup, hnew, List.append_nil]
    exact (List.filter_eq_self.2 fun _ _ => by simp).symm
  refine OrderedMap.forall₂_values hkeys hs.nodup fun id r u hr hu => ?_
  obtain ⟨-, ⟨hsave, rfl⟩ | ⟨hunsaved, hu⟩⟩ := saved_or_kept hu
  · obtain ⟨r', hr', hrel⟩ := hsaved u hsave
    exact Option.some.inj (hr'.symm.trans hr) ▸ hrel
  · obtain rfl : r = u := Option.some.inj (hr.symm.trans hu)
    obtain rfl := hs.own id r hr
    exact hkept r (hs.mem_values_iff.2 hr) hunsaved

/-- **The order of the deletions does not show.** -/
theorem batched_perm {deletes deletes' : List Ulid} (h : deletes'.Perm deletes)
    (records : OrderedMap Ulid Record) (upserts : List Record) :
    batched records upserts deletes' = batched records upserts deletes := by
  simp only [batched_eq, h.mem_iff]

/-- The order of the deletions does not matter. -/
theorem applyBatch_perm [Watcher σ] {deletes deletes' : List Ulid} (h : deletes'.Perm deletes)
    (s : Store σ) (upserts : List Record) :
    s.applyBatch upserts deletes' = s.applyBatch upserts deletes := by
  have hempty : deletes'.isEmpty = deletes.isEmpty := by
    rw [Bool.eq_iff_iff, List.isEmpty_iff, List.isEmpty_iff]
    exact ⟨fun e => (e ▸ h).nil_eq.symm, fun e => (e ▸ h).eq_nil⟩
  simp only [applyBatch, batched_perm h, hempty]

/-- A batch without saves and deletions, which is left out, would change nothing. -/
theorem records_applyBatch [Watcher σ] (s : Store σ) (upserts : List Record)
    (deletes : List Ulid) :
    (s.applyBatch upserts deletes).records = batched s.records upserts deletes := by
  unfold applyBatch
  split
  · rename_i h
    rw [List.isEmpty_iff.1 h.1, List.isEmpty_iff.1 h.2]
    rfl
  · rfl

/-- A batch keeps a store consistent. -/
theorem Consistent.batched {records : OrderedMap Ulid Record} (h : Consistent records)
    (upserts : List Record) (deletes : List Ulid) :
    Consistent (Store.batched records upserts deletes) := by
  have hsaved : Consistent (upserts.foldl (fun m r => m.insert r.id r) records) := by
    induction upserts generalizing records with
    | nil => exact h
    | cons r rest ih => exact ih (h.insert r)
  rw [Store.batched]
  generalize upserts.foldl (fun m r => m.insert r.id r) records = saved at hsaved
  induction deletes generalizing saved with
  | nil => exact hsaved
  | cons id rest ih => exact ih _ (hsaved.erase id)

/-! ### The part of the records under some identifiers -/

/-- The records under some identifiers, in their order. -/
def part (records : OrderedMap Ulid Record) (ids : List Ulid) : OrderedMap Ulid Record :=
  records.filter fun id _ => id ∈ ids

/-- A part of a store holds what the store holds there. -/
theorem get?_part {records : OrderedMap Ulid Record} {ids : List Ulid} {id : Ulid}
    (h : id ∈ ids) : (part records ids).get? id = records.get? id := by
  rw [part, OrderedMap.get?_filter_key, if_pos (by simpa using h)]

/-- A batch does to a part what it does there. -/
theorem part_batched (records : OrderedMap Ulid Record) (upserts : List Record)
    (deletes ids : List Ulid) :
    part (batched records upserts deletes) ids
      = batched (part records ids) (upserts.filter fun u => u.id ∈ ids) deletes := by
  have hkeyed : (keyed upserts).filter (fun id _ => decide (id ∈ ids))
      = keyed (upserts.filter fun u => u.id ∈ ids) := by
    simp only [keyed, OrderedMap.filter, List.filter_map]
    rfl
  have hcomm (m : OrderedMap Ulid Record) :
      (m.filter fun id _ => id ∉ deletes).filter (fun id _ => id ∈ ids)
        = (m.filter fun id _ => id ∈ ids).filter fun id _ => id ∉ deletes := by
    simp only [OrderedMap.filter, List.filter_filter, Bool.and_comm]
  rw [batched_eq, batched_eq, part, hcomm, OrderedMap.filter_merge_key, hkeyed, part]

/-- A batch that saves inside the part changes the part as it changes the whole. -/
theorem part_batched_of_mem {upserts : List Record} {ids : List Ulid}
    (h : ∀ u ∈ upserts, u.id ∈ ids) (records : OrderedMap Ulid Record) (deletes : List Ulid) :
    part (batched records upserts deletes) ids = batched (part records ids) upserts deletes := by
  have hall : (upserts.filter fun u => u.id ∈ ids) = upserts :=
    List.filter_eq_self.2 fun u hu => decide_eq_true (h u hu)
  rw [part_batched, hall]

/-- **A batch outside the part** leaves the part alone. -/
theorem part_batched_of_notMem {upserts : List Record} {deletes ids : List Ulid}
    (hsaved : ∀ u ∈ upserts, u.id ∉ ids) (hdeleted : ∀ id ∈ deletes, id ∉ ids)
    (records : OrderedMap Ulid Record) :
    part (batched records upserts deletes) ids = part records ids := by
  have hnone : (upserts.filter fun u => u.id ∈ ids) = [] :=
    List.filter_eq_nil_iff.2 fun u hu => by simpa using hsaved u hu
  have hmerge : (part records ids).merge (keyed []) = part records ids := rfl
  rw [part_batched, hnone, batched_eq, hmerge]
  refine congrArg OrderedMap.mk (List.filter_eq_self.2 fun e he => ?_)
  have hid : e.1 ∈ ids := of_decide_eq_true (List.mem_filter.1 he).2
  exact decide_eq_true fun hdel => hdeleted e.1 hdel hid

/-- A batch leaves what it neither saves nor removes. -/
theorem get?_batched_of_notMem {upserts : List Record} {deletes : List Ulid} {id : Ulid}
    (hsaved : ∀ u ∈ upserts, u.id ≠ id) (hdeleted : id ∉ deletes)
    (records : OrderedMap Ulid Record) :
    (batched records upserts deletes).get? id = records.get? id := by
  have hpart : part (batched records upserts deletes) [id] = part records [id] :=
    part_batched_of_notMem (fun u hu hmem => hsaved u hu (List.mem_singleton.1 hmem))
      (fun id' hid' hmem => hdeleted (List.mem_singleton.1 hmem ▸ hid')) records
  rw [← get?_part (List.mem_singleton_self id), hpart, get?_part (List.mem_singleton_self id)]

/-- Where the records under the identifiers are those that pass a test, the part holds the
records that pass it. -/
theorem Consistent.values_part {records : OrderedMap Ulid Record} (h : Consistent records)
    {ids : List Ulid} {p : Record → Bool} (hp : ∀ r ∈ records.values, p r = true ↔ r.id ∈ ids) :
    (part records ids).values = records.values.filter p := by
  rw [part, OrderedMap.filter, OrderedMap.values, OrderedMap.values, List.filter_map]
  refine congrArg _ (List.filter_congr fun e he => ?_)
  have hmem : e.2 ∈ records.values := List.mem_map_of_mem he
  have hid : e.2.id = e.1 := h.own e.1 e.2 ((OrderedMap.get?_eq_some_iff h.nodup).2 he)
  rw [Bool.eq_iff_iff, decide_eq_true_eq, Function.comp_apply, hp e.2 hmem, hid]

end Store
end Inventory
