/-
# The batch of a reconciliation

The batch that `reconcile` hands to `apply_batch`.

The plan is applied as one batch. Every identifier it saves is the target of a
reported key (`Scope.target?`). Where the targets are kept apart (`Apart`), no
identifier is the target of two keys or of a key and a deletion, and so the three
parts of the batch do not meet (`Planned.get?_after`):

| identifier | afterwards |
| --- | --- |
| deleted | gone |
| target of a key | the record saved for that key |
| neither | as before |
-/

import Inventory.Proofs.Reconcile.Plan

namespace Inventory
namespace Reconcile

variable {scope : Scope} {records : OrderedMap Ulid Record} {remote : List Record} {p : Plan}

/-- The identifier under which the record of a key is stored. -/
def Scope.target? (scope : Scope) (before remote : List Record) (key : String) : Option Ulid :=
  ((scope.first? before key).or (scope.last? remote key)).map Record.id

/-- What keeps the targets apart: no two new keys bring one identifier, and a stored
record under an identifier that a new key brings is of the scope and has no key. -/
structure Apart (scope : Scope) (before remote : List Record) : Prop where
  distinct : ∀ key key' id, scope.newId? before remote key = some id →
    scope.newId? before remote key' = some id → key = key'
  unused : ∀ key, ∀ r ∈ before, scope.newId? before remote key = some r.id →
    scope.Covers r ∧ r.text? scope.keyField = none

/-- Where a batch comes from: a store whose records stand under their own
identifiers, and reported records that are new to it and to each other. -/
structure Inputs (records : OrderedMap Ulid Record) (remote : List Record) : Prop where
  consistent : Store.Consistent records
  distinct : (remote.map Record.id).Nodup
  unknown : ∀ r ∈ remote, records.get? r.id = none

/-- A new key is not stored and brings the identifier of a reported record. -/
theorem Scope.newId?_eq_some {before : List Record} {key : String} {id : Ulid}
    (h : scope.newId? before remote key = some id) :
    scope.first? before key = none
      ∧ ∃ r ∈ remote, scope.key? (scope.placed r) = some key ∧ r.id = id := by
  unfold newId? at h
  split at h
  · cases h
  · rename_i hfirst
    obtain ⟨r, hr, hid⟩ := Option.map_eq_some_iff.1 h
    obtain ⟨hmem, hkey⟩ := mem_of_first? hr
    obtain ⟨r₀, hr₀, rfl⟩ := List.mem_map.1 (List.mem_reverse.1 hmem)
    exact ⟨by simpa using hfirst, r₀, hr₀, hkey, hid⟩

/-- The reported keys are those of reported records, once these are moved to the context. -/
theorem Scope.mem_keys_iff {key : String} :
    key ∈ scope.keys remote ↔ ∃ r ∈ remote, scope.key? (scope.placed r) = some key := by
  rw [keys, List.mem_eraseDups, List.filterMap_map, List.mem_filterMap]
  rfl

/-- A key that is new is reported. -/
theorem Scope.mem_keys_of_newId? {before : List Record} {key : String} {id : Ulid}
    (h : scope.newId? before remote key = some id) : key ∈ scope.keys remote := by
  obtain ⟨-, r, hr, hk, -⟩ := newId?_eq_some h
  exact mem_keys_iff.2 ⟨r, hr, hk⟩

/-- The identifier that a new key brings is its target. -/
theorem Scope.target?_of_newId? {before : List Record} {key : String} {id : Ulid}
    (h : scope.newId? before remote key = some id) :
    scope.target? before remote key = some id := by
  have hfirst := (newId?_eq_some h).1
  rw [newId?, hfirst] at h
  rw [target?, hfirst]
  exact h

/-- The identifier of the first stored record of a key is its target, whatever is reported. -/
theorem Scope.target?_of_first? {before : List Record} {key : String} {r : Record}
    (h : scope.first? before key = some r) : scope.target? before remote key = some r.id := by
  rw [target?, h, Option.some_or, Option.map_some]

/-- A target is the identifier of the first stored record of the key, or a new one. -/
theorem Scope.target?_eq_some {before : List Record} {key : String} {id : Ulid}
    (h : scope.target? before remote key = some id) :
    (∃ r ∈ before, scope.key? r = some key ∧ scope.first? before key = some r ∧ r.id = id)
      ∨ scope.newId? before remote key = some id := by
  unfold target? at h
  cases hfirst : scope.first? before key with
  | some r =>
    obtain ⟨hr, hkey⟩ := mem_of_first? hfirst
    rw [hfirst] at h
    exact .inl ⟨r, hr, hkey, rfl, Option.some.inj h⟩
  | none =>
    rw [hfirst, Option.none_or] at h
    exact .inr (by rw [newId?, hfirst]; exact h)

/-- A reported record is not among the stored ones. -/
theorem Inputs.id_ne (h : Inputs records remote) {r r' : Record} (hr : r ∈ records.values)
    (hr' : r' ∈ remote) : r.id ≠ r'.id :=
  h.consistent.id_ne hr (h.unknown r' hr')

/-- Records that are new to the store and to each other keep the targets apart. -/
theorem Inputs.apart (h : Inputs records remote) (scope : Scope) :
    Apart scope records.values remote where
  distinct key key' id hkey hkey' := by
    obtain ⟨-, r, hr, hk, hid⟩ := Scope.newId?_eq_some hkey
    obtain ⟨-, r', hr', hk', hid'⟩ := Scope.newId?_eq_some hkey'
    obtain rfl := List.inj_on_of_nodup_map h.distinct hr hr' (hid.trans hid'.symm)
    exact Option.some.inj (hk.symm.trans hk')
  unused key r hr hkey := by
    obtain ⟨-, r', hr', -, hid⟩ := Scope.newId?_eq_some hkey
    exact absurd hid.symm (h.id_ne hr hr')

/-- No stored record with a key stands under an identifier that a new key brings. -/
theorem Apart.newId?_ne (h : Apart scope records.values remote) {key key' : String} {r : Record}
    (hr : r ∈ records.values) (hkey : scope.key? r = some key) :
    scope.newId? records.values remote key' ≠ some r.id := by
  intro hnew
  have htext := (Scope.key?_eq_some_iff.1 hkey).2
  rw [(h.unused key' r hr hnew).2] at htext
  cases htext

/-- **No identifier is the target of two keys.** -/
theorem Apart.target?_inj (h : Apart scope records.values remote)
    (hs : Store.Consistent records) {key key' : String} {id : Ulid}
    (hkey : scope.target? records.values remote key = some id)
    (hkey' : scope.target? records.values remote key' = some id) : key = key' := by
  rcases Scope.target?_eq_some hkey with ⟨r, hr, hk, -, rfl⟩ | hnew <;>
    rcases Scope.target?_eq_some hkey' with ⟨r', hr', hk', -, hid'⟩ | hnew'
  · obtain rfl := hs.eq_of_id_eq hr hr' hid'.symm
    exact Option.some.inj (hk.symm.trans hk')
  · exact absurd hnew' (h.newId?_ne hr hk)
  · rw [← hid'] at hnew
    exact absurd hnew (h.newId?_ne hr' hk')
  · exact h.distinct key key' id hnew hnew'

/-- Whether a record is the one that is saved for a key. -/
structure Saves (scope : Scope) (before remote : List Record) (key : String) (u : Record) :
    Prop where
  hasKey : scope.key? u = some key
  target : scope.target? before remote key = some u.id
  agrees : ∃ r, scope.last? remote key = some r ∧ Restamped u r
    ∧ u.id = ((scope.first? before key).map Record.id).getD r.id

namespace Planned

/-- **For every reported key, in order, one record is saved.** -/
theorem saves (hp : Planned scope records.values remote p)
    (hkey : scope.keyField ∉ stampFields) :
    List.Forall₂ (Saves scope records.values remote) (scope.keys remote) p.upserts := by
  refine hp.upserts.imp fun key u hu => ?_
  obtain ⟨r, hr, hstamped, hid⟩ := hu
  refine ⟨(hstamped.key?_eq hkey).trans (Scope.mem_of_first? hr).2, ?_, r, hr, hstamped, hid⟩
  rw [Scope.target?, hr, hid]
  cases scope.first? records.values key <;> rfl

/-- A saved record with a key is the one that is saved for it. -/
theorem saves_of_key (hp : Planned scope records.values remote p)
    (hkey : scope.keyField ∉ stampFields) {u : Record} (hu : u ∈ p.upserts) {key : String}
    (hk : scope.key? u = some key) :
    key ∈ scope.keys remote ∧ Saves scope records.values remote key u := by
  obtain ⟨key', hmem, hsaves⟩ := exists_left_of_forall₂ (hp.saves hkey) hu
  obtain rfl := Option.some.inj (hk.symm.trans hsaves.hasKey)
  exact ⟨hmem, hsaves⟩

/-- The saved records have the identifiers that their keys are to have. -/
theorem map_id_upserts (hp : Planned scope records.values remote p)
    (hkey : scope.keyField ∉ stampFields) :
    p.upserts.map Record.id
      = (scope.keys remote).filterMap (scope.target? records.values remote) :=
  (filterMap_eq_map_of_forall₂ ((hp.saves hkey).imp fun _ _ h => h.target)).symm

/-- The saved records have the reported keys, in order. -/
theorem filterMap_key?_upserts (hp : Planned scope records.values remote p)
    (hkey : scope.keyField ∉ stampFields) :
    p.upserts.filterMap scope.key? = scope.keys remote := by
  calc p.upserts.filterMap scope.key?
      = (scope.keys remote).map id :=
        filterMap_eq_map_of_forall₂ ((hp.saves hkey).imp fun _ _ h => h.hasKey).flip
    _ = scope.keys remote := List.map_id _

/-- Each record is saved once. -/
theorem nodup_upserts (hp : Planned scope records.values remote p)
    (hkey : scope.keyField ∉ stampFields) (hs : Store.Consistent records)
    (ha : Apart scope records.values remote) : (p.upserts.map Record.id).Nodup := by
  rw [hp.map_id_upserts hkey]
  refine List.Nodup.filterMap (fun key key' id h h' => ?_) (OrderedMap.nodup_eraseDups _)
  exact ha.target?_inj hs h h'

/-- A stored record is deleted when it does not keep its place. -/
theorem mem_deletes_iff (hp : Planned scope records.values remote p)
    (hs : Store.Consistent records) {r : Record} (hr : r ∈ records.values) :
    r.id ∈ p.deletes ↔ scope.keeps records.values remote r = false := by
  rw [hp.deletes]
  constructor
  · rintro ⟨r', hr', hid, hkeeps⟩
    rwa [hs.eq_of_id_eq hr hr' hid.symm]
  · exact fun hkeeps => ⟨r, hr, rfl, hkeeps⟩

/-- **No saved record is deleted.** -/
theorem id_notMem_deletes (hp : Planned scope records.values remote p)
    (hs : Store.Consistent records) (ha : Apart scope records.values remote) {key : String}
    {id : Ulid} (hkey : key ∈ scope.keys remote)
    (htarget : scope.target? records.values remote key = some id) : id ∉ p.deletes := by
  rcases Scope.target?_eq_some htarget with ⟨r, hr, hk, hfirst, rfl⟩ | hnew
  · rw [hp.mem_deletes_iff hs hr]
    intro hkeeps
    obtain ⟨key', hk', hout⟩ := Scope.keeps_eq_false_iff.1 hkeeps
    obtain rfl := Option.some.inj (hk.symm.trans hk')
    rcases hout with hout | hout
    · exact hout hkey
    · exact hout (by rw [hfirst, Option.map_some])
  · intro hdel
    obtain ⟨r, hr, rfl, hkeeps⟩ := (hp.deletes _).1 hdel
    obtain ⟨key', hk', -⟩ := Scope.keeps_eq_false_iff.1 hkeeps
    exact ha.newId?_ne hr hk' hnew

/-- Where the targets are apart, everything that was saved is stored. -/
theorem get?_after (hp : Planned scope records.values remote p)
    (hkey : scope.keyField ∉ stampFields) (hs : Store.Consistent records)
    (ha : Apart scope records.values remote) {id : Ulid} {r : Record} :
    (Store.batched records p.upserts p.deletes).get? id = some r ↔
      id ∉ p.deletes ∧ (r ∈ p.upserts ∧ r.id = id
        ∨ id ∉ p.upserts.map Record.id ∧ records.get? id = some r) :=
  Store.get?_batched_eq_some_iff (hp.nodup_upserts hkey hs ha)

end Planned
end Reconcile
end Inventory
