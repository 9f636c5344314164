/-
# Identifiers that collide

`reconcile`, where a reported record has the identifier of a stored one.

Records are matched by their keys and stored by their identifiers. A reported record
whose key is new keeps the identifier that it brings, and that may be taken: by
another new key, by a stored record of the scope that is saved or deleted in the same
batch, or by a record that the reconciliation is not about. Then something is lost:

| the identifier is taken by | lost is |
| --- | --- |
| another new key | the key whose record is saved first |
| a stored record of a reported key | one of the two keys |
| a stored record of another key, or a later copy | the new key |
| a record of another type or context | that record |

In every other case nothing is lost (`lossless_iff`). Reported records that are new
to the store and to each other never collide (`Inputs.apart`).
-/

import Inventory.Proofs.Reconcile.Result

namespace Inventory
namespace Reconcile

/-- The stored records `after` hold every reported key once, and the records of other
types and contexts as they were. -/
structure Lossless (scope : Scope) (before remote after : List Record) : Prop where
  held : ∀ key ∈ scope.keys remote, ∃! r, r ∈ after ∧ scope.key? r = some key
  others : ∀ r ∈ before, ¬ scope.Covers r → r ∈ after

variable {scope : Scope} {records : OrderedMap Ulid Record} {remote : List Record} {p : Plan}

namespace Planned

/-- **Where the targets are apart, nothing is lost.** -/
theorem lossless_of_apart (hp : Planned scope records.values remote p)
    (hkey : scope.keyField ∉ stampFields) (hs : Store.Consistent records)
    (ha : Apart scope records.values remote) :
    Lossless scope records.values remote (Store.batched records p.upserts p.deletes).values where
  held key hmem := by
    obtain ⟨u, hu, hsaves⟩ := exists_left_of_forall₂ (hp.saves hkey).flip hmem
    have hafter := ((hp.mem_after_iff hkey hs ha).2 hu).1
    refine ⟨u, ⟨hafter, hsaves.hasKey⟩, ?_⟩
    rintro u' ⟨hafter', hk'⟩
    exact hp.eq_of_mem_after hkey hs hafter' hafter hk' hsaves.hasKey
  others r hr hcovers := by
    have hnone : scope.key? r = none := if_neg hcovers
    rw [(hs.batched _ _).mem_values_iff, hp.get?_after hkey hs ha]
    refine ⟨?_, .inr ⟨fun hsaved => ?_, hs.mem_values_iff.1 hr⟩⟩
    · rw [hp.mem_deletes_iff hs hr, Bool.not_eq_false, Scope.keeps, hnone]
    · -- nothing is saved under the identifier of a record that is not covered
      obtain ⟨u, hu, hid⟩ := List.mem_map.1 hsaved
      obtain ⟨key, -, hsaves⟩ := exists_left_of_forall₂ (hp.saves hkey) hu
      rcases Scope.target?_eq_some hsaves.target with ⟨r', hr', hk, -, hid'⟩ | hnew
      · obtain rfl := hs.eq_of_id_eq hr hr' (hid'.trans hid).symm
        rw [hnone] at hk
        cases hk
      · exact hcovers (ha.unused key r hr (hid ▸ hnew)).1

/-- Where nothing is lost, every reported key is held under its target. -/
theorem exists_of_target? (hp : Planned scope records.values remote p)
    (hkey : scope.keyField ∉ stampFields) (hs : Store.Consistent records)
    (h : Lossless scope records.values remote (Store.batched records p.upserts p.deletes).values)
    {key : String} (hmem : key ∈ scope.keys remote) {id : Ulid}
    (htarget : scope.target? records.values remote key = some id) :
    ∃ r ∈ (Store.batched records p.upserts p.deletes).values,
      scope.key? r = some key ∧ r.id = id := by
  obtain ⟨r, ⟨hr, hk⟩, -⟩ := h.held key hmem
  have hr' := hp.target?_of_mem_after hkey hs hr hk
  exact ⟨r, hr, hk, Option.some.inj (hr'.symm.trans htarget)⟩

/-- Where nothing is lost, keys with one target are one key. -/
theorem target?_inj_of_lossless (hp : Planned scope records.values remote p)
    (hkey : scope.keyField ∉ stampFields) (hs : Store.Consistent records)
    (h : Lossless scope records.values remote (Store.batched records p.upserts p.deletes).values)
    {key key' : String} (hmem : key ∈ scope.keys remote) (hmem' : key' ∈ scope.keys remote)
    {id : Ulid} (htarget : scope.target? records.values remote key = some id)
    (htarget' : scope.target? records.values remote key' = some id) : key = key' := by
  obtain ⟨r, hr, hk, hid⟩ := hp.exists_of_target? hkey hs h hmem htarget
  obtain ⟨r', hr', hk', hid'⟩ := hp.exists_of_target? hkey hs h hmem' htarget'
  obtain rfl := (hs.batched _ _).eq_of_id_eq hr hr' (hid.trans hid'.symm)
  exact Option.some.inj (hk.symm.trans hk')

/-- **Where nothing is lost, the targets are apart.** -/
theorem apart_of_lossless (hp : Planned scope records.values remote p)
    (hkey : scope.keyField ∉ stampFields) (hs : Store.Consistent records)
    (h : Lossless scope records.values remote
      (Store.batched records p.upserts p.deletes).values) :
    Apart scope records.values remote where
  distinct key key' id hnew hnew' :=
    hp.target?_inj_of_lossless hkey hs h (Scope.mem_keys_of_newId? hnew)
      (Scope.mem_keys_of_newId? hnew') (Scope.target?_of_newId? hnew)
      (Scope.target?_of_newId? hnew')
  unused key r hr hnew := by
    have hmem := Scope.mem_keys_of_newId? hnew
    have htarget := Scope.target?_of_newId? hnew
    obtain ⟨u, hu, hk, hid⟩ := hp.exists_of_target? hkey hs h hmem htarget
    have hcovers : scope.Covers r := by
      by_contra hcovers
      obtain rfl := (hs.batched _ _).eq_of_id_eq hu (h.others r hr hcovers) hid
      exact hcovers (Scope.key?_eq_some_iff.1 hk).1
    refine ⟨hcovers, ?_⟩
    rw [Option.eq_none_iff_forall_ne_some]
    intro key' htext
    -- a record with a key keeps its place, as the new key is stored under its identifier
    have hk' := Scope.key?_eq_some_iff.2 ⟨hcovers, htext⟩
    have hdel := (Store.saved_or_kept ((hs.batched _ _).mem_values_iff.1 hu)).1
    rw [hid, hp.mem_deletes_iff hs hr, Bool.not_eq_false, Scope.keeps, hk'] at hdel
    obtain ⟨hmem', hfirst⟩ := of_decide_eq_true hdel
    have htarget' : scope.target? records.values remote key' = some r.id := by
      obtain ⟨r₀, h₀, hid₀⟩ := Option.map_eq_some_iff.1 hfirst
      rw [Scope.target?_of_first? h₀, hid₀]
    obtain rfl := hp.target?_inj_of_lossless hkey hs h hmem hmem' htarget htarget'
    rw [(Scope.newId?_eq_some hnew).1] at hfirst
    cases hfirst

end Planned

/-- **When nothing is lost.** A reconciliation that succeeds holds every reported key in
one record, and leaves the records of other types and contexts alone, exactly when the
identifiers that new keys bring are different and none of them is taken, but for stored
records of the scope that have no key. -/
theorem lossless_iff {σ : Type} [Watcher σ] {s s' : Store σ} {schema : Schema}
    {context keyField : String} {remote : List Record} {now : Timestamp} {report : SyncReport}
    (hs : Store.Consistent s.records)
    (hcontext : schema.declares Record.contextField = true)
    (hkey : keyField ∉ stampFields)
    (h : s.reconcile schema context keyField remote now = .ok (report, s')) :
    Lossless ⟨schema.name, context, keyField⟩ s.records.values remote s'.records.values
      ↔ Apart ⟨schema.name, context, keyField⟩ s.records.values remote := by
  obtain ⟨p, hp, -, hrecords⟩ := planned_of_reconcile_eq_ok hs hcontext h
  rw [hrecords]
  exact ⟨hp.apart_of_lossless hkey hs, hp.lossless_of_apart hkey hs⟩

/-- The machine without a name is reported with one, and the first copy of `web` with
another state. Both identifiers are taken, but by records that may give way. -/
def machinesNamed : List Record :=
  [machine 2 (.string "db") (.string "on"), machine 1 (.string "web") (.string "off")]

/-- A machine that is reported under a new name and the identifier of a stored one. -/
theorem lossless_iff_machines :
    ∃ report s', machinesBefore.reconcile machineSchema "east" "name" machinesNamed
        ⟨0, 0, by decide, by decide⟩ = .ok (report, s')
      ∧ (Lossless ⟨"machine", "east", "name"⟩ machinesBefore.records.values machinesNamed
          s'.records.values
        ↔ Apart ⟨"machine", "east", "name"⟩ machinesBefore.records.values machinesNamed) := by
  have hs : Store.Consistent machinesBefore.records := by
    rw [machinesBefore, Store.records_applyBatch]
    exact Store.Consistent.empty.batched _ _
  have hok : (machinesBefore.reconcile machineSchema "east" "name" machinesNamed
      ⟨0, 0, by decide, by decide⟩).isOk = true := by
    decide +kernel
  cases h : machinesBefore.reconcile machineSchema "east" "name" machinesNamed
      ⟨0, 0, by decide, by decide⟩ with
  | error e =>
    rw [h] at hok
    cases hok
  | ok result =>
    obtain ⟨report, s'⟩ := result
    exact ⟨report, s', rfl, lossless_iff hs (by decide +kernel) (by decide) h⟩

/-- One machine. -/
def machineStored : Store InvalidationCount :=
  (Store.new {}).applyBatch [machine 4 (.string "old") (.string "on")] []

/-- The same machine under a new name. -/
def machineRenamed : List Record := [machine 4 (.string "new") (.string "on")]

/-- The record is saved under its new name and then deleted, because no machine of the
old name is reported. -/
theorem not_lossless_renamed :
    ∃ report s', machineStored.reconcile machineSchema "east" "name" machineRenamed
        ⟨0, 0, by decide, by decide⟩ = .ok (report, s')
      ∧ ¬ Lossless ⟨"machine", "east", "name"⟩ machineStored.records.values machineRenamed
        s'.records.values := by
  have hkeys : (machineStored.reconcile machineSchema "east" "name" machineRenamed
      ⟨0, 0, by decide, by decide⟩).toOption.map (·.2.records.values.map Record.id)
        = some [] := by
    decide +kernel
  cases h : machineStored.reconcile machineSchema "east" "name" machineRenamed
      ⟨0, 0, by decide, by decide⟩ with
  | error e =>
    rw [h] at hkeys
    cases hkeys
  | ok result =>
    obtain ⟨report, s'⟩ := result
    rw [h] at hkeys
    have hempty : s'.records.values = [] := List.map_eq_nil_iff.1 (Option.some.inj hkeys)
    refine ⟨report, s', rfl, fun hlossless => ?_⟩
    have hnew : "new" ∈ Scope.keys ⟨"machine", "east", "name"⟩ machineRenamed := by
      decide +kernel
    obtain ⟨r, ⟨hr, -⟩, -⟩ := hlossless.held "new" hnew
    rw [hempty] at hr
    cases hr

end Reconcile
end Inventory
