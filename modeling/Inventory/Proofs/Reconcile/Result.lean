/-
# What a reconciliation leaves in the store

The store after `reconcile`.

The stored records afterwards are taken apart by their keys: those with a key are
the saved ones (`Planned.mem_after_iff`), those without are the records before in
their order (`Planned.frame_after`), and the identifiers are the kept ones in place
and then the new ones (`Planned.ids_after`).
-/

import Inventory.Proofs.Reconcile.Batch

namespace Inventory
namespace Reconcile

variable {scope : Scope} {records : OrderedMap Ulid Record} {remote : List Record} {p : Plan}

namespace Planned

/-- A record with a key was saved: one that keeps its place is the first of a reported
key, so another one is saved under its identifier. -/
theorem mem_upserts_of_mem_after (hp : Planned scope records.values remote p)
    (hkey : scope.keyField ∉ stampFields) (hs : Store.Consistent records) {r : Record}
    (hr : r ∈ (Store.batched records p.upserts p.deletes).values)
    (hsome : (scope.key? r).isSome) : r ∈ p.upserts := by
  rw [(hs.batched p.upserts p.deletes).mem_values_iff] at hr
  obtain ⟨hdel, ⟨hsaved, -⟩ | ⟨hunsaved, hget⟩⟩ := Store.saved_or_kept hr
  · exact hsaved
  · exfalso
    have hr := hs.mem_values_iff.2 hget
    obtain ⟨key, hk⟩ := Option.isSome_iff_exists.1 hsome
    rw [hp.mem_deletes_iff hs hr, Bool.not_eq_false, Scope.keeps, hk] at hdel
    obtain ⟨hmem, hfirst⟩ := of_decide_eq_true hdel
    rw [hp.map_id_upserts hkey] at hunsaved
    refine hunsaved (List.mem_filterMap.2 ⟨key, hmem, ?_⟩)
    obtain ⟨r₀, h₀, hid⟩ := Option.map_eq_some_iff.1 hfirst
    rw [Scope.target?_of_first? h₀, hid]

/-- **A stored record with a key** stands under the target of its key. -/
theorem target?_of_mem_after (hp : Planned scope records.values remote p)
    (hkey : scope.keyField ∉ stampFields) (hs : Store.Consistent records) {r : Record}
    (hr : r ∈ (Store.batched records p.upserts p.deletes).values) {key : String}
    (hk : scope.key? r = some key) :
    scope.target? records.values remote key = some r.id := by
  have hsaved := hp.mem_upserts_of_mem_after hkey hs hr (by rw [hk]; rfl)
  exact (hp.saves_of_key hkey hsaved hk).2.target

/-- No key is held twice, whatever the identifiers. -/
theorem eq_of_mem_after (hp : Planned scope records.values remote p)
    (hkey : scope.keyField ∉ stampFields) (hs : Store.Consistent records) {r r' : Record}
    (hr : r ∈ (Store.batched records p.upserts p.deletes).values)
    (hr' : r' ∈ (Store.batched records p.upserts p.deletes).values) {key : String}
    (hk : scope.key? r = some key) (hk' : scope.key? r' = some key) : r = r' := by
  have htarget := hp.target?_of_mem_after hkey hs hr hk
  have htarget' := hp.target?_of_mem_after hkey hs hr' hk'
  exact (hs.batched _ _).eq_of_id_eq hr hr' (Option.some.inj (htarget.symm.trans htarget'))

/-- **The records with a key are the saved ones**, where the targets are apart. -/
theorem mem_after_iff (hp : Planned scope records.values remote p)
    (hkey : scope.keyField ∉ stampFields) (hs : Store.Consistent records)
    (ha : Apart scope records.values remote) {r : Record} :
    r ∈ (Store.batched records p.upserts p.deletes).values ∧ (scope.key? r).isSome
      ↔ r ∈ p.upserts := by
  refine ⟨fun ⟨hr, hsome⟩ => hp.mem_upserts_of_mem_after hkey hs hr hsome, fun hr => ?_⟩
  obtain ⟨key, hmem, hsaves⟩ := exists_left_of_forall₂ (hp.saves hkey) hr
  rw [(hs.batched p.upserts p.deletes).mem_values_iff, hp.get?_after hkey hs ha]
  exact ⟨⟨hp.id_notMem_deletes hs ha hmem hsaves.target, .inl ⟨hr, rfl⟩⟩, by simp [hsaves.hasKey]⟩

/-- A new key brings the only targets that were not stored. -/
theorem target?_filter (hp : Planned scope records.values remote p) (hin : Inputs records remote)
    {key : String} (hmem : key ∈ scope.keys remote) :
    (scope.target? records.values remote key).filter
        (fun id => id ∉ records.keys ∧ id ∉ p.deletes)
      = scope.newId? records.values remote key := by
  have hs := hin.consistent
  have ha := hin.apart scope
  unfold Scope.newId?
  cases htarget : scope.target? records.values remote key with
  | none =>
    rw [Scope.target?, Option.map_eq_none_iff, Option.or_eq_none_iff] at htarget
    simp [htarget.1, htarget.2]
  | some id =>
    have hdel := hp.id_notMem_deletes hs ha hmem htarget
    rcases Scope.target?_eq_some htarget with ⟨r, hr, -, hfirst, hid⟩ | hnew
    · have hstored : id ∈ records.keys := by
        rw [← hid, ← hs.map_id_values]
        exact List.mem_map_of_mem hr
      simp [hfirst, hstored]
    · obtain ⟨hfirst, r, hr, -, hid⟩ := Scope.newId?_eq_some hnew
      have hunstored : id ∉ records.keys := by
        rw [← OrderedMap.get?_eq_none_iff, ← hid]
        exact hin.unknown r hr
      rw [Scope.target?, hfirst, Option.none_or] at htarget
      simp [hfirst, htarget, hunstored, hdel]

/-- **The identifiers afterwards:** kept ones in place, then the new ones. -/
theorem ids_after (hp : Planned scope records.values remote p)
    (hkey : scope.keyField ∉ stampFields) (hin : Inputs records remote) :
    (Store.batched records p.upserts p.deletes).values.map Record.id
      = (records.values.filter (scope.keeps records.values remote)).map Record.id
        ++ (scope.keys remote).filterMap (scope.newId? records.values remote) := by
  have hs := hin.consistent
  have ha := hin.apart scope
  have hkept : records.keys.filter (· ∉ p.deletes)
      = (records.values.filter (scope.keeps records.values remote)).map Record.id := by
    rw [← hs.map_id_values, List.filter_map]
    refine congrArg (List.map Record.id) (List.filter_congr fun r hr => ?_)
    have hdel := hp.mem_deletes_iff hs hr
    cases hkeeps : scope.keeps records.values remote r <;> simp [hdel, hkeeps]
  rw [(hs.batched _ _).map_id_values, Store.keys_batched (hp.nodup_upserts hkey hs ha), hkept,
    hp.map_id_upserts hkey, List.filter_filterMap]
  refine congrArg _ (List.filterMap_congr fun key hmem => ?_)
  exact hp.target?_filter hin hmem

/-- **A record without a key is found** exactly where it was. -/
theorem get?_after_of_unkeyed (hp : Planned scope records.values remote p)
    (hkey : scope.keyField ∉ stampFields) (hin : Inputs records remote) {id : Ulid} {r : Record}
    (hnone : scope.key? r = none) :
    (Store.batched records p.upserts p.deletes).get? id = some r ↔ records.get? id = some r := by
  have hs := hin.consistent
  have ha := hin.apart scope
  rw [hp.get?_after hkey hs ha]
  constructor
  · rintro ⟨-, ⟨hr, -⟩ | ⟨-, hget⟩⟩
    · have hsome := ((hp.mem_after_iff hkey hs ha).2 hr).2
      rw [hnone] at hsome
      cases hsome
    · exact hget
  · intro hget
    obtain rfl := hs.own id r hget
    have hr := hs.mem_values_iff.2 hget
    refine ⟨?_, .inr ⟨?_, hget⟩⟩
    · rw [hp.mem_deletes_iff hs hr, Bool.not_eq_false, Scope.keeps, hnone]
    · intro hsaved
      obtain ⟨u, hu, hid⟩ := List.mem_map.1 hsaved
      obtain ⟨key, -, hsaves⟩ := exists_left_of_forall₂ (hp.saves hkey) hu
      -- a saved record is the stored one of its key or a new one; neither has the id of this one
      rcases Scope.target?_eq_some hsaves.target with ⟨r', hr', hk, -, hid'⟩ | hnew
      · obtain rfl := hs.eq_of_id_eq hr hr' (hid'.trans hid).symm
        rw [hnone] at hk
        cases hk
      · obtain ⟨-, r', hr', -, hid'⟩ := Scope.newId?_eq_some hnew
        exact hin.id_ne hr hr' (hid'.trans hid).symm

/-- **The records without a key afterwards** are those before, in their order. -/
theorem frame_after (hp : Planned scope records.values remote p)
    (hkey : scope.keyField ∉ stampFields) (hin : Inputs records remote) :
    (Store.batched records p.upserts p.deletes).values.filter (scope.key? · = none)
      = records.values.filter (scope.key? · = none) := by
  have hs := hin.consistent
  have ha := hin.apart scope
  have hafter := hs.batched p.upserts p.deletes
  have hfilter (id : Ulid) :
      ((Store.batched records p.upserts p.deletes).get? id).filter (scope.key? · = none)
        = (records.get? id).filter (scope.key? · = none) := by
    ext r
    rw [Option.filter_eq_some_iff, Option.filter_eq_some_iff]
    refine and_congr_left fun hnone => ?_
    exact hp.get?_after_of_unkeyed hkey hin (of_decide_eq_true hnone)
  rw [OrderedMap.values_eq_filterMap hafter.nodup,
    OrderedMap.values_eq_filterMap hs.nodup, List.filter_filterMap,
    List.filter_filterMap, Store.keys_batched (hp.nodup_upserts hkey hs ha), List.filterMap_append,
    List.filterMap_filter]
  simp only [hfilter]
  -- a saved record has a key, so none of the new places is among those without one
  have hnew : ((p.upserts.map Record.id).filter fun id =>
      id ∉ records.keys ∧ id ∉ p.deletes).filterMap
        (fun id => (records.get? id).filter (scope.key? · = none)) = [] := by
    refine List.filterMap_eq_nil_iff.2 fun id hid => ?_
    obtain ⟨hid, -⟩ := of_decide_eq_true (List.mem_filter.1 hid).2
    rw [OrderedMap.get?_eq_none_iff.2 hid, Option.filter_none]
  rw [hnew, List.append_nil]
  refine List.filterMap_congr fun id _ => ?_
  by_cases hdel : id ∈ p.deletes
  · -- a deleted record has a key
    have hgone : (Store.batched records p.upserts p.deletes).get? id = none := by
      rw [Option.eq_none_iff_forall_ne_some]
      exact fun r hr => ((hp.get?_after hkey hs ha).1 hr).1 hdel
    rw [← hfilter, hgone]
    simp
  · simp [hdel]

/-- **A plan brings the store in line** with the reported records. -/
theorem reconciled (hp : Planned scope records.values remote p)
    (hkey : scope.keyField ∉ stampFields) (hin : Inputs records remote) :
    Reconciled scope records.values remote
      (Store.batched records p.upserts p.deletes).values where
  one_per_key := by
    have hs := hin.consistent
    have ha := hin.apart scope
    have hafter := hs.batched p.upserts p.deletes
    have hperm : ((Store.batched records p.upserts p.deletes).values.filter
        fun r => (scope.key? r).isSome).Perm p.upserts := by
      refine (List.perm_ext_iff_of_nodup ?_ ?_).2 fun r => ?_
      · exact (hafter.nodup_map_id.of_map _).filter _
      · exact (hp.nodup_upserts hkey hs ha).of_map _
      · rw [List.mem_filter]
        exact hp.mem_after_iff hkey hs ha
    have h := hperm.filterMap scope.key?
    rw [hp.filterMap_key?_upserts hkey, List.filterMap_filter] at h
    refine .trans (.of_eq (List.filterMap_congr fun r _ => ?_)) h
    cases scope.key? r <;> rfl
  agrees r' hr' key hk := by
    have hsaved := hp.mem_upserts_of_mem_after hkey hin.consistent hr' (by rw [hk]; rfl)
    exact (hp.saves_of_key hkey hsaved hk).2.agrees
  ids := hp.ids_after hkey hin
  frame := hp.frame_after hkey hin

end Planned

/-- **Reconciliation.** A reconciliation that succeeds leaves one record for every
reported key: the values of the last reported record, under the first stored
identifier and in its place, or under the reported identifier at the end. Every
other record stays as it was. The order in which the plan lists its deletions
does not matter. -/
theorem reconciled_of_reconcile_eq_ok {σ : Type} [Watcher σ] {s s' : Store σ} {schema : Schema}
    {context keyField : String} {remote : List Record} {now : Timestamp} {report : SyncReport}
    (hs : Store.Consistent s.records)
    (hcontext : schema.declares Record.contextField = true)
    (hkey : keyField ∉ stampFields)
    (hdistinct : (remote.map Record.id).Nodup)
    (hunknown : ∀ r ∈ remote, s.get? r.id = none)
    (h : s.reconcile schema context keyField remote now = .ok (report, s')) :
    Reconciled ⟨schema.name, context, keyField⟩ s.records.values remote s'.records.values
      ∧ Store.Consistent s'.records
      ∧ ∃ p, plan schema context keyField (s.listInContext schema.name context) remote now = .ok p
        ∧ report = p.report
        ∧ ∀ deletes, deletes.Perm p.deletes → s.applyBatch p.upserts deletes = s' := by
  rw [Store.reconcile_eq] at h
  cases hplan : plan schema context keyField (s.listInContext schema.name context) remote now with
  | error e => simp [hplan] at h
  | ok p =>
    rw [hplan] at h
    obtain ⟨rfl, rfl⟩ := Prod.mk.inj (Except.ok.inj h)
    let c : Call := ⟨schema, context, keyField, remote, now⟩
    have hp : Planned ⟨schema.name, context, keyField⟩ s.records.values remote p :=
      Call.planned_of_plan_eq_ok (c := c) hs hcontext hplan
    rw [Store.records_applyBatch]
    refine ⟨hp.reconciled hkey ⟨hs, hdistinct, hunknown⟩, hs.batched _ _, p, rfl, rfl, ?_⟩
    exact fun deletes hperm => Store.applyBatch_perm hperm s p.upserts

/-- Machines with a name, a state and the stamps. -/
def machineSchema : Schema where
  name := "machine"
  label := "Machine"
  labelField := "name"
  fields := [
    .string "cloud_context" "Context",
    .string "name" "Name",
    .string "state" "State",
    .timestamp "created" "Created",
    .timestamp "changed" "Changed",
    .timestamp "refreshed" "Refreshed"]

/-- A machine in the cloud context `east`. -/
def machine (id : BitVec 128) (name state : FieldValue) : Record :=
  let r := Record.new ⟨id⟩ machineSchema
  let slots := (r.slots.insert "cloud_context" (.string "east")).insert "name" name
  { r with slots := slots.insert "state" state }

/-- Two copies of `web`, a machine without a name, and one that is gone. -/
def machinesBefore : Store InvalidationCount :=
  (Store.new {}).applyBatch [machine 1 (.string "web") (.string "on"), machine 2 .absent .absent,
    machine 3 (.string "web") (.string "on"), machine 4 (.string "old") (.string "on")] []

theorem consistent_machinesBefore : Store.Consistent machinesBefore.records := by
  rw [machinesBefore, Store.records_applyBatch]
  exact Store.Consistent.empty.batched _ _

/-- A machine that is new, and two reports of `web`. -/
def machinesReported : List Record :=
  [machine 11 (.string "new") (.string "on"), machine 12 (.string "web") (.string "on"),
    machine 13 (.string "web") (.string "off")]

/-- Of the copies the first keeps its place, and the last report counts. -/
theorem reconciled_machines :
    ∃ report s', machinesBefore.reconcile machineSchema "east" "name" machinesReported
        ⟨0, 0, by decide, by decide⟩ = .ok (report, s')
      ∧ Reconciled ⟨"machine", "east", "name"⟩ machinesBefore.records.values machinesReported
        s'.records.values
      ∧ s'.records.keys = [⟨1⟩, ⟨2⟩, ⟨11⟩] := by
  have hs : Store.Consistent machinesBefore.records := by
    rw [machinesBefore, Store.records_applyBatch]
    exact Store.Consistent.empty.batched _ _
  have hkeys : (machinesBefore.reconcile machineSchema "east" "name" machinesReported
      ⟨0, 0, by decide, by decide⟩).toOption.map (·.2.records.keys)
        = some [⟨1⟩, ⟨2⟩, ⟨11⟩] := by
    decide +kernel
  cases h : machinesBefore.reconcile machineSchema "east" "name" machinesReported
      ⟨0, 0, by decide, by decide⟩ with
  | error e =>
    rw [h] at hkeys
    cases hkeys
  | ok result =>
    obtain ⟨report, s'⟩ := result
    rw [h] at hkeys
    refine ⟨report, s', rfl, ?_, Option.some.inj hkeys⟩
    exact (reconciled_of_reconcile_eq_ok hs (by decide +kernel) (by decide) (by decide +kernel)
      (by decide +kernel) h).1

end Reconcile
end Inventory
