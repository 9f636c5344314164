/-
# Resource types without a cloud context

`reconcile`, where the schema has no `cloud_context`.

A reconciliation reads the stored records of its cloud context. Where the schema declares
no cloud context, records have none, and so it reads nothing: every reported key counts
as new, and nothing is updated or deleted.

| a reported key | with a cloud context | without one |
| --- | --- | --- |
| is new | is inserted | is inserted |
| is stored | is replaced in place | is inserted once more |

So every call adds one record for each key that it reports (`keyTexts_list_of_history`),
and a key is held by one record only as long as one call has reported it
(`held_once_iff`).
-/

import Inventory.Proofs.Reconcile.Interleaving

namespace Inventory
namespace Reconcile

variable {schema : Schema} {keyField : String} {remote : List Record} {p : Plan}

/-- The key texts of records, in their order. -/
def keyTexts (keyField : String) (records : List Record) : List String :=
  records.filterMap fun r => r.text? keyField

/-- The keys of records one behind the other are those of both. -/
theorem keyTexts_append (keyField : String) (records records' : List Record) :
    keyTexts keyField (records ++ records')
      = keyTexts keyField records ++ keyTexts keyField records' :=
  List.filterMap_append

/-! ### One call -/

/-- A plan that stores each reported key as a new one. -/
structure Adds (keyField : String) (remote : List Record) (p : Plan) : Prop where
  upserts : List.Forall₂ (fun key u => ∃ r, firstWith keyField remote.reverse key = some r
    ∧ Restamped u r ∧ u.id = r.id) (keyTexts keyField remote).eraseDups p.upserts
  deletes : p.deletes = []

/-- **A plan that reads nothing** stores each reported key as a new one. -/
theorem adds_of_plan_eq_ok (hcontext : schema.declares Record.contextField = false)
    {context : String} {now : Timestamp} (h : plan schema context keyField [] remote now = .ok p) :
    Adds keyField remote p := by
  obtain ⟨held, incoming, settled, hheld, hincoming, hsettled, hupserts, hdeletes⟩ := plan_eq_ok h
  obtain rfl : {} = held := Except.ok.inj hheld
  have hindex := ReportedIndex.holds_of_foldlM (places_of_not_declares hcontext context) hincoming
  have hkeys : incoming.byKey.keys = (keyTexts keyField remote).eraseDups := by
    rw [hindex.keys, List.map_id, keyTexts]
  have hnodup : incoming.byKey.keys.Nodup := hkeys ▸ OrderedMap.nodup_eraseDups _
  have hentries : ∀ e ∈ incoming.byKey.entries,
      firstWith keyField remote.reverse e.1 = some e.2 := by
    intro e he
    have hget := (OrderedMap.get?_eq_some_iff hnodup).2 he
    rwa [hindex.last, List.map_id] at hget
  refine ⟨?_, hdeletes⟩
  rw [← hkeys, OrderedMap.keys, hupserts, List.forall₂_map_left_iff, List.forall₂_map_right_iff]
  refine ((List.forall₂_and_left _ _).2 ⟨hentries, mapM_eq_ok_iff.1 hsettled⟩).imp ?_
  rintro ⟨key, r⟩ ⟨u, o⟩ ⟨hr, hsettle⟩
  exact ⟨r, hr, fresh_eq_ok hsettle⟩

namespace Adds

/-- A saved record is a reported one with other stamps. -/
theorem exists_reported (h : Adds keyField remote p) {u : Record} (hu : u ∈ p.upserts) :
    ∃ r ∈ remote, Restamped u r ∧ u.id = r.id := by
  obtain ⟨key, -, r, hr, hstamped, hid⟩ := exists_left_of_forall₂ h.upserts hu
  exact ⟨r, List.mem_reverse.1 (mem_of_firstWith hr).1, hstamped, hid⟩

/-- Each reported key is saved once. -/
theorem keyTexts_upserts (h : Adds keyField remote p) (hkey : keyField ∉ stampFields) :
    keyTexts keyField p.upserts = (keyTexts keyField remote).eraseDups := by
  have hone : List.Forall₂ (fun u key => u.text? keyField = some (id key)) p.upserts
      (keyTexts keyField remote).eraseDups := by
    refine h.upserts.flip.imp fun u key ⟨r, hr, hstamped, _⟩ => ?_
    exact (hstamped.text?_eq hkey).trans (mem_of_firstWith hr).2
  rw [keyTexts, filterMap_eq_map_of_forall₂ hone, List.map_id]

/-- Reported records with identifiers of their own are saved under different ones. -/
theorem nodup_upserts (h : Adds keyField remote p) (hdistinct : (remote.map Record.id).Nodup) :
    (p.upserts.map Record.id).Nodup := by
  have hids : (keyTexts keyField remote).eraseDups.filterMap
      (fun key => (firstWith keyField remote.reverse key).map Record.id)
        = p.upserts.map Record.id := by
    refine filterMap_eq_map_of_forall₂ (h.upserts.imp fun key u ⟨r, hr, _, hid⟩ => ?_)
    rw [hr, Option.map_some, hid]
  rw [← hids]
  refine List.Nodup.filterMap (fun key key' id hid hid' => ?_) (OrderedMap.nodup_eraseDups _)
  obtain ⟨r, hr, rfl⟩ := Option.map_eq_some_iff.1 hid
  obtain ⟨r', hr', hsame⟩ := Option.map_eq_some_iff.1 hid'
  obtain ⟨hmem, htext⟩ := mem_of_firstWith hr
  obtain ⟨hmem', htext'⟩ := mem_of_firstWith hr'
  obtain rfl := List.inj_on_of_nodup_map hdistinct (List.mem_reverse.1 hmem')
    (List.mem_reverse.1 hmem) hsame
  exact Option.some.inj (htext.symm.trans htext')

end Adds

/-! ### A sequence of calls -/

variable {σ : Type} [Watcher σ] {calls : List Call} {c : Call} {s : Store σ}

omit [Watcher σ] in
/-- A record without a slot for the cloud context is in none. -/
theorem listInContext_eq_nil {entityType context : String}
    (h : ∀ r ∈ s.list entityType, r.slots.get? Record.contextField = none) :
    s.listInContext entityType context = [] := by
  refine List.filter_eq_nil_iff.2 fun r hr => ?_
  simp [Record.cloudContext?, Record.get, Record.value, h r hr]

/-- The stores that a sequence of successful calls for one schema and key field leads to from
an empty one. Reported records are built on the schema and new to the store and to each
other. -/
inductive CallHistory (schema : Schema) (keyField : String) : List Call → Store σ → Prop
  | start (watcher : σ) : CallHistory schema keyField [] (.new watcher)
  | call {calls : List Call} {s : Store σ} {c : Call} {report : SyncReport}
      (h : CallHistory schema keyField calls s) (schema_eq : c.schema = schema)
      (keyField_eq : c.keyField = keyField) (built : ∀ r ∈ c.remote, r.BuiltOn schema)
      (distinct : (c.remote.map Record.id).Nodup) (unknown : ∀ r ∈ c.remote, s.get? r.id = none)
      (ok : (c.alone s).1 = .ok report) : CallHistory schema keyField (calls ++ [c]) (c.alone s).2

/-- What is known of the store after some calls: every stored record is a built one with
other stamps, and the key texts are those that were reported, call after call. -/
structure Piled (schema : Schema) (keyField : String) (calls : List Call) (s : Store σ) :
    Prop where
  built : ∀ u ∈ s.records.values, ∃ r, r.BuiltOn schema ∧ Restamped u r
  texts : keyTexts keyField s.records.values
    = calls.flatMap fun c => (keyTexts keyField c.remote).eraseDups

namespace Piled

omit [Watcher σ] in
/-- All that was stored is of this type. -/
theorem list_eq (h : Piled schema keyField calls s) : s.list schema.name = s.records.values := by
  refine List.filter_eq_self.2 fun u hu => decide_eq_true ?_
  obtain ⟨r, hr, hstamped⟩ := h.built u hu
  rw [Record.entityType, hstamped.schema, hr.schema_eq]

omit [Watcher σ] in
/-- **No stored record is in a cloud context.** -/
theorem listInContext_eq (h : Piled schema keyField calls s)
    (hcontext : schema.declares Record.contextField = false) (entityType context : String) :
    s.listInContext entityType context = [] := by
  refine listInContext_eq_nil fun u hu => ?_
  obtain ⟨r, hr, hstamped⟩ := h.built u (List.mem_filter.1 hu).1
  exact (hstamped.slots _ (by decide)).trans (hr.get?_eq_none hcontext)

/-- **Step:** a call puts one record for each key that it reports behind the others. -/
theorem step (h : Piled schema keyField calls s)
    (hcontext : schema.declares Record.contextField = false) (hkey : keyField ∉ stampFields)
    (hschema : c.schema = schema) (hkeyField : c.keyField = keyField)
    (built : ∀ r ∈ c.remote, r.BuiltOn schema) (distinct : (c.remote.map Record.id).Nodup)
    (unknown : ∀ r ∈ c.remote, s.get? r.id = none) {report : SyncReport}
    (ok : (c.alone s).1 = .ok report) : Piled schema keyField (calls ++ [c]) (c.alone s).2 := by
  subst hschema hkeyField
  cases hplan : c.plan s with
  | error e =>
    rw [Call.alone_of_plan_eq_error hplan] at ok
    cases ok
  | ok p =>
    have hadds : Adds c.keyField c.remote p := by
      rw [Call.plan, h.listInContext_eq hcontext] at hplan
      exact adds_of_plan_eq_ok hcontext hplan
    -- the stored records do not show, so what is saved has the ids that the report brings
    have hnew : ∀ u ∈ p.upserts, s.records.get? u.id = none := by
      intro u hu
      obtain ⟨r, hr, -, hid⟩ := hadds.exists_reported hu
      exact hid ▸ unknown r hr
    have hvalues : (c.alone s).2.records.values = s.records.values ++ p.upserts := by
      rw [Call.alone_of_plan_eq_ok hplan, Store.records_applyBatch, hadds.deletes,
        Store.values_batched_of_new (hadds.nodup_upserts distinct) hnew]
    constructor
    case built =>
      intro u hu
      rw [hvalues, List.mem_append] at hu
      rcases hu with hu | hu
      · exact h.built u hu
      · obtain ⟨r, hr, hstamped, -⟩ := hadds.exists_reported hu
        exact ⟨r, built r hr, hstamped⟩
    case texts =>
      rw [hvalues, keyTexts_append, h.texts, hadds.keyTexts_upserts hkey, List.flatMap_append,
        List.flatMap_singleton]

end Piled

/-- **Run:** after a sequence of calls. -/
theorem piled_of_history (hcontext : schema.declares Record.contextField = false)
    (hkey : keyField ∉ stampFields) (h : CallHistory schema keyField calls s) :
    Piled schema keyField calls s := by
  induction h with
  | start watcher => exact ⟨nofun, rfl⟩
  | call _ hschema hkeyField built distinct unknown ok ih =>
    exact ih.step hcontext hkey hschema hkeyField built distinct unknown ok

/-- **What a sequence of calls stores:** for every call, in order, one record for each key
that it reports. -/
theorem keyTexts_list_of_history (hcontext : schema.declares Record.contextField = false)
    (hkey : keyField ∉ stampFields) (h : CallHistory schema keyField calls s) :
    keyTexts keyField (s.list schema.name)
      = calls.flatMap fun c => (keyTexts keyField c.remote).eraseDups := by
  have hpiled := piled_of_history hcontext hkey h
  rw [hpiled.list_eq, hpiled.texts]

/-- **When a key is held once.** After a sequence of calls, a key that the last one reported
is the key text of exactly one stored record of the entity type as long as no earlier call
reported it. -/
theorem held_once_iff (hcontext : schema.declares Record.contextField = false)
    (hkey : keyField ∉ stampFields) (h : CallHistory schema keyField (calls ++ [c]) s)
    {key : String} (hreported : key ∈ keyTexts keyField c.remote) :
    (keyTexts keyField (s.list schema.name)).count key = 1
      ↔ ∀ c' ∈ calls, key ∉ keyTexts keyField c'.remote := by
  have hlast : (keyTexts keyField c.remote).eraseDups.count key = 1 :=
    List.count_eq_one_of_mem (OrderedMap.nodup_eraseDups _) (List.mem_eraseDups.2 hreported)
  rw [keyTexts_list_of_history hcontext hkey h, List.flatMap_append, List.flatMap_singleton,
    List.count_append, hlast, Nat.add_eq_right, List.count_eq_zero]
  simp [List.mem_flatMap]

/-- Regions, which belong to no cloud context. -/
def regionSchema : Schema where
  name := "region"
  label := "Region"
  labelField := "name"
  fields := [
    .string "name" "Name",
    .timestamp "created" "Created",
    .timestamp "changed" "Changed",
    .timestamp "refreshed" "Refreshed"]

/-- A region. -/
def region (id : BitVec 128) (name : String) : Record where
  id := ⟨id⟩
  schema := regionSchema
  slots := .ofList [("name", .string name), ("created", .absent), ("changed", .absent),
    ("refreshed", .absent)]

theorem builtOn_region (id : BitVec 128) (name : String) :
    (region id name).BuiltOn regionSchema := by
  have hset : (Record.new ⟨id⟩ regionSchema).set "name" (.string name) = .ok (region id name) := rfl
  exact .set (.new ⟨id⟩) (fun _ h => by cases h) hset

/-- A call that reports one region. -/
def regionCall (id : BitVec 128) (name : String) : Call where
  schema := regionSchema
  context := "east"
  keyField := "name"
  remote := [region id name]
  now := .epoch

/-- The store after two calls that report one region each. -/
def regionsAfter (name name' : String) : Store InvalidationCount :=
  ((regionCall 2 name').alone ((regionCall 1 name).alone (.new {})).2).2

/-- Two runs, each with a region under a new identifier, are a history. -/
theorem history_regions (name name' : String)
    (hfirst : ((regionCall 1 name).alone (Store.new {} : Store InvalidationCount)).1.isOk = true)
    (hunknown : ((regionCall 1 name).alone (Store.new {} : Store InvalidationCount)).2.get? ⟨2⟩
      = none)
    (hsecond : ((regionCall 2 name').alone ((regionCall 1 name).alone
      (Store.new {} : Store InvalidationCount)).2).1.isOk = true) :
    CallHistory regionSchema "name" ([regionCall 1 name] ++ [regionCall 2 name'])
      (regionsAfter name name') := by
  have hbuilt (id : BitVec 128) (name : String) :
      ∀ r ∈ [region id name], r.BuiltOn regionSchema := by
    intro r hr
    rw [List.mem_singleton.1 hr]
    exact builtOn_region id name
  obtain ⟨report, hfirst⟩ := exists_of_isOk hfirst
  obtain ⟨report', hsecond⟩ := exists_of_isOk hsecond
  have start : CallHistory regionSchema "name" [] (Store.new {} : Store InvalidationCount) :=
    .start _
  have history : CallHistory regionSchema "name" [regionCall 1 name]
      ((regionCall 1 name).alone (Store.new {} : Store InvalidationCount)).2 :=
    .call (c := regionCall 1 name) start rfl rfl (hbuilt 1 name)
      (List.nodup_singleton _) (fun _ _ => rfl) hfirst
  refine .call (c := regionCall 2 name') history rfl rfl (hbuilt 2 name')
    (List.nodup_singleton _) (fun r hr => ?_) hsecond
  rw [List.mem_singleton.1 hr]
  exact hunknown

/-- `us` is reported for the first time. -/
theorem held_once_regions :
    (keyTexts "name" ((regionsAfter "eu" "us").list "region")).count "us" = 1 := by
  have history := history_regions "eu" "us" (by decide +kernel) (by decide +kernel)
    (by decide +kernel)
  exact (held_once_iff (by decide +kernel) (by decide) history (by decide +kernel)).2
    (by decide +kernel)

/-- `eu` is reported again, and stored again. -/
theorem not_held_once_regions :
    regionSchema.validate = .ok ()
      ∧ CallHistory regionSchema "name" ([regionCall 1 "eu"] ++ [regionCall 2 "eu"])
        (regionsAfter "eu" "eu")
      ∧ "eu" ∈ keyTexts "name" (regionCall 2 "eu").remote
      ∧ (keyTexts "name" ((regionsAfter "eu" "eu").list "region")).count "eu" = 2 := by
  refine ⟨by decide +kernel, history_regions "eu" "eu" (by decide +kernel)
    (by decide +kernel) (by decide +kernel), by decide +kernel, by decide +kernel⟩

end Reconcile
end Inventory
