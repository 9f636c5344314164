/-
# What is planned

The upserts and deletions that `reconcile` collects.

A plan saves one record for every reported key and deletes every stored record
that does not keep its place (`Call.planned_of_plan_eq_ok`). Its deletions are those
of a set: the order in which stale keys are visited decides only how they are
listed.
-/

import Inventory.Proofs.Reconcile.Reported
import Inventory.Proofs.Reconcile.Settled
import Inventory.Proofs.Store

namespace Inventory
namespace Reconcile

variable {σ : Type} {remote : List Record}

section

variable {scope : Scope} {records before : List Record}

namespace Scope

/-- A record has a key when the scope covers it and its key field has a text. -/
theorem key?_eq_some_iff {r : Record} {key : String} :
    scope.key? r = some key ↔ scope.Covers r ∧ r.text? scope.keyField = some key := by
  rw [key?]
  split
  · rename_i h
    exact ⟨fun hkey => ⟨h, hkey⟩, fun hkey => hkey.2⟩
  · rename_i h
    exact ⟨fun hkey => by simp at hkey, fun hkey => absurd hkey.1 h⟩

/-- The first record of a key is one of the records, and has the key. -/
theorem mem_of_first? {key : String} {r : Record} (h : scope.first? records key = some r) :
    r ∈ records ∧ scope.key? r = some key :=
  ⟨List.mem_of_find?_eq_some h, by simpa using List.find?_some h⟩

/-- A key that occurs has a first record. -/
theorem exists_first? {key : String} {r : Record} (hr : r ∈ records)
    (hkey : scope.key? r = some key) : ∃ r₀, scope.first? records key = some r₀ := by
  rw [← Option.isSome_iff_exists, first?, List.find?_isSome]
  exact ⟨r, hr, by simpa using hkey⟩

/-- The last record of a key is a reported one, moved to the context, and has the key. -/
theorem mem_of_last? {key : String} {r : Record} (h : scope.last? remote key = some r) :
    scope.key? r = some key ∧ ∃ r₀ ∈ remote, scope.placed r₀ = r := by
  obtain ⟨hr, hkey⟩ := mem_of_first? h
  exact ⟨hkey, List.mem_map.1 (List.mem_reverse.1 hr)⟩

/-- A stored record gives up its place when its key is not reported, or when it
is not the first of its key. -/
theorem keeps_eq_false_iff {r : Record} :
    scope.keeps before remote r = false ↔
      ∃ key, scope.key? r = some key ∧
        (key ∉ scope.keys remote ∨ (scope.first? before key).map Record.id ≠ some r.id) := by
  unfold keeps
  cases scope.key? r with
  | none => simp
  | some key => simp [imp_iff_not_or]

/-- A record that was moved to the context of the scope is in the scope. -/
theorem key?_placed {r : Record} (htype : r.entityType = scope.entityType) :
    scope.key? (scope.placed r) = (scope.placed r).text? scope.keyField := by
  have hcontext : (scope.placed r).cloudContext? = some scope.context := by
    simp [Record.cloudContext?, Record.get, Record.value, placed, FieldValue.asString]
  exact if_pos ⟨htype, hcontext⟩

/-- Among the records of the scope the key is the text of the key field. -/
theorem firstWith_eq_first? (records : List Record) (key : String) :
    firstWith scope.keyField
        (records.filter fun r => decide (scope.Covers r)) key
      = scope.first? records key := by
  rw [firstWith, List.find?_filter, first?]
  congr 1
  funext r
  rw [Bool.eq_iff_iff]
  simp [key?_eq_some_iff]

end Scope

/-- What a plan saves and deletes. -/
structure Planned (scope : Scope) (before remote : List Record) (p : Plan) : Prop where
  upserts : List.Forall₂ (fun key r' => ∃ r, scope.last? remote key = some r ∧ Restamped r' r
    ∧ r'.id = ((scope.first? before key).map Record.id).getD r.id) (scope.keys remote) p.upserts
  deletes : ∀ id, id ∈ p.deletes ↔ ∃ r ∈ before, r.id = id ∧ scope.keeps before remote r = false

/-- How many of the settled records had an outcome. -/
def countOf (o : Outcome) (settled : List (Record × Outcome)) : Nat :=
  (settled.filter (·.2 = o)).length

/-- The plan that the indexes and the settled records make. -/
def planOf (schema : Schema) (context : String) (held : StoredIndex) (incoming : ReportedIndex)
    (settled : List (Record × Outcome)) : Plan :=
  let stale := held.byKey.filter fun key _ => !incoming.byKey.contains key
  let deletes := held.duplicates ++ stale.values.map Record.id
  { report := {
      entityType := schema.name
      cloudContext := context
      created := countOf .created settled
      updated := countOf .updated settled
      unchanged := countOf .unchanged settled
      deleted := deletes.length
      skipped := incoming.skipped }
    upserts := settled.map Prod.fst
    deletes }

/-- **When a plan succeeds**, and what it is. -/
theorem plan_eq_ok_iff {schema : Schema} {context keyField : String} {stored : List Record}
    {now : Timestamp} {p : Plan} :
    plan schema context keyField stored remote now = .ok p ↔
      schema.declares keyField = true ∧ ∃ held incoming settled,
        stored.foldlM (StoredIndex.enter keyField) {} = .ok held
          ∧ remote.foldlM (ReportedIndex.enter schema context keyField) {} = .ok incoming
          ∧ incoming.byKey.entries.mapM (settle now held.byKey) = .ok settled
          ∧ p = planOf schema context held incoming settled := by
  unfold plan Schema.requireField Schema.declares
  cases schema.field? keyField with
  | none => simp [bind, Except.bind, throw, throwThe, MonadExceptOf.throw]
  | some f =>
    simp only [bind_eq_ok_iff, Option.isSome_some, true_and]
    constructor
    · rintro ⟨held, hheld, incoming, hincoming, settled, hsettled, h⟩
      exact ⟨held, incoming, settled, hheld, hincoming, hsettled, (Except.ok.inj h).symm⟩
    · rintro ⟨held, incoming, settled, hheld, hincoming, hsettled, rfl⟩
      exact ⟨held, hheld, incoming, hincoming, settled, hsettled, rfl⟩

/-- The steps of a plan that succeeds. -/
theorem plan_eq_ok {schema : Schema} {context keyField : String} {stored : List Record}
    {now : Timestamp} {p : Plan} (h : plan schema context keyField stored remote now = .ok p) :
    ∃ held incoming settled,
      stored.foldlM (StoredIndex.enter keyField) {} = .ok held
        ∧ remote.foldlM (ReportedIndex.enter schema context keyField) {} = .ok incoming
        ∧ incoming.byKey.entries.mapM (settle now held.byKey) = .ok settled
        ∧ p.upserts = settled.map Prod.fst
        ∧ p.deletes = held.duplicates ++ (held.byKey.filter fun key _ =>
            !incoming.byKey.contains key).values.map Record.id := by
  obtain ⟨-, held, incoming, settled, hheld, hincoming, hsettled, rfl⟩ := plan_eq_ok_iff.1 h
  exact ⟨held, incoming, settled, hheld, hincoming, hsettled, rfl, rfl⟩

/-- A plan that succeeds has entered every record. -/
theorem enterable_of_plan_eq_ok {schema : Schema} {context keyField : String}
    {stored : List Record} {now : Timestamp} {p : Plan}
    (h : plan schema context keyField stored remote now = .ok p) :
    (∀ r ∈ stored, (r.slots.get? keyField).isSome)
      ∧ ∀ r ∈ remote, Enterable schema context keyField r := by
  obtain ⟨-, held, incoming, -, hheld, hincoming, -⟩ := plan_eq_ok_iff.1 h
  exact ⟨StoredIndex.exists_foldlM_iff.1 ⟨held, hheld⟩,
    ReportedIndex.exists_foldlM_iff.1 ⟨incoming, hincoming⟩⟩

/-- The reported index holds the last record of every reported key. -/
theorem ReportedIndex.Holds.byKey {schema : Schema} {incoming : ReportedIndex}
    (hname : scope.entityType = schema.name)
    (h : incoming.Holds schema scope.keyField scope.placed remote) :
    incoming.byKey.keys = scope.keys remote
      ∧ ∀ key, incoming.byKey.get? key = scope.last? remote key := by
  have hkey : ∀ r ∈ remote.map scope.placed, scope.key? r = r.text? scope.keyField := by
    intro r hr
    obtain ⟨r₀, hr₀, rfl⟩ := List.mem_map.1 hr
    exact Scope.key?_placed ((h.types r₀ hr₀).trans hname.symm)
  constructor
  · rw [h.keys, Scope.keys]
    exact congrArg List.eraseDups (List.filterMap_congr fun r hr => (hkey r hr).symm)
  · intro key
    rw [h.last, Scope.last?, Scope.first?, firstWith, ← List.head?_filter, ← List.head?_filter]
    refine congrArg List.head? (List.filter_congr fun r hr => ?_)
    rw [hkey r (List.mem_reverse.1 hr)]

/-- The stale records are those first of a key that is not reported. -/
theorem mem_stale {held incoming : OrderedMap String Record} (hheld : held.keys.Nodup)
    {id : Ulid} :
    id ∈ (held.filter fun key _ => !incoming.contains key).values.map Record.id ↔
      ∃ key r, held.get? key = some r ∧ key ∉ incoming.keys ∧ r.id = id := by
  have hnodup := OrderedMap.nodup_keys_filter hheld fun key _ => !incoming.contains key
  simp only [List.mem_map, OrderedMap.mem_values_iff, ← OrderedMap.get?_eq_some_iff hnodup,
    OrderedMap.get?_filter_key (fun key => !incoming.contains key), ← OrderedMap.contains_iff]
  constructor
  · rintro ⟨r, ⟨key, hr⟩, hid⟩
    split at hr
    · rename_i hkey
      exact ⟨key, r, hr, by simpa using hkey, hid⟩
    · cases hr
  · rintro ⟨key, r, hr, hkey, hid⟩
    exact ⟨r, ⟨key, by rw [if_pos (by simpa using hkey), hr]⟩, hid⟩

/-- **What is deleted** is what does not keep its place: a later record of a key, or
the first record of a stale one. -/
theorem mem_deleted_iff {records : OrderedMap Ulid Record} (hs : Store.Consistent records)
    {held : StoredIndex} {incoming : OrderedMap String Record}
    (hheld : held.Holds scope.keyField (records.values.filter fun r => decide (scope.Covers r)))
    (hkeys : incoming.keys = scope.keys remote) {id : Ulid} :
    id ∈ held.duplicates ++ (held.byKey.filter fun key _ =>
        !incoming.contains key).values.map Record.id ↔
      ∃ r ∈ records.values, r.id = id ∧ scope.keeps records.values remote r = false := by
  have hfirst (key : String) : held.byKey.get? key = scope.first? records.values key := by
    rw [hheld.first, Scope.firstWith_eq_first?]
  have hids : ((records.values.filter fun r => decide (scope.Covers r)).map Record.id).Nodup :=
    hs.nodup_map_id.sublist (List.filter_sublist.map _)
  rw [List.mem_append, hheld.others hids id, mem_stale hheld.nodup]
  constructor
  · -- a duplicate is not the first of its key; a stale record has a key that was not reported
    rintro (⟨r, hr, hid, key, r₀, htext, h₀, hne⟩ | ⟨key, r, hr, hkey, hid⟩)
    · obtain ⟨hr, hin⟩ := List.mem_filter.1 hr
      have hkey := Scope.key?_eq_some_iff.2 ⟨by simpa using hin, htext⟩
      rw [Scope.firstWith_eq_first?] at h₀
      refine ⟨r, hr, hid, Scope.keeps_eq_false_iff.2 ⟨key, hkey, .inr ?_⟩⟩
      rw [h₀]
      exact fun e => hne (Option.some.inj e)
    · obtain ⟨hmem, hkey'⟩ := Scope.mem_of_first? ((hfirst key).symm.trans hr)
      exact ⟨r, hmem, hid, Scope.keeps_eq_false_iff.2 ⟨key, hkey', .inl (hkeys ▸ hkey)⟩⟩
  · rintro ⟨r, hr, hid, hkeeps⟩
    obtain ⟨key, hkey, hout⟩ := Scope.keeps_eq_false_iff.1 hkeeps
    obtain ⟨hin, htext⟩ := Scope.key?_eq_some_iff.1 hkey
    obtain ⟨r₀, h₀⟩ := Scope.exists_first? hr hkey
    by_cases hr₀ : r₀.id = r.id
    · -- the first of its key gives up its place only when the key is stale
      refine .inr ⟨key, r₀, (hfirst key).trans h₀, ?_, hr₀.trans hid⟩
      rw [hkeys]
      exact hout.resolve_right fun e => e (by rw [h₀, Option.map_some, hr₀])
    · refine .inl ⟨r, List.mem_filter.2 ⟨hr, by simpa using hin⟩, hid, key, r₀, htext, ?_, hr₀⟩
      rw [Scope.firstWith_eq_first?, h₀]

end

/-! ### Calls -/

/-- What one reconciliation is asked to do. -/
structure Call where
  schema : Schema
  context : String
  keyField : String
  remote : List Record
  now : Timestamp

namespace Call

/-- The records that a call is about, and how it tells them apart. -/
def scope (c : Call) : Scope := ⟨c.schema.name, c.context, c.keyField⟩

/-- What a call plans when it reads the store. -/
def plan (c : Call) (s : Store σ) : Except RecordError Plan :=
  Reconcile.plan c.schema c.context c.keyField (s.listInContext c.schema.name c.context) c.remote
    c.now

variable {c : Call} {s : Store σ} {p : Plan}

/-- The stored records that a call reads are those of its scope. -/
theorem listInContext_eq_filter (c : Call) (s : Store σ) :
    s.listInContext c.schema.name c.context
      = s.records.values.filter fun r => decide (c.scope.Covers r) := by
  rw [Store.listInContext, Store.list, List.filter_filter]
  refine List.filter_congr fun r _ => ?_
  rw [Bool.eq_iff_iff]
  simp [Scope.Covers, scope, and_comm]

/-- The reported index of a call holds the last record of every reported key. -/
theorem byKey_of_foldlM (hcontext : c.schema.declares Record.contextField = true)
    {incoming : ReportedIndex}
    (hincoming : c.remote.foldlM (ReportedIndex.enter c.schema c.context c.keyField) {}
      = .ok incoming) :
    incoming.byKey.keys = c.scope.keys c.remote
      ∧ ∀ key, incoming.byKey.get? key = c.scope.last? c.remote key := by
  have hname : c.scope.entityType = c.schema.name := rfl
  exact (ReportedIndex.holds_of_foldlM (places_of_declares c.scope hcontext) hincoming).byKey hname

/-- An entry of the reported index is the last reported record of its key, and is settled with
the first stored one. -/
theorem settle_entry (hcontext : c.schema.declares Record.contextField = true)
    {held : StoredIndex}
    (hheld : (s.listInContext c.schema.name c.context).foldlM (StoredIndex.enter c.keyField) {}
      = .ok held)
    {incoming : ReportedIndex}
    (hincoming : c.remote.foldlM (ReportedIndex.enter c.schema c.context c.keyField) {}
      = .ok incoming) :
    ∀ e ∈ incoming.byKey.entries, c.scope.last? c.remote e.1 = some e.2
      ∧ settle c.now held.byKey e
        = settleWith c.now (c.scope.first? s.records.values e.1) e.2 := by
  intro e he
  constructor
  · have hnodup := ReportedIndex.nodup_of_foldlM hincoming
    exact ((byKey_of_foldlM hcontext hincoming).2 e.1).symm.trans
      ((OrderedMap.get?_eq_some_iff hnodup).2 he)
  · have hfirst : held.byKey.get? e.1 = c.scope.first? s.records.values e.1 := by
      rw [listInContext_eq_filter] at hheld
      rw [(StoredIndex.holds_of_foldlM hheld).first]
      exact @Scope.firstWith_eq_first? c.scope s.records.values e.1
    rw [settle_eq_settleWith, hfirst]

/-- For every reported key, in order, a plan that succeeds settles the last reported record. -/
theorem settled_of_plan_eq_ok (hcontext : c.schema.declares Record.contextField = true)
    (h : c.plan s = .ok p) :
    ∃ held incoming settled, p = planOf c.schema c.context held incoming settled
      ∧ List.Forall₂ (fun key so => ∃ r, c.scope.last? c.remote key = some r
        ∧ settleWith c.now (c.scope.first? s.records.values key) r = .ok so)
          (c.scope.keys c.remote) settled := by
  obtain ⟨-, held, incoming, settled, hheld, hincoming, hsettled, rfl⟩ := plan_eq_ok_iff.1 h
  refine ⟨held, incoming, settled, rfl, ?_⟩
  have hentries := settle_entry hcontext hheld hincoming
  rw [← (byKey_of_foldlM hcontext hincoming).1, OrderedMap.keys, List.forall₂_map_left_iff]
  refine ((List.forall₂_and_left _ _).2 ⟨hentries, mapM_eq_ok_iff.1 hsettled⟩).imp ?_
  rintro e so ⟨⟨hlast, heq⟩, hsettle⟩
  exact ⟨e.2, hlast, heq.symm.trans hsettle⟩

/-- For every reported key, in order, a plan that succeeds saves what is stored for the
last reported record. -/
theorem settles_of_plan_eq_ok (hcontext : c.schema.declares Record.contextField = true)
    (h : c.plan s = .ok p) :
    List.Forall₂ (fun key r' => ∃ r, c.scope.last? c.remote key = some r
      ∧ Settles c.now (c.scope.first? s.records.values key) r r') (c.scope.keys c.remote)
        p.upserts := by
  obtain ⟨held, incoming, settled, rfl, hsettled⟩ := settled_of_plan_eq_ok hcontext h
  rw [planOf, List.forall₂_map_right_iff]
  exact hsettled.imp fun key so ⟨r, hr, hso⟩ => ⟨r, hr, settles_of_settleWith_eq_ok hso⟩

/-- **What a plan that succeeds saves and deletes.** -/
theorem planned_of_plan_eq_ok (hs : Store.Consistent s.records)
    (hcontext : c.schema.declares Record.contextField = true) (h : c.plan s = .ok p) :
    Planned c.scope s.records.values c.remote p := by
  have hsettles := settles_of_plan_eq_ok hcontext h
  refine ⟨hsettles.imp fun key r' ⟨r, hr, h⟩ => ⟨r, hr, h.restamped⟩, fun id => ?_⟩
  obtain ⟨held, incoming, settled, hheld, hincoming, -, -, hdeletes⟩ := plan_eq_ok h
  rw [listInContext_eq_filter] at hheld
  rw [hdeletes]
  exact mem_deleted_iff hs (StoredIndex.holds_of_foldlM hheld)
    (byKey_of_foldlM hcontext hincoming).1

end Call

/-- **A reconciliation that succeeds** applies such a plan. -/
theorem planned_of_reconcile_eq_ok [Watcher σ] {s s' : Store σ} (hs : Store.Consistent s.records)
    {schema : Schema} (hcontext : schema.declares Record.contextField = true)
    {context keyField : String} {now : Timestamp} {report : SyncReport}
    (h : s.reconcile schema context keyField remote now = .ok (report, s')) :
    ∃ p, Planned ⟨schema.name, context, keyField⟩ s.records.values remote p
      ∧ List.Forall₂ (fun key r' => ∃ r, Scope.last? ⟨schema.name, context, keyField⟩ remote key
          = some r ∧ Settles now (Scope.first? ⟨schema.name, context, keyField⟩
            s.records.values key) r r')
        (Scope.keys ⟨schema.name, context, keyField⟩ remote) p.upserts
      ∧ s'.records = Store.batched s.records p.upserts p.deletes := by
  rw [Store.reconcile_eq] at h
  split at h
  · cases h
  · rename_i p hplan
    obtain ⟨-, rfl⟩ := Prod.mk.inj (Except.ok.inj h)
    let c : Call := ⟨schema, context, keyField, remote, now⟩
    have hcall : c.plan s = .ok p := hplan
    exact ⟨p, Call.planned_of_plan_eq_ok hs hcontext hcall,
      Call.settles_of_plan_eq_ok hcontext hcall, Store.records_applyBatch s p.upserts p.deletes⟩

end Reconcile
end Inventory
