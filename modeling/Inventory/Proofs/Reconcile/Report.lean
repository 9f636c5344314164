/-
# What the report says of the store

`SyncReport` with `changed`, and the size of the store.

The report of a reconciliation tells, without a look at the store, by how many records the
store has grown, and whether anything in it has changed apart from the stamps that every run
renews (`report_adds_up`). This rests on what became of each record that was settled
(`Traced`):

| counted as | the saved record |
| --- | --- |
| created | stands under an identifier that was not stored |
| unchanged | is the stored record apart from its refreshed stamp |
| updated | takes the place of a stored record that it is not the same as |

Where the schema declares no cloud context, nothing stored is read and every reported key is
created, so the cases are told apart once (`traced_of_declares`, `traced_of_not_declares`),
and the rest of the argument is one.
-/

import Inventory.Proofs.Reconcile.Counts
import Inventory.Proofs.Reconcile.Failure
import Inventory.Proofs.Reconcile.Refreshed

namespace Inventory
namespace Reconcile

variable {σ : Type} {c : Call} {s : Store σ} {p : Plan} {held : StoredIndex}
  {incoming : ReportedIndex} {settled : List (Record × Outcome)} {so : Record × Outcome}

/-- Well-formed records, of which those of one entity type share the schema. -/
structure OnSchema (schema : Schema) (records : List Record) : Prop where
  wellFormed : ∀ r ∈ records, r.WellFormed
  schema_eq : ∀ r ∈ records, r.entityType = schema.name → r.schema = schema

/-! ### What became of a settled record -/

/-- Where the record that is saved comes from, and what it is counted as. -/
inductive Traced (records : OrderedMap Ulid Record) : Record × Outcome → Prop where
  | created {u : Record} (unknown : records.get? u.id = none) : Traced records (u, .created)
  | kept {u existing : Record} {o : Outcome} (stored : records.get? u.id = some existing)
      (found : o ≠ .created) (same : o = .unchanged ↔ SameButRefreshed existing u) :
      Traced records (u, o)

/-- A reported key that is stored is counted by what differs, and any other as created. -/
theorem traced_of_declares (hin : Inputs s.records c.remote)
    (hon : OnSchema c.schema (s.records.values ++ c.remote))
    (hcontext : c.schema.declares Record.contextField = true)
    (h : c.plan s = .ok (planOf c.schema c.context held incoming settled))
    (hsettled : List.Forall₂ (fun key so => ∃ r, c.scope.last? c.remote key = some r
      ∧ settleWith c.now (c.scope.first? s.records.values key) r = .ok so)
        (c.scope.keys c.remote) settled) (hso : so ∈ settled) : Traced s.records so := by
  obtain ⟨key, -, r, hr, hsettle⟩ := exists_left_of_forall₂ hsettled hso
  obtain ⟨-, r₀, hr₀, rfl⟩ := Scope.mem_of_last? hr
  have henter := (enterable_of_plan_eq_ok h).2 r₀ hr₀
  have hwf : (c.scope.placed r₀).WellFormed :=
    henter.wellFormed_placed hcontext (hon.wellFormed r₀ (List.mem_append_right _ hr₀))
  have hschema : (c.scope.placed r₀).schema = c.schema :=
    hon.schema_eq r₀ (List.mem_append_right _ hr₀) henter.1
  obtain ⟨u, o⟩ := so
  -- a key is new, with the id of the report, or known, with the id of the first stored record
  cases hfirst : c.scope.first? s.records.values key with
  | none =>
    rw [hfirst] at hsettle
    obtain ⟨-, -, -, -, -, rfl⟩ := fresh_eq_ok_iff.1 hsettle
    have hid : u.id = r₀.id := (fresh_eq_ok hsettle).2
    exact .created (hid ▸ hin.unknown r₀ hr₀)
  | some existing =>
    rw [hfirst] at hsettle
    obtain ⟨hexisting, hkey⟩ := Scope.mem_of_first? hfirst
    obtain ⟨⟨htype, -⟩, -⟩ := Scope.key?_eq_some_iff.1 hkey
    have hid : u.id = existing.id := (matched_eq_ok hsettle).2
    have hsame := unchanged_iff_of_matched_eq_ok hwf
      (hon.wellFormed existing (List.mem_append_left _ hexisting))
      (hschema.trans (hon.schema_eq existing (List.mem_append_left _ hexisting) htype).symm) hsettle
    refine .kept (hid ▸ hin.consistent.mem_values_iff.1 hexisting) ?_ hsame
    obtain ⟨-, -, -, ⟨-, -, rfl⟩ | ⟨-, -, rfl⟩, -⟩ := matched_eq_ok_iff.1 hsettle <;> decide

/-- On a schema without a cloud context, no well-formed record is in one. -/
theorem OnSchema.listInContext_eq (hon : OnSchema c.schema (s.records.values ++ c.remote))
    (hcontext : c.schema.declares Record.contextField = false) :
    s.listInContext c.schema.name c.context = [] := by
  refine listInContext_eq_nil fun r hr => ?_
  obtain ⟨hr, htype⟩ := List.mem_filter.1 hr
  have hr := List.mem_append_left c.remote hr
  exact (hon.wellFormed r hr).filled.get?_eq_none
    (hon.schema_eq r hr (of_decide_eq_true htype) ▸ hcontext)

/-- Where nothing stored is read, every reported key is created. -/
theorem traced_of_not_declares (hadds : Adds c.keyField c.remote
      (planOf c.schema c.context held incoming settled))
    (hunknown : ∀ r ∈ c.remote, s.records.get? r.id = none) (hheld : held = {})
    (hsettled : incoming.byKey.entries.mapM (settle c.now held.byKey) = .ok settled)
    (hso : so ∈ settled) : Traced s.records so := by
  subst hheld
  obtain ⟨entry, -, hsettle⟩ := exists_left_of_forall₂ (mapM_eq_ok_iff.1 hsettled) hso
  obtain ⟨r, hr, -, hid⟩ := hadds.exists_reported (List.mem_map_of_mem hso)
  obtain ⟨u, o⟩ := so
  have hfresh : fresh c.now entry.2 = .ok (u, o) := hsettle
  obtain ⟨-, -, -, -, -, rfl⟩ := fresh_eq_ok_iff.1 hfresh
  exact .created (hid ▸ hunknown r hr)

/-! ### What the counts say -/

/-- What is known of a batch and of how its records were counted. -/
structure Accounted (records : OrderedMap Ulid Record) (settled : List (Record × Outcome))
    (deletes : List Ulid) : Prop where
  /-- Every saved record was counted as what became of it. -/
  traced : ∀ so ∈ settled, Traced records so
  /-- No record is saved twice. -/
  distinct : ((settled.map Prod.fst).map Record.id).Nodup
  /-- Every saved record is stored afterwards. -/
  saved : ∀ so ∈ settled, so.1 ∈ (Store.batched records (settled.map Prod.fst) deletes).values
  /-- The store grows by what is created and not deleted. -/
  size : (Store.batched records (settled.map Prod.fst) deletes).values.length + deletes.length
    = records.values.length + countOf .created settled

/-- **When nothing counts as changed:** when the stored records are the same as before, apart
from their refreshed stamps. -/
theorem Accounted.unchanged_iff {records : OrderedMap Ulid Record} {deletes : List Ulid}
    (h : Accounted records settled deletes) (hs : Store.Consistent records)
    (hdistinct : ∀ r ∈ records.values, r.Distinct) :
    (countOf .created settled = 0 ∧ countOf .updated settled = 0 ∧ deletes.length = 0) ↔
      List.Forall₂ SameButRefreshed records.values
        (Store.batched records (settled.map Prod.fst) deletes).values := by
  constructor
  · rintro ⟨hcreated, hupdated, hdeleted⟩
    obtain rfl := List.length_eq_zero_iff.1 hdeleted
    refine Store.forall₂_values_batched hs h.distinct (fun u hu => ?_)
      fun r hr _ => .refl (hdistinct r hr)
    obtain ⟨⟨u, o⟩, hso, rfl⟩ := List.mem_map.1 hu
    have hnotCreated := countOf_eq_zero_iff.1 hcreated _ hso
    have hnotUpdated := countOf_eq_zero_iff.1 hupdated _ hso
    cases h.traced _ hso with
    | created unknown => exact absurd rfl hnotCreated
    | kept stored found same =>
      refine ⟨_, stored, same.1 ?_⟩
      cases o with
      | created => exact absurd rfl found
      | updated => exact absurd rfl hnotUpdated
      | unchanged => rfl
  · intro hsame
    -- what was created is nowhere in the store before, and what was updated is not the same
    have hunchanged : ∀ so ∈ settled, so.2 = .unchanged := by
      intro so hso
      obtain ⟨r, hr, hrso⟩ := exists_left_of_forall₂ hsame (h.saved so hso)
      have hget := hs.mem_values_iff.1 hr
      rw [hrso.id_eq] at hget
      cases h.traced so hso with
      | created unknown => cases unknown.symm.trans hget
      | kept stored found same => exact same.2 (Option.some.inj (stored.symm.trans hget) ▸ hrso)
    have hcreated : countOf .created settled = 0 :=
      countOf_eq_zero_iff.2 fun so hso ho => by cases (hunchanged so hso).symm.trans ho
    have hupdated : countOf .updated settled = 0 :=
      countOf_eq_zero_iff.2 fun so hso ho => by cases (hunchanged so hso).symm.trans ho
    have hlength := hsame.length_eq
    have hsize := h.size
    exact ⟨hcreated, hupdated, by omega⟩

namespace Scope

variable (scope : Scope)

/-- Records have a key, or none. -/
theorem length_filterMap_key?_add (records : List Record) :
    (records.filterMap scope.key?).length + (records.filter (scope.key? · = none)).length
      = records.length := by
  induction records with
  | nil => rfl
  | cons r rest ih =>
    cases hkey : scope.key? r <;> simp [hkey] <;> omega

/-- There are as many keys as records of the scope with a text in the key field. -/
theorem length_filterMap_key? (records : List Record) :
    (records.filterMap scope.key?).length
      = ((records.filter fun r => decide (scope.Covers r)).filter
          fun r => (r.text? scope.keyField).isSome).length := by
  induction records with
  | nil => rfl
  | cons r rest ih =>
    by_cases hcovers : scope.Covers r
    · have hkey : scope.key? r = r.text? scope.keyField := if_pos hcovers
      cases htext : r.text? scope.keyField <;> simp_all
    · have hkey : scope.key? r = none := if_neg hcovers
      simp_all

end Scope

/-- **The store grows** by what is created and not deleted. -/
theorem Reconciled.length_add {scope : Scope} {before remote after : List Record}
    (h : Reconciled scope before remote after) :
    after.length + (before.filterMap scope.key?).length
      = before.length + (scope.keys remote).length := by
  have hbefore := Scope.length_filterMap_key?_add scope before
  have hafter := Scope.length_filterMap_key?_add scope after
  have hkeys := h.one_per_key.length_eq
  rw [h.frame] at hafter
  omega

/-- Where records have a context, the report accounts for the store. -/
theorem accounted_of_declares (hin : Inputs s.records c.remote)
    (hon : OnSchema c.schema (s.records.values ++ c.remote)) (hkey : c.keyField ∉ stampFields)
    (hcontext : c.schema.declares Record.contextField = true) (h : c.plan s = .ok p) :
    ∃ held incoming settled, p = planOf c.schema c.context held incoming settled
      ∧ Accounted s.records settled p.deletes := by
  obtain ⟨held, incoming, settled, rfl, hsettled⟩ :=
    Call.settled_of_plan_eq_ok hcontext h
  refine ⟨held, incoming, settled, rfl, ?_⟩
  have hs := hin.consistent
  have hp := Call.planned_of_plan_eq_ok hs hcontext h
  constructor
  case traced => exact fun so hso => traced_of_declares hin hon hcontext h hsettled hso
  case distinct => exact hp.nodup_upserts hkey hs (hin.apart c.scope)
  case saved =>
    exact fun so hso =>
      ((hp.mem_after_iff hkey hs (hin.apart c.scope)).2 (List.mem_map_of_mem hso)).1
  case size =>
    -- both sums follow from the records with a key, counted before and after the call
    let p := planOf c.schema c.context held incoming settled
    have hsize : (Store.batched s.records (settled.map Prod.fst) p.deletes).values.length
        + (s.records.values.filterMap c.scope.key?).length
          = s.records.values.length + (c.scope.keys c.remote).length :=
      (hp.reconciled hkey hin).length_add
    have hkeyed : (s.records.values.filterMap c.scope.key?).length
        = ((s.listInContext c.schema.name c.context).filter
            fun r => (r.text? c.keyField).isSome).length := by
      rw [Call.listInContext_eq_filter]
      exact Scope.length_filterMap_key? c.scope s.records.values
    have hcounts : countOf .updated settled + countOf .unchanged settled + p.deletes.length
        = ((s.listInContext c.schema.name c.context).filter
            fun r => (r.text? c.keyField).isSome).length := (counts_of_plan_eq_ok h).2
    have hlength := hsettled.length_eq
    have hsum := countOf_add settled
    change (Store.batched s.records (settled.map Prod.fst) p.deletes).values.length
      + p.deletes.length = _
    omega

/-- So it does where they have none, and everything reported is new. -/
theorem accounted_of_not_declares (hin : Inputs s.records c.remote)
    (hon : OnSchema c.schema (s.records.values ++ c.remote))
    (hcontext : c.schema.declares Record.contextField = false) (h : c.plan s = .ok p) :
    ∃ held incoming settled, p = planOf c.schema c.context held incoming settled
      ∧ Accounted s.records settled p.deletes := by
  rw [Call.plan, hon.listInContext_eq hcontext] at h
  obtain ⟨-, held, incoming, settled, hheld, -, hsettled, rfl⟩ := plan_eq_ok_iff.1 h
  refine ⟨held, incoming, settled, rfl, ?_⟩
  have hadds := adds_of_plan_eq_ok hcontext h
  have htraced : ∀ so ∈ settled, Traced s.records so := fun so hso =>
    traced_of_not_declares hadds hin.unknown (Except.ok.inj hheld).symm hsettled hso
  have hdistinct : ((settled.map Prod.fst).map Record.id).Nodup :=
    hadds.nodup_upserts hin.distinct
  -- without the context field no stored record is found, so everything saved comes at the end
  have hvalues : (Store.batched s.records (settled.map Prod.fst) []).values
      = s.records.values ++ settled.map Prod.fst := by
    refine Store.values_batched_of_new hdistinct fun u hu => ?_
    obtain ⟨r, hr, -, hid⟩ := hadds.exists_reported hu
    exact hid ▸ hin.unknown r hr
  have hdeletes : (planOf c.schema c.context held incoming settled).deletes = [] := hadds.deletes
  rw [hdeletes]
  constructor
  case traced => exact htraced
  case distinct => exact hdistinct
  case saved =>
    intro so hso
    rw [hvalues]
    exact List.mem_append_right _ (List.mem_map_of_mem hso)
  case size =>
    have hcounts : countOf .updated settled + countOf .unchanged settled
        + (planOf c.schema c.context held incoming settled).deletes.length = 0 :=
      (counts_of_plan_eq_ok h).2
    have hsum := countOf_add settled
    rw [hvalues, List.length_append, List.length_map, List.length_nil]
    omega

/-- **What a plan that succeeds counts** is what it does. -/
theorem accounted_of_plan_eq_ok (hin : Inputs s.records c.remote)
    (hon : OnSchema c.schema (s.records.values ++ c.remote)) (hkey : c.keyField ∉ stampFields)
    (h : c.plan s = .ok p) :
    ∃ held incoming settled, p = planOf c.schema c.context held incoming settled
      ∧ Accounted s.records settled p.deletes := by
  cases hcontext : c.schema.declares Record.contextField with
  | true => exact accounted_of_declares hin hon hkey hcontext h
  | false => exact accounted_of_not_declares hin hon hcontext h

/-- **The report adds up.** Every reported record is created, updated, unchanged or skipped,
and every stored record of the entity type and cloud context that has a key text is updated,
unchanged or deleted. Where the reported records are new to the store and to each other, and
the records of the entity type share the schema, the store grows by what is created and not
deleted, and the report says that nothing changed exactly when the stored records are the
same as before, in the same order, apart from their refreshed stamps. -/
theorem report_adds_up [Watcher σ] {report : SyncReport} (h : (c.alone s).1 = .ok report) :
    report.created + report.updated + report.unchanged + report.skipped = c.remote.length
      ∧ report.updated + report.unchanged + report.deleted
        = ((s.listInContext c.schema.name c.context).filter
            fun r => (r.text? c.keyField).isSome).length
      ∧ (Inputs s.records c.remote → OnSchema c.schema (s.records.values ++ c.remote) →
        c.keyField ∉ stampFields →
          (c.alone s).2.size + report.deleted = s.size + report.created
            ∧ (report.changed = false ↔
              List.Forall₂ SameButRefreshed s.records.values (c.alone s).2.records.values)) := by
  cases hplan : c.plan s with
  | error e =>
    rw [Call.alone_of_plan_eq_error hplan] at h
    cases h
  | ok p =>
    rw [Call.alone_of_plan_eq_ok hplan] at h ⊢
    obtain rfl : p.report = report := Except.ok.inj h
    obtain ⟨hreported, hstored⟩ := counts_of_plan_eq_ok hplan
    refine ⟨hreported, hstored, fun hin hon hkey => ?_⟩
    obtain ⟨held, incoming, settled, rfl, haccounted⟩ := accounted_of_plan_eq_ok hin hon hkey hplan
    have hsize (records : OrderedMap Ulid Record) : records.size = records.values.length :=
      (List.length_map _).symm
    rw [Store.size, Store.size, Store.records_applyBatch, hsize, hsize, changed_eq_false_iff]
    refine ⟨haccounted.size, ?_⟩
    exact haccounted.unchanged_iff hin.consistent fun r hr =>
      (hon.wellFormed r (List.mem_append_left _ hr)).toDistinct

theorem consistent_oneMachine : Store.Consistent oneMachine.records := by
  rw [oneMachine, Store.records_applyBatch]
  exact Store.Consistent.empty.batched _ _

/-- The machine is found as it is stored, so nothing but its refreshed stamp changes. -/
theorem report_adds_up_machine :
    (soundCall.alone oneMachine).1
        = .ok { entityType := "machine", cloudContext := "east", unchanged := 1 }
      ∧ (soundCall.alone oneMachine).2.size = 1
      ∧ List.Forall₂ SameButRefreshed oneMachine.records.values
        (soundCall.alone oneMachine).2.records.values := by
  have hreport : (soundCall.alone oneMachine).1
      = .ok { entityType := "machine", cloudContext := "east", unchanged := 1 } := by
    rfl
  obtain ⟨-, -, hrest⟩ := report_adds_up hreport
  have hin : Inputs oneMachine.records soundCall.remote :=
    ⟨consistent_oneMachine, by decide +kernel, by decide +kernel⟩
  have hon : OnSchema soundCall.schema (oneMachine.records.values ++ soundCall.remote) := by
    have hall : oneMachine.records.values ++ soundCall.remote
        = [webIn "east" 34, webIn "east" 33] := rfl
    rw [hall]
    constructor
    case wellFormed =>
      simp only [List.forall_mem_cons]
      exact ⟨(builtOn_webIn _ _).wellFormed, (builtOn_webIn _ _).wellFormed, nofun⟩
    case schema_eq =>
      simp only [List.forall_mem_cons]
      exact ⟨fun _ => rfl, fun _ => rfl, nofun⟩
  obtain ⟨hsize, hchanged⟩ := hrest hin hon (by decide)
  exact ⟨hreport, hsize, hchanged.1 rfl⟩

end Reconcile
end Inventory
