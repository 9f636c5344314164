/-
# What is counted

The counts of `SyncReport`.

Each loop of a reconciliation counts some of the records that it goes through. Together
the counts leave no record out and count none twice:

| records | are counted as |
| --- | --- |
| reported | created, updated or unchanged, one for each key; the others as skipped |
| stored, with a key text | updated or unchanged, one for each reported key; the others as deleted |

Both sums (`counts_of_plan_eq_ok`) follow from what the indexes hold of the records that
were entered (`ReportedIndex.skipped_add_size`, `StoredIndex.size_add_duplicates`) and from
that a key is settled as created when it is not stored (`countOf_created`).
-/

import Inventory.Proofs.Reconcile.Plan

namespace Inventory
namespace Reconcile

variable {schema : Schema} {context keyField : String} {now : Timestamp}
  {stored remote : List Record} {settled : List (Record × Outcome)} {p : Plan}

/-! ### What is entered -/

/-- **Every reported record** is entered under a new key or skipped. -/
theorem ReportedIndex.skipped_add_size {incoming : ReportedIndex}
    (h : remote.foldlM (ReportedIndex.enter schema context keyField) {} = .ok incoming) :
    incoming.skipped + incoming.byKey.size = remote.length := by
  refine foldlM_ok_induction (fun done index => index.skipped + index.byKey.size = done.length)
    rfl (fun done r index index' hdone henter => ?_) h
  rw [List.length_append, List.length_singleton, ← hdone]
  obtain ⟨-, r', -, ⟨-, rfl⟩ | ⟨key, -, rfl⟩⟩ := enter_cases henter
  · exact Nat.add_right_comm _ _ _
  · simp only [OrderedMap.size_insert]
    split <;> omega

/-- **Every stored record with a key text** is entered under a new key or is one of the
others. -/
theorem StoredIndex.size_add_duplicates {held : StoredIndex}
    (h : stored.foldlM (StoredIndex.enter keyField) {} = .ok held) :
    held.byKey.size + held.duplicates.length
      = (stored.filter fun r => (r.text? keyField).isSome).length := by
  refine foldlM_ok_induction (fun done index => index.byKey.size + index.duplicates.length
    = (done.filter fun r => (r.text? keyField).isSome).length)
    rfl (fun done r index index' hdone henter => ?_) h
  rw [List.filter_append, List.length_append, ← hdone, List.filter_singleton]
  rcases enter_cases henter with ⟨htext, rfl⟩ | ⟨key, htext, ⟨hnew, rfl⟩ | ⟨hold, rfl⟩⟩
  · simp [htext]
  · rw [OrderedMap.size_insert]
    simp only [htext, hnew, Option.isSome_some, cond_true, List.length_singleton,
      Bool.false_eq_true, if_false]
    exact Nat.add_right_comm _ _ _
  · simp [htext, Nat.add_assoc]

/-! ### What is settled -/

/-- Every settled record is counted once. -/
theorem countOf_add (settled : List (Record × Outcome)) :
    countOf .created settled + countOf .updated settled + countOf .unchanged settled
      = settled.length := by
  induction settled with
  | nil => rfl
  | cons so rest ih =>
    obtain ⟨r, o⟩ := so
    rw [List.length_cons, ← ih]
    cases o <;> simp [countOf] <;> omega

/-- Nothing is counted for an outcome that no record had. -/
theorem countOf_eq_zero_iff {o : Outcome} : countOf o settled = 0 ↔ ∀ so ∈ settled, so.2 ≠ o := by
  simp [countOf, List.filter_eq_nil_iff]

/-- A key is settled as created when it is not stored. -/
theorem created_iff_of_settle_eq_ok {held : OrderedMap String Record} {entry : String × Record}
    {so : Record × Outcome} (h : settle now held entry = .ok so) :
    so.2 = .created ↔ held.contains entry.1 = false := by
  unfold settle at h
  cases hkey : held.get? entry.1 with
  | none =>
    rw [hkey] at h
    obtain ⟨-, -, -, -, -, ho⟩ := fresh_eq_ok_iff.1 h
    simp [ho, OrderedMap.contains, hkey]
  | some existing =>
    rw [hkey] at h
    obtain ⟨-, -, -, ⟨-, -, ho⟩ | ⟨-, -, ho⟩, -⟩ := matched_eq_ok_iff.1 h <;>
      simp [ho, OrderedMap.contains, hkey]

/-- The created records are those whose key is not stored. -/
theorem countOf_created {held incoming : OrderedMap String Record}
    (h : incoming.entries.mapM (settle now held) = .ok settled) :
    countOf .created settled = (incoming.filter fun key _ => !held.contains key).size := by
  have hiff : Relator.LiftFun (fun entry so => settle now held entry = .ok so) (· ↔ ·)
      (fun entry => (!held.contains entry.1) = true)
      (fun so => decide (so.2 = .created) = true) := by
    intro entry so hso
    simp [created_iff_of_settle_eq_ok hso]
  exact (List.rel_filter hiff (mapM_eq_ok_iff.1 h)).length_eq.symm

/-! ### The sums -/

/-- **The sums of the report:** one over the reported records, and one over the stored ones
with a key text. -/
theorem counts_of_plan_eq_ok (h : plan schema context keyField stored remote now = .ok p) :
    p.report.created + p.report.updated + p.report.unchanged + p.report.skipped = remote.length
      ∧ p.report.updated + p.report.unchanged + p.report.deleted
        = (stored.filter fun r => (r.text? keyField).isSome).length := by
  obtain ⟨-, held, incoming, settled, hheld, hincoming, hsettled, rfl⟩ := plan_eq_ok_iff.1 h
  have hlength : settled.length = incoming.byKey.size := (mapM_eq_ok_iff.1 hsettled).length_eq.symm
  have hoff : (held.duplicates ++ (held.byKey.filter fun key _ =>
      !incoming.byKey.contains key).values.map Record.id).length = held.duplicates.length
        + (held.byKey.filter fun key _ => !incoming.byKey.contains key).size := by
    rw [List.length_append, List.length_map, OrderedMap.values, List.length_map]
    rfl
  have hsum := countOf_add settled
  have hcreated := countOf_created hsettled
  have hreported := ReportedIndex.skipped_add_size hincoming
  have hstored := StoredIndex.size_add_duplicates hheld
  have hincomingSplit := OrderedMap.size_filter_key_add held.byKey.contains incoming.byKey
  have hheldSplit := OrderedMap.size_filter_key_add incoming.byKey.contains held.byKey
  have hcommon := OrderedMap.size_filter_contains (ReportedIndex.nodup_of_foldlM hincoming)
    (StoredIndex.holds_of_foldlM hheld).nodup
  simp only [planOf, hoff]
  omega

/-- **One record is saved** for each key that is created, updated or unchanged. -/
theorem length_upserts_of_plan_eq_ok
    (h : plan schema context keyField stored remote now = .ok p) :
    p.upserts.length = p.report.created + p.report.updated + p.report.unchanged := by
  obtain ⟨-, held, incoming, settled, -, -, -, rfl⟩ := plan_eq_ok_iff.1 h
  rw [planOf, List.length_map]
  exact (countOf_add settled).symm

/-- A report says that nothing has changed when it counts nothing but the unchanged. -/
theorem changed_eq_false_iff {report : SyncReport} :
    report.changed = false ↔ report.created = 0 ∧ report.updated = 0 ∧ report.deleted = 0 := by
  rw [SyncReport.changed, decide_eq_false_iff_not]
  omega

end Reconcile
end Inventory
