/-
# When a reconciliation fails, and what a failure leaves behind

The errors of `reconcile`.

A reconciliation goes through the stored records, then through the reported ones, then
stamps what it is going to save. Each step may refuse a record:

| step | refuses |
| --- | --- |
| looking up the key field | one that the schema does not declare |
| entering a stored record | a record without a slot for the key field |
| entering a reported record | another entity type, and a record without that slot |
| moving it to the cloud context | a context that its field does not take |
| stamping a record | a stamp that its field does not take |

On records that are built on a schema whose own fields have the types that a reconciliation
writes (`Reconcilable`) only the first refusal and that of another entity type are left
(`plan_eq_error_iff`). A call that fails has written nothing, and can be struck out of
everything that happens at the same time (`AgreeOff.foldl_of_failed`).
-/

import Inventory.Proofs.Reconcile.Contextless
import Inventory.Proofs.Reconcile.History

namespace Inventory
namespace Reconcile

variable {schema : Schema} {context keyField : String} {r existing : Record} {now : Timestamp}
  {e : RecordError}

/-! ### What stamping refuses -/

/-- What a schema declares of the fields that a reconciliation writes: the cloud context is a
text, and the stamps are instants. -/
structure Reconcilable (schema : Schema) : Prop where
  context : ∀ f, schema.field? Record.contextField = some f → f.type = .primitive .string
  stamps : ∀ field ∈ stampFields, ∀ f, schema.field? field = some f →
    f.type = .primitive .timestamp

/-- A stamp is set when the schema does not declare it or the value fits. -/
theorem exists_stamp {field : String} {v : FieldValue}
    (h : ∀ f, r.schema.field? field = some f → v.conformsTo f.type = true) :
    ∃ r', stamp r field v = .ok r' := by
  unfold stamp
  split
  · rename_i hdeclares
    obtain ⟨f, hf⟩ := Option.isSome_iff_exists.1 hdeclares
    exact ⟨_, Record.set_eq_ok_iff.2 ⟨f, hf, h f hf, rfl⟩⟩
  · exact ⟨r, rfl⟩

/-- A stamp of a record fits on a record of the same schema. -/
theorem exists_copyStamp (hexisting : existing.Filled) (hschema : r.schema = existing.schema)
    (field : String) : ∃ r', copyStamp r existing field = .ok r' := by
  unfold copyStamp
  split
  · rename_i v hv
    obtain ⟨f, hf, hfits⟩ := hexisting.fits field v hv
    refine exists_stamp fun f' hf' => ?_
    rw [hschema, hf] at hf'
    exact Option.some.inj hf' ▸ hfits
  · exact ⟨r, rfl⟩

/-- Every instant fits in the field, if it is declared. -/
def TakesInstants (schema : Schema) (field : String) : Prop :=
  ∀ f, schema.field? field = some f → ∀ t, (FieldValue.timestamp t).conformsTo f.type = true

/-- A stamp that takes instants is set. -/
theorem TakesInstants.exists_stamp {field : String} (h : TakesInstants r.schema field)
    (now : Timestamp) : ∃ r', stamp r field (.timestamp now) = .ok r' :=
  Reconcile.exists_stamp fun f hf => h f hf now

/-- The stamps of such a schema take instants. -/
theorem Reconcilable.takesInstants (h : Reconcilable schema) (field : String)
    (hfield : field ∈ stampFields) : TakesInstants schema field := by
  intro f hf t
  rw [h.stamps field hfield f hf]
  rfl

/-- So each of its stamps is set. -/
theorem Reconcilable.exists_stamp (h : Reconcilable r.schema) (field : String)
    (hfield : field ∈ stampFields) (now : Timestamp) :
    ∃ r', stamp r field (.timestamp now) = .ok r' :=
  (h.takesInstants field hfield).exists_stamp now

/-- **A record whose key is stored is stamped** where the fields that get the time take it.
The changed stamp gets it only if values differ. -/
theorem exists_matched (hexisting : existing.Filled) (hschema : r.schema = existing.schema)
    (hchanged : TakesInstants existing.schema changedField
      ∨ ∀ r₁, copyStamp (r.withId existing.id) existing createdField = .ok r₁ →
        r₁.sameValuesExcept stampFields existing = true)
    (hrefreshed : TakesInstants existing.schema refreshedField) (now : Timestamp) :
    ∃ settled, matched now existing r = .ok settled := by
  obtain ⟨r₁, h₁⟩ := exists_copyStamp (r := r.withId existing.id) hexisting hschema createdField
  have hschema₁ : r₁.schema = existing.schema :=
    (copyStamp_eq_ok (by decide) h₁).1.schema.trans hschema
  -- the creation stamp is copied from the stored record; the change stamp is copied or set anew
  obtain ⟨r₂, o, h₂, hschema₂⟩ : ∃ r₂ o,
      (r₁.sameValuesExcept stampFields existing = true
          ∧ copyStamp r₁ existing changedField = .ok r₂ ∧ o = Outcome.unchanged
        ∨ r₁.sameValuesExcept stampFields existing = false
          ∧ stamp r₁ changedField (.timestamp now) = .ok r₂ ∧ o = .updated)
        ∧ r₂.schema = existing.schema := by
    cases hsame : r₁.sameValuesExcept stampFields existing with
    | true =>
      obtain ⟨r₂, h₂⟩ := exists_copyStamp hexisting hschema₁ changedField
      have hschema₂ := (copyStamp_eq_ok (by decide) h₂).1.schema
      exact ⟨r₂, .unchanged, .inl ⟨rfl, h₂, rfl⟩, hschema₂.trans hschema₁⟩
    | false =>
      have hchanged := hchanged.resolve_right fun hall => nomatch hsame.symm.trans (hall r₁ h₁)
      rw [← hschema₁] at hchanged
      obtain ⟨r₂, h₂⟩ := hchanged.exists_stamp now
      have hschema₂ := (stamp_eq_ok (by decide) h₂).1.schema
      exact ⟨r₂, .updated, .inr ⟨rfl, h₂, rfl⟩, hschema₂.trans hschema₁⟩
  rw [← hschema₂] at hrefreshed
  obtain ⟨r₃, h₃⟩ := hrefreshed.exists_stamp now
  exact ⟨(r₃, o), matched_eq_ok_iff.2 ⟨r₁, r₂, h₁, h₂, h₃⟩⟩

/-- **A record whose key is new is stamped.** -/
theorem Reconcilable.exists_fresh (h : Reconcilable r.schema) (now : Timestamp) :
    ∃ settled, fresh now r = .ok settled := by
  obtain ⟨r₁, h₁, hschema₁⟩ : ∃ r₁, freshStamp now r = .ok r₁ ∧ r₁.schema = r.schema := by
    obtain ⟨r₁, h₁⟩ := h.exists_stamp createdField (by decide) now
    have hschema₁ := (stamp_eq_ok (by decide) h₁).1.schema
    unfold freshStamp
    split
    · exact ⟨r₁, h₁, hschema₁⟩
    · exact ⟨r₁, h₁, hschema₁⟩
    · exact ⟨r, rfl, rfl⟩
  obtain ⟨r₂, h₂⟩ := (hschema₁ ▸ h).exists_stamp changedField (by decide) now
  have hschema₂ : r₂.schema = r.schema := (stamp_eq_ok (by decide) h₂).1.schema.trans hschema₁
  obtain ⟨r₃, h₃⟩ := (hschema₂ ▸ h).exists_stamp refreshedField (by decide) now
  exact ⟨(r₃, .created), fresh_eq_ok_iff.2 ⟨r₁, r₂, h₁, h₂, h₃, rfl⟩⟩

/-! ### What a plan refuses -/

/-- **Step:** on such schemas every reported record is settled. -/
theorem exists_settle {stored : OrderedMap String Record} {entry : String × Record}
    (h : Reconcilable entry.2.schema)
    (hstored : ∀ existing, stored.get? entry.1 = some existing →
      existing.Filled ∧ entry.2.schema = existing.schema) (now : Timestamp) :
    ∃ settled, settle now stored entry = .ok settled := by
  unfold settle
  cases hkey : stored.get? entry.1 with
  | none => exact h.exists_fresh now
  | some existing =>
    obtain ⟨hfilled, hschema⟩ := hstored existing hkey
    rw [hschema] at h
    exact exists_matched hfilled hschema (.inl (h.takesInstants changedField (by decide)))
      (h.takesInstants refreshedField (by decide)) now

/-- Moving a built record to a cloud context always succeeds. -/
theorem exists_moved (h : Reconcilable schema) (hr : r.BuiltOn schema) (context : String) :
    ∃ r', moved schema context r = .ok r' ∧ r'.BuiltOn schema := by
  unfold moved
  split
  · rename_i hdeclares
    obtain ⟨f, hf⟩ := Option.isSome_iff_exists.1 hdeclares
    have hfits : (FieldValue.string context).conformsTo f.type = true := by
      rw [h.context f hf]
      rfl
    have hset := Record.set_eq_ok_iff.2 ⟨f, hr.schema_eq.symm ▸ hf, hfits, rfl⟩
    exact ⟨_, hset, hr.set (fun _ hitems => by cases hitems) hset⟩
  · exact ⟨r, rfl, hr⟩

/-- A built record has a slot for every declared field. -/
theorem isSome_slot (hr : r.BuiltOn schema) (hkey : schema.declares keyField = true) :
    (r.slots.get? keyField).isSome := by
  rw [hr.wellFormed.filled.isSome_slot_eq, hr.schema_eq, hkey]

theorem builtOn_of_entered (h : Reconcilable schema) {remote : List Record}
    (hremote : ∀ r ∈ remote, r.entityType = schema.name → r.BuiltOn schema)
    {incoming : ReportedIndex}
    (hincoming : remote.foldlM (ReportedIndex.enter schema context keyField) {} = .ok incoming) :
    ∀ entry ∈ incoming.byKey.entries, entry.2.BuiltOn schema := by
  obtain ⟨place, hplace⟩ := exists_places schema context
  have hindex := ReportedIndex.holds_of_foldlM hplace hincoming
  intro entry hentry
  have hnodup := ReportedIndex.nodup_of_foldlM hincoming
  have hlast := (OrderedMap.get?_eq_some_iff hnodup).2 hentry
  rw [hindex.last] at hlast
  obtain ⟨r, hr, hplaced⟩ := List.mem_map.1 (List.mem_reverse.1 (mem_of_firstWith hlast).1)
  obtain ⟨r', hmoved, hr'⟩ := exists_moved h (hremote r hr (hindex.types r hr)) context
  obtain rfl : r' = entry.2 := (hplace r r' hmoved).trans hplaced
  exact hr'

/-- **Entering the reported records** fails at the first one of another entity type. -/
theorem entered_eq_error_iff (h : Reconcilable schema) (hkey : schema.declares keyField = true)
    {remote : List Record}
    (hremote : ∀ r ∈ remote, r.entityType = schema.name → r.BuiltOn schema) :
    remote.foldlM (ReportedIndex.enter schema context keyField) {} = .error e ↔
      ∃ r, remote.find? (fun r => r.entityType ≠ schema.name) = some r
        ∧ e = .entityTypeMismatch schema.name r.entityType := by
  refine foldlM_eq_error_iff (fun index r hr hsame => ?_) fun index r hr hother => ?_
  · have htype : r.entityType = schema.name := by simpa using hsame
    obtain ⟨r', hmoved, hr'⟩ := exists_moved h (hremote r hr htype) context
    exact ReportedIndex.exists_enter_iff.2 ⟨htype, r', hmoved, isSome_slot hr' hkey⟩
  · exact ReportedIndex.enter_of_ne (by simpa using hother)

/-- **Every entered record is settled.** -/
theorem exists_settled_of_entered (h : Reconcilable schema) {stored remote : List Record}
    (hstored : ∀ r ∈ stored, r.BuiltOn schema)
    (hremote : ∀ r ∈ remote, r.entityType = schema.name → r.BuiltOn schema)
    {held : StoredIndex} (hheld : stored.foldlM (StoredIndex.enter keyField) {} = .ok held)
    {incoming : ReportedIndex}
    (hincoming : remote.foldlM (ReportedIndex.enter schema context keyField) {} = .ok incoming)
    (now : Timestamp) :
    ∃ settled, incoming.byKey.entries.mapM (settle now held.byKey) = .ok settled := by
  refine exists_mapM fun entry hentry => ?_
  have hentry := builtOn_of_entered h hremote hincoming entry hentry
  refine exists_settle (hentry.schema_eq.symm ▸ h) (fun existing hexisting => ?_) now
  rw [(StoredIndex.holds_of_foldlM hheld).first] at hexisting
  have hbuilt := hstored existing (mem_of_firstWith hexisting).1
  exact ⟨hbuilt.wellFormed.filled, hentry.schema_eq.trans hbuilt.schema_eq.symm⟩

/-- **When a plan fails.** On records that are built on a schema whose own fields have the
types that a reconciliation writes, a plan fails when the key field is not declared, or else
at the first reported record of another entity type. -/
theorem plan_eq_error_iff (h : Reconcilable schema) {stored remote : List Record}
    (hstored : ∀ r ∈ stored, r.BuiltOn schema)
    (hremote : ∀ r ∈ remote, r.entityType = schema.name → r.BuiltOn schema) :
    plan schema context keyField stored remote now = .error e ↔
      schema.declares keyField = false ∧ e = .schema (.fieldNotFound schema.name keyField)
        ∨ schema.declares keyField = true
          ∧ ∃ r, remote.find? (fun r => r.entityType ≠ schema.name) = some r
            ∧ e = .entityTypeMismatch schema.name r.entityType := by
  cases hfield : schema.field? keyField with
  | none =>
    have hdeclares : schema.declares keyField = false := by rw [Schema.declares, hfield]; rfl
    simp [plan, Schema.requireField, hfield, hdeclares, bind, Except.bind, throw, throwThe,
      MonadExceptOf.throw, eq_comm]
  | some f =>
    have hdeclares : schema.declares keyField = true := by rw [Schema.declares, hfield]; rfl
    -- stored records are built, so their pass cannot fail, and neither can the one that settles
    obtain ⟨held, hheld⟩ : ∃ held, stored.foldlM (StoredIndex.enter keyField) {} = .ok held :=
      StoredIndex.exists_foldlM_iff.2 fun r hr => isSome_slot (hstored r hr) hdeclares
    have hentered : remote.foldlM (ReportedIndex.enter schema context keyField) {} = .error e ↔ _ :=
      entered_eq_error_iff h hdeclares hremote
    simp only [hdeclares, Bool.true_eq_false, false_and, false_or, true_and, ← hentered]
    constructor
    · intro hplan
      cases hincoming : remote.foldlM (ReportedIndex.enter schema context keyField) {} with
      | error e' =>
        simp only [plan, Schema.requireField, hfield, hheld, hincoming] at hplan
        have hsame : (.error e' : Except RecordError Plan) = .error e := hplan
        rw [Except.error.inj hsame]
      | ok incoming =>
        obtain ⟨settled, hsettled⟩ :=
          exists_settled_of_entered h hstored hremote hheld hincoming now
        have hok := plan_eq_ok_iff.2
          ⟨hdeclares, held, incoming, settled, hheld, hincoming, hsettled, rfl⟩
        cases hok.symm.trans hplan
    · intro herror
      simp only [plan, Schema.requireField, hfield, hheld, herror]
      rfl

/-! ### What a failure leaves behind -/

/-- Two situations in which the store and every call but one are the same. -/
structure AgreeOff {ι σ : Type} (i : ι) (x y : Situation ι σ) : Prop where
  store : x.store = y.store
  progress : ∀ j, j ≠ i → x.progress j = y.progress j

section Interleaving

variable {ι σ : Type} [DecidableEq ι] [Watcher σ] {calls : ι → Call} {x y : Situation ι σ} {i j : ι}

/-- An access of another call does the same in both situations. -/
theorem AgreeOff.access (h : AgreeOff i x y) (hij : j ≠ i) :
    AgreeOff i (x.access calls j) (y.access calls j) := by
  have hsame (answer : Progress) : ∀ k, k ≠ i →
      Function.update x.progress j answer k = Function.update y.progress j answer k := by
    intro k hk
    by_cases hkj : k = j
    · rw [hkj, Function.update_self, Function.update_self]
    · rw [Function.update_of_ne hkj, Function.update_of_ne hkj, h.progress k hk]
  cases hx : x.progress j with
  | waiting =>
    have hy : y.progress j = .waiting := (h.progress j hij).symm.trans hx
    rw [Situation.access_of_waiting hx, Situation.access_of_waiting hy, h.store]
    exact ⟨rfl, hsame _⟩
  | planned p =>
    have hy : y.progress j = .planned p := (h.progress j hij).symm.trans hx
    rw [Situation.access_of_planned hx, Situation.access_of_planned hy, h.store]
    exact ⟨rfl, hsame _⟩
  | finished answer =>
    have hy : y.progress j = .finished answer := (h.progress j hij).symm.trans hx
    rwa [Situation.access_of_finished hx, Situation.access_of_finished hy]

/-- Until it writes, a call shows to no other. -/
theorem AgreeOff.access_left (h : AgreeOff i x y) (hplanned : ∀ p, x.progress i ≠ .planned p) :
    AgreeOff i (x.access calls i) y := by
  cases hx : x.progress i with
  | waiting =>
    rw [Situation.access_of_waiting hx]
    exact ⟨h.store, fun j hij => (Function.update_of_ne hij _ _).trans (h.progress j hij)⟩
  | planned p => exact absurd hx (hplanned p)
  | finished answer => rwa [Situation.access_of_finished hx]

/-- **A call that fails can be struck out** of what follows. -/
theorem AgreeOff.foldl_of_failed {order : List ι} (h : AgreeOff i x y)
    (hfailed : (order.foldl (Situation.access calls) x).progress i = .finished (.error e)) :
    AgreeOff i (order.foldl (Situation.access calls) x)
      ((order.filter (· ≠ i)).foldl (Situation.access calls) y) := by
  induction order generalizing x y with
  | nil => exact h
  | cons j rest ih =>
    rw [List.foldl_cons] at hfailed ⊢
    by_cases hij : j = i
    · subst hij
      rw [List.filter_cons_of_neg (by simp)]
      refine ih (h.access_left fun p hp => ?_) hfailed
      -- a call that has planned answers with a report
      have hanswer : (x.access calls j).progress j = .finished (.ok p.report) := by
        rw [Situation.access_of_planned hp]
        exact Function.update_self _ _ _
      cases hfailed.symm.trans (Situation.progress_foldl_of_finished hanswer rest)
    · rw [List.filter_cons_of_pos (by simpa using hij), List.foldl_cons]
      exact ih (h.access hij) hfailed

/-- **Failures.** A call that fails, alone or while others go on, leaves the store and its
watcher as they would be without it. On records that are built on a schema whose own fields
have the types that a reconciliation writes, it fails when the key field is not declared, or
else at the first reported record of another entity type. -/
theorem fails_cleanly (calls : ι → Call) (i : ι) (s : Store σ) :
    (∀ e, ((calls i).alone s).1 = .error e → ((calls i).alone s).2 = s)
      ∧ (∀ order e, (interleave calls s order).progress i = .finished (.error e) →
        AgreeOff i (interleave calls s order) (interleave calls s (order.filter (· ≠ i))))
      ∧ (Reconcilable (calls i).schema →
        (∀ r ∈ s.records.values ++ (calls i).remote, r.entityType = (calls i).schema.name →
          r.BuiltOn (calls i).schema) →
        ∀ e, ((calls i).alone s).1 = .error e ↔
          (calls i).schema.declares (calls i).keyField = false
              ∧ e = .schema (.fieldNotFound (calls i).schema.name (calls i).keyField)
            ∨ (calls i).schema.declares (calls i).keyField = true
              ∧ ∃ r, (calls i).remote.find? (fun r => r.entityType ≠ (calls i).schema.name) = some r
                ∧ e = .entityTypeMismatch (calls i).schema.name r.entityType) := by
  refine ⟨fun e he => ?_, fun order e he => ?_, fun hschema hbuilt e => ?_⟩
  · cases hplan : (calls i).plan s with
    | error e' => rw [Call.alone_of_plan_eq_error hplan]
    | ok p =>
      rw [Call.alone_of_plan_eq_ok hplan] at he
      cases he
  · have hstart : AgreeOff i (Situation.start s : Situation ι σ) (.start s) :=
      ⟨rfl, fun _ _ => rfl⟩
    exact hstart.foldl_of_failed he
  · have hplan : ((calls i).alone s).1 = .error e ↔ (calls i).plan s = .error e := by
      cases hplan : (calls i).plan s with
      | error e' => simp [Call.alone_of_plan_eq_error hplan]
      | ok p => simp [Call.alone_of_plan_eq_ok hplan]
    rw [hplan, Call.plan]
    refine plan_eq_error_iff hschema (fun r hr => ?_) fun r hr htype => ?_
    · obtain ⟨hr, -⟩ := List.mem_filter.1 hr
      obtain ⟨hr, htype⟩ := List.mem_filter.1 hr
      exact hbuilt r (List.mem_append_left _ hr) (of_decide_eq_true htype)
    · exact hbuilt r (List.mem_append_right _ hr) htype

end Interleaving

/-- A run that finds a machine, and a region where a machine belongs. -/
def mixedCall : Call where
  schema := machineSchema
  context := "east"
  keyField := "name"
  remote := [webIn "east" 31, region 32 "eu"]
  now := .epoch

/-- A run that finds one machine in `east`. -/
def soundCall : Call := { mixedCall with remote := [webIn "east" 33] }

/-- The store with one machine. -/
def oneMachine : Store InvalidationCount := (Store.new {}).applyBatch [webIn "east" 34] []

/-- The region is refused, and the other run ends as it does alone. -/
theorem fails_cleanly_mixed :
    (mixedCall.alone oneMachine).1 = .error (.entityTypeMismatch "machine" "region")
      ∧ (mixedCall.alone oneMachine).2 = oneMachine
      ∧ (interleave ![mixedCall, soundCall] oneMachine [0, 1, 0, 1]).store
        = (interleave ![mixedCall, soundCall] oneMachine [1, 1]).store := by
  have hall := fails_cleanly ![mixedCall, soundCall] 0 oneMachine
  obtain ⟨hsame, hstruck, hiff⟩ := hall
  have hbuilt : ∀ r ∈ oneMachine.records.values ++ mixedCall.remote,
      r.entityType = machineSchema.name → r.BuiltOn machineSchema := by
    have hvalues : oneMachine.records.values = [webIn "east" 34] := rfl
    simp only [hvalues, mixedCall, List.cons_append, List.nil_append, List.forall_mem_cons]
    refine ⟨fun _ => builtOn_webIn _ _, fun _ => builtOn_webIn _ _, fun htype => ?_, nofun⟩
    exact absurd htype (by decide +kernel)
  have hfails : (mixedCall.alone oneMachine).1 = .error (.entityTypeMismatch "machine" "region") :=
    (hiff ⟨by decide +kernel, by decide +kernel⟩ hbuilt _).2
      (.inr ⟨by decide +kernel, region 32 "eu", rfl, rfl⟩)
  refine ⟨hfails, hsame _ hfails, ?_⟩
  exact (hstruck [0, 1, 0, 1] (.entityTypeMismatch "machine" "region") rfl).store

end Reconcile
end Inventory
