/-
# Reconciliations of different scopes

Calls of `reconcile` of different entity types or cloud contexts.

Calls for different entity types or cloud contexts do not get in each other's way. Each
call has identifiers of its own (`Call.ids`): those of the stored records of its scope and
those of the records that are reported to it. Where reported records are new to the store
and to each other, calls of different scopes have no identifier in common
(`Separate.notMem_ids`).

A call plans for the records under its own identifiers and writes under no other
(`Call.Stays`). So at any time of any interleaving the store is as it was, but for the
parts of the calls that have written, and each of these parts is what the call makes of it
alone (`Untangled`). What the calls answer, and what is stored in the end, does therefore
not depend on the order of their accesses (`commute_of_scopes_ne`).
-/

import Inventory.Proofs.Reconcile.Interleaving
import Inventory.Proofs.Reconcile.Result

namespace Inventory
namespace Reconcile

variable {ι σ : Type}

/-! ### What a call touches -/

namespace Call

variable {c : Call} {s : Store σ} {id : Ulid}

/-- The identifiers of the records that a call is about. -/
def ids (c : Call) (s : Store σ) : List Ulid :=
  (s.listInContext c.schema.name c.context ++ c.remote).map Record.id

/-- The identifiers of a call are those stored in its scope and those it reports. -/
theorem mem_ids_iff :
    id ∈ c.ids s ↔ (∃ r ∈ s.records.values, c.scope.Covers r ∧ r.id = id)
      ∨ ∃ r ∈ c.remote, r.id = id := by
  rw [ids, listInContext_eq_filter]
  simp [and_assoc]

/-- A plan that stays with the records that its call is about. -/
structure Stays (c : Call) (s : Store σ) (p : Plan) : Prop where
  covers : ∀ u ∈ p.upserts, c.scope.Covers u
  saved : ∀ u ∈ p.upserts, u.id ∈ c.ids s
  deleted : ∀ id ∈ p.deletes, id ∈ c.ids s

/-- **A call plans for its own records only.** -/
theorem stays_of_plan_eq_ok (hs : Store.Consistent s.records)
    (hcontext : c.schema.declares Record.contextField = true) {p : Plan} (h : c.plan s = .ok p) :
    c.Stays s p := by
  have hp := planned_of_plan_eq_ok hs hcontext h
  have hsaved : ∀ u ∈ p.upserts, c.scope.Covers u ∧ u.id ∈ c.ids s := by
    intro u hu
    obtain ⟨key, -, r, hlast, hstamped, hid⟩ := exists_left_of_forall₂ hp.upserts hu
    obtain ⟨hr, hkey⟩ := Scope.mem_of_first? hlast
    refine ⟨hstamped.covers_iff.2 (Scope.key?_eq_some_iff.1 hkey).1, mem_ids_iff.2 ?_⟩
    cases hfirst : c.scope.first? s.records.values key with
    | some r₀ =>
      obtain ⟨hr₀, hkey₀⟩ := Scope.mem_of_first? hfirst
      rw [hfirst] at hid
      exact .inl ⟨r₀, hr₀, (Scope.key?_eq_some_iff.1 hkey₀).1, hid.symm⟩
    | none =>
      obtain ⟨r₁, hr₁, rfl⟩ := List.mem_map.1 (List.mem_reverse.1 hr)
      rw [hfirst] at hid
      exact .inr ⟨r₁, hr₁, hid.symm⟩
  refine ⟨fun u hu => (hsaved u hu).1, fun u hu => (hsaved u hu).2, fun id hid => ?_⟩
  obtain ⟨r, hr, rfl, hkeeps⟩ := (hp.deletes id).1 hid
  obtain ⟨key, hkey, -⟩ := Scope.keeps_eq_false_iff.1 hkeeps
  exact mem_ids_iff.2 (.inl ⟨r, hr, (Scope.key?_eq_some_iff.1 hkey).1, rfl⟩)

end Call

/-! ### Calls that are kept apart by their scopes -/

/-- Calls for different entity types or cloud contexts, to which records are reported that
are new to the store and to each other. -/
structure Separate (calls : ι → Call) (s : Store σ) : Prop extends BringNew calls s where
  scopes : ∀ i j, i ≠ j →
    ((calls i).schema.name, (calls i).context) ≠ ((calls j).schema.name, (calls j).context)

namespace Separate

variable {calls : ι → Call} {s : Store σ} {i j : ι}

/-- No record is of two scopes. -/
theorem eq_of_covers (h : Separate calls s) {r : Record} (hi : (calls i).scope.Covers r)
    (hj : (calls j).scope.Covers r) : i = j := by
  by_contra hij
  refine h.scopes i j hij (Prod.ext (hi.1.symm.trans hj.1) ?_)
  exact Option.some.inj (hi.2.symm.trans hj.2)

/-- **Calls of different scopes** have no identifier in common. -/
theorem notMem_ids (h : Separate calls s) (hij : i ≠ j) {id : Ulid}
    (hi : id ∈ (calls i).ids s) : id ∉ (calls j).ids s := by
  intro hj
  rcases Call.mem_ids_iff.1 hi with ⟨r, hr, hcovers, rfl⟩ | ⟨r, hr, rfl⟩ <;>
    rcases Call.mem_ids_iff.1 hj with ⟨r', hr', hcovers', hid⟩ | ⟨r', hr', hid⟩
  · obtain rfl := h.consistent.eq_of_id_eq hr hr' hid.symm
    exact hij (h.eq_of_covers hcovers hcovers')
  · exact (h.inputs j).id_ne hr hr' hid.symm
  · exact (h.inputs i).id_ne hr' hr hid
  · exact h.distinct i j hij r hr r' hr' hid.symm

/-- The stored records of a scope are those under the identifiers of its call. -/
theorem covers_iff (h : Separate calls s) {r : Record} (hr : r ∈ s.records.values) :
    (calls i).scope.Covers r ↔ r.id ∈ (calls i).ids s := by
  rw [Call.mem_ids_iff]
  refine ⟨fun hcovers => .inl ⟨r, hr, hcovers, rfl⟩, ?_⟩
  rintro (⟨r', hr', hcovers, hid⟩ | ⟨r', hr', hid⟩)
  · rwa [← h.consistent.eq_of_id_eq hr' hr hid]
  · exact absurd hid.symm ((h.inputs i).id_ne hr hr')

end Separate

/-! ### Any time of any interleaving -/

variable [Watcher σ]

/-- What is known of the part of a store under a call's own identifiers, by how far the
call has come: until it writes the part is as at the start, `s`, and then it is what the
call makes of it alone. -/
inductive Call.Part (c : Call) (s store : Store σ) : Progress → Prop
  | waiting (part : Store.part store.records (c.ids s) = Store.part s.records (c.ids s)) :
      Part c s store .waiting
  | planned {p : Plan} (plan : c.plan s = .ok p)
      (part : Store.part store.records (c.ids s) = Store.part s.records (c.ids s)) :
      Part c s store (.planned p)
  | finished (part : Store.part store.records (c.ids s)
        = Store.part (c.alone s).2.records (c.ids s)) :
      Part c s store (.finished (c.alone s).1)

/-- A change outside the part does not count. -/
theorem Call.Part.congr {c : Call} {s store store' : Store σ} {progress : Progress}
    (h : c.Part s store progress)
    (hpart : Store.part store'.records (c.ids s) = Store.part store.records (c.ids s)) :
    c.Part s store' progress := by
  cases h with
  | waiting part => exact .waiting (hpart.trans part)
  | planned plan part => exact .planned plan (hpart.trans part)
  | finished part => exact .finished (hpart.trans part)

/-- What is known at any time of an interleaving of calls that began with the store `s`. -/
structure Untangled (calls : ι → Call) (s : Store σ) (x : Situation ι σ) : Prop where
  consistent : Store.Consistent x.store.records
  covers_iff : ∀ i, ∀ r ∈ x.store.records.values,
    (calls i).scope.Covers r ↔ r.id ∈ (calls i).ids s
  parts : ∀ i, (calls i).Part s x.store (x.progress i)
  others : ∀ id, (∀ i, id ∉ (calls i).ids s) → x.store.get? id = s.get? id

variable {calls : ι → Call} {s : Store σ} {x : Situation ι σ} {i : ι}

/-- Calls of different scopes start untangled. -/
theorem Separate.untangled (h : Separate calls s) : Untangled calls s (.start s) where
  consistent := h.consistent
  covers_iff _ _ hr := h.covers_iff hr
  parts _ := .waiting rfl
  others _ _ := rfl

namespace Untangled

/-- A call whose part is as at the start plans as it does at the start. -/
theorem plan_eq (h : Untangled calls s x) (hsep : Separate calls s)
    (hpart : Store.part x.store.records ((calls i).ids s)
      = Store.part s.records ((calls i).ids s)) :
    (calls i).plan x.store = (calls i).plan s := by
  have hlist {store : Store σ} (hs : Store.Consistent store.records)
      (hcovers : ∀ r ∈ store.records.values,
        (calls i).scope.Covers r ↔ r.id ∈ (calls i).ids s) :
      store.listInContext (calls i).schema.name (calls i).context
        = (Store.part store.records ((calls i).ids s)).values := by
    have hp : ∀ r ∈ store.records.values,
        decide ((calls i).scope.Covers r) = true ↔ r.id ∈ (calls i).ids s := by
      intro r hr
      rw [decide_eq_true_eq, hcovers r hr]
    rw [hs.values_part hp, Call.listInContext_eq_filter]
  rw [Call.plan, Call.plan, hlist h.consistent (h.covers_iff i),
    hlist hsep.consistent fun r hr => hsep.covers_iff hr, hpart]

/-- **Writing a plan** changes the part of its call as the call does alone, and no other. -/
theorem write [DecidableEq ι] (h : Untangled calls s x) (hsep : Separate calls s) {p : Plan}
    (hplan : (calls i).plan s = .ok p)
    (hpart : Store.part x.store.records ((calls i).ids s)
      = Store.part s.records ((calls i).ids s)) :
    Untangled calls s {
      store := x.store.applyBatch p.upserts p.deletes
      progress := Function.update x.progress i (.finished (.ok p.report)) } := by
  have hstays := Call.stays_of_plan_eq_ok hsep.consistent (hsep.declares i) hplan
  have halone := Call.alone_of_plan_eq_ok hplan
  have hrecords := Store.records_applyBatch x.store p.upserts p.deletes
  constructor
  case consistent =>
    rw [hrecords]
    exact h.consistent.batched _ _
  case covers_iff =>
    intro j r hr
    rw [hrecords, (h.consistent.batched _ _).mem_values_iff] at hr
    obtain ⟨-, ⟨hu, -⟩ | ⟨-, hget⟩⟩ := Store.saved_or_kept hr
    · -- a record that the call saved belongs to the call, and to no other
      by_cases hij : i = j
      · subst hij
        exact iff_of_true (hstays.covers r hu) (hstays.saved r hu)
      · exact iff_of_false (fun hcovers => hij (hsep.eq_of_covers (hstays.covers r hu) hcovers))
          (hsep.notMem_ids hij (hstays.saved r hu))
    · exact h.covers_iff j r (h.consistent.mem_values_iff.2 hget)
  case parts =>
    intro j
    by_cases hij : j = i
    · subst hij
      -- the writing call finds its own part as it saw it, so it leaves the part as it would alone
      have hfinished : Store.part (x.store.applyBatch p.upserts p.deletes).records
            ((calls j).ids s)
          = Store.part ((calls j).alone s).2.records ((calls j).ids s) := by
        rw [halone, Store.records_applyBatch, Store.records_applyBatch,
          Store.part_batched_of_mem hstays.saved, Store.part_batched_of_mem hstays.saved, hpart]
      have hanswer : ((calls j).alone s).1 = .ok p.report := by rw [halone]
      simp only [Function.update_self, ← hanswer]
      exact .finished hfinished
    · simp only [Function.update_of_ne hij]
      refine (h.parts j).congr ?_
      rw [hrecords]
      exact Store.part_batched_of_notMem
        (fun u hu => hsep.notMem_ids (Ne.symm hij) (hstays.saved u hu))
        (fun id hid => hsep.notMem_ids (Ne.symm hij) (hstays.deleted id hid)) _
  case others =>
    -- what no call covers is neither saved nor deleted by this one
    intro id hid
    rw [← h.others id hid, Store.get?, hrecords]
    refine Store.get?_batched_of_notMem (fun u hu he => ?_) (fun hdel => ?_) _
    · exact hid i (he ▸ hstays.saved u hu)
    · exact hid i (hstays.deleted id hdel)

/-- **Step:** whichever call accesses the store next. -/
theorem access [DecidableEq ι] (h : Untangled calls s x) (hsep : Separate calls s) (i : ι) :
    Untangled calls s (x.access calls i) := by
  have hi := h.parts i
  cases hprogress : x.progress i with
  | waiting =>
    -- the call lists its own part, which no other call has touched, and so plans as it would alone
    rw [hprogress] at hi
    obtain ⟨hpart⟩ := hi
    rw [Situation.access_of_waiting hprogress, h.plan_eq hsep hpart]
    refine ⟨h.consistent, h.covers_iff, fun j => ?_, h.others⟩
    by_cases hij : j = i
    · subst hij
      simp only [Function.update_self]
      cases hplan : (calls j).plan s with
      | ok p => exact .planned hplan hpart
      | error e =>
        have halone := Call.alone_of_plan_eq_error hplan
        have hanswer : Progress.ofPlan (.error e) = .finished ((calls j).alone s).1 := by
          rw [halone]
          rfl
        rw [hanswer]
        refine .finished ?_
        rw [halone]
        exact hpart
    · simp only [Function.update_of_ne hij]
      exact h.parts j
  | planned p =>
    rw [hprogress] at hi
    cases hi with
    | planned hplan hpart =>
      rw [Situation.access_of_planned hprogress]
      exact h.write hsep hplan hpart
  | finished answer =>
    rw [Situation.access_of_finished hprogress]
    exact h

/-- **Run:** at any time of any interleaving. -/
theorem interleave [DecidableEq ι] (hsep : Separate calls s) (order : List ι) :
    Untangled calls s (interleave calls s order) := by
  unfold Reconcile.interleave
  generalize Situation.start s = x, hsep.untangled = h
  induction order generalizing x with
  | nil => exact h
  | cons i rest ih => exact ih _ (h.access hsep i)

/-- A call that has finished answers as it does alone. -/
theorem answer_eq (h : Untangled calls s x) {answer : Except RecordError SyncReport}
    (hfinished : x.progress i = .finished answer) : answer = ((calls i).alone s).1 := by
  have hi := h.parts i
  rw [hfinished] at hi
  cases hi with
  | finished _ => rfl

/-- Under the identifiers of a call that has finished is stored what the call stores
alone. -/
theorem get?_eq (h : Untangled calls s x) {answer : Except RecordError SyncReport}
    (hfinished : x.progress i = .finished answer) {id : Ulid} (hid : id ∈ (calls i).ids s) :
    x.store.get? id = ((calls i).alone s).2.get? id := by
  have hi := h.parts i
  rw [hfinished] at hi
  cases hi with
  | finished hpart =>
    rw [Store.get?, Store.get?, ← Store.get?_part hid, hpart, Store.get?_part hid]

end Untangled

/-- **Any number of calls of different scopes.** In whatever order they access the store,
each call answers as it does alone, and the same is stored under every identifier. -/
theorem Separate.interleave_agree [DecidableEq ι] (hsep : Separate calls s)
    {order order' : List ι} (horder : ∀ i, 2 ≤ order.count i)
    (horder' : ∀ i, 2 ≤ order'.count i) :
    (∀ i, (interleave calls s order).progress i = .finished ((calls i).alone s).1)
      ∧ ∀ id, (interleave calls s order).store.get? id
        = (interleave calls s order').store.get? id := by
  have h := Untangled.interleave hsep order
  have h' := Untangled.interleave hsep order'
  have hdone (i : ι) : ∃ answer, (interleave calls s order).progress i = .finished answer :=
    finished_of_count (horder i)
  have hdone' (i : ι) : ∃ answer, (interleave calls s order').progress i = .finished answer :=
    finished_of_count (horder' i)
  refine ⟨fun i => ?_, fun id => ?_⟩
  · obtain ⟨answer, hfinished⟩ := hdone i
    rw [hfinished, h.answer_eq hfinished]
  · by_cases hid : ∃ i, id ∈ (calls i).ids s
    · obtain ⟨i, hi⟩ := hid
      obtain ⟨answer, hfinished⟩ := hdone i
      obtain ⟨answer', hfinished'⟩ := hdone' i
      rw [h.get?_eq hfinished hi, h'.get?_eq hfinished' hi]
    · rw [not_exists] at hid
      rw [h.others id hid, h'.others id hid]

/-- **Two reconciliations of different scopes commute.** Whichever comes first, each answers
with the report or the error that it answers with alone, and the same record is stored under
every identifier. The same is so when the reading and the writing of the one come before,
between or after those of the other. -/
theorem commute_of_scopes_ne {a b : Call} (hs : Store.Consistent s.records)
    (ha : a.schema.declares Record.contextField = true)
    (hb : b.schema.declares Record.contextField = true)
    (hscopes : (a.schema.name, a.context) ≠ (b.schema.name, b.context))
    (hdistinct : ((a.remote ++ b.remote).map Record.id).Nodup)
    (hunknown : ∀ r ∈ a.remote ++ b.remote, s.get? r.id = none) :
    (a.alone (b.alone s).2).1 = (a.alone s).1 ∧ (b.alone (a.alone s).2).1 = (b.alone s).1
      ∧ (∀ id, (a.alone (b.alone s).2).2.get? id = (b.alone (a.alone s).2).2.get? id)
      ∧ ∀ order : List (Fin 2), order.Perm [0, 0, 1, 1] →
        (interleave ![a, b] s order).progress 0 = .finished (a.alone s).1
        ∧ (interleave ![a, b] s order).progress 1 = .finished (b.alone s).1
        ∧ ∀ id, (interleave ![a, b] s order).store.get? id
          = (b.alone (a.alone s).2).2.get? id := by
  have hsep : Separate ![a, b] s := {
    bringNew_pair hs ha hb hdistinct hunknown with
    scopes := Fin.forall_fin_two.2
      ⟨Fin.forall_fin_two.2 ⟨fun h => absurd rfl h, fun _ => hscopes⟩,
        Fin.forall_fin_two.2 ⟨fun _ => hscopes.symm, fun h => absurd rfl h⟩⟩ }
  have hcount {order : List (Fin 2)} (h : order.Perm [0, 0, 1, 1]) (i : Fin 2) :
      2 ≤ order.count i := by
    rw [h.count_eq]
    revert i
    decide
  have hab := hcount (.refl [0, 0, 1, 1])
  have hba : ∀ i, 2 ≤ [(1 : Fin 2), 1, 0, 0].count i := by decide
  have hfirst := hsep.interleave_agree hab hba
  have hsecond := hsep.interleave_agree hba hab
  -- The two runs in order are themselves interleavings, so one lemma gives all six.
  obtain ⟨hstore, -, hb'⟩ := interleave_pairs ![a, b] s (show (0 : Fin 2) ≠ 1 by decide)
  obtain ⟨hstore', -, ha'⟩ := interleave_pairs ![a, b] s (show (1 : Fin 2) ≠ 0 by decide)
  refine ⟨?_, ?_, fun id => ?_, fun order horder => ?_⟩
  · exact Progress.finished.inj (ha'.symm.trans (hsecond.1 0))
  · exact Progress.finished.inj (hb'.symm.trans (hfirst.1 1))
  · have hsame := hsecond.2 id
    rwa [hstore, hstore'] at hsame
  · obtain ⟨hanswers, hsame⟩ := hsep.interleave_agree (hcount horder) hab
    refine ⟨hanswers 0, hanswers 1, fun id => ?_⟩
    rw [hsame id, hstore]
    rfl

/-- The machines of `east`, as in `machinesBefore`, reconciled with two reports. -/
def eastCall : Call where
  schema := machineSchema
  context := "east"
  keyField := "name"
  remote := [machine 11 (.string "new") (.string "on"), machine 12 (.string "web") (.string "off")]
  now := .epoch

/-- The machines of `west`, where there is none yet. -/
def westCall : Call :=
  { eastCall with context := "west", remote := [machine 21 (.string "web") (.string "on")] }

/-- Both report `web`. In `east` it is stored, twice. -/
theorem commute_machines :
    (eastCall.alone machinesBefore).1.isOk = true ∧ (westCall.alone machinesBefore).1.isOk = true
      ∧ (eastCall.alone (westCall.alone machinesBefore).2).1 = (eastCall.alone machinesBefore).1
      ∧ (westCall.alone (eastCall.alone machinesBefore).2).1 = (westCall.alone machinesBefore).1
      ∧ ∀ id, (interleave ![eastCall, westCall] machinesBefore [0, 1, 0, 1]).store.get? id
        = (westCall.alone (eastCall.alone machinesBefore).2).2.get? id := by
  obtain ⟨heast, hwest, -, hinterleaved⟩ := commute_of_scopes_ne (a := eastCall) (b := westCall)
    consistent_machinesBefore (by decide +kernel) (by decide +kernel) (by decide +kernel)
    (by decide +kernel) (by decide +kernel)
  refine ⟨by decide +kernel, by decide +kernel, heast, hwest, ?_⟩
  exact (hinterleaved [0, 1, 0, 1] (by decide)).2.2

end Reconcile
end Inventory
