/-
# Reconciliations at the same time

Calls of `reconcile` on one store: `list_in_context` and, later, `apply_batch`.

A reconciliation accesses the store twice. It reads the stored records of its scope and
plans; later it writes its plan as one batch. Each access is one step, but between the
two other reconciliations may access the store, so what is written was planned for the
store as it was read (`Situation.access`).

| a call is | its next access |
| --- | --- |
| waiting | reads and plans; a plan that fails finishes the call |
| planned | writes the plan, which finishes the call |
| finished | none |

An interleaving lists which call accesses the store next (`interleave`). Where a call's
two accesses follow each other, it does what it does alone (`access_access`); where two
calls both read before either writes, each writes what it planned for the store as it was
in the beginning (`interleave_overlapped`). Every call that has its turn twice finishes
(`finished_of_count`).
-/

import Inventory.Proofs.Reconcile.Batch
import Mathlib.Data.Fin.VecNotation
import Mathlib.Logic.Function.Basic

namespace Inventory
namespace Reconcile

namespace Call

variable {σ : Type} {c : Call} {s : Store σ} [Watcher σ]

/-- What a call answers when nothing comes between its two accesses, and the store after
it. -/
def alone (c : Call) (s : Store σ) : Except RecordError SyncReport × Store σ :=
  (Store.reconciling c.schema c.context c.keyField c.remote c.now).run.run s

/-- A call whose plan succeeds answers with the report and writes the plan. -/
theorem alone_of_plan_eq_ok {p : Plan} (h : c.plan s = .ok p) :
    c.alone s = (.ok p.report, s.applyBatch p.upserts p.deletes) := by
  rw [plan] at h
  rw [alone, Store.run_reconciling, h]

/-- A call whose plan fails answers with the error and leaves the store alone. -/
theorem alone_of_plan_eq_error {e : RecordError} (h : c.plan s = .error e) :
    c.alone s = (.error e, s) := by
  rw [plan] at h
  rw [alone, Store.run_reconciling, h]

/-- The store after a call has written what it planned for the store that it read. A plan
that failed writes nothing. -/
def write (c : Call) (read store : Store σ) : Store σ :=
  match c.plan read with
  | .ok p => store.applyBatch p.upserts p.deletes
  | .error _ => store

/-- A plan that succeeds is written as one batch. -/
theorem write_of_plan_eq_ok {read store : Store σ} {p : Plan} (h : c.plan read = .ok p) :
    c.write read store = store.applyBatch p.upserts p.deletes := by
  rw [write, h]

/-- A plan that fails writes nothing. -/
theorem write_of_plan_eq_error {read store : Store σ} {e : RecordError}
    (h : c.plan read = .error e) : c.write read store = store := by
  rw [write, h]

/-- A call alone writes to the store that it reads. -/
theorem snd_alone (c : Call) (s : Store σ) : (c.alone s).2 = c.write s s := by
  cases h : c.plan s with
  | ok p => rw [alone_of_plan_eq_ok h, write_of_plan_eq_ok h]
  | error e => rw [alone_of_plan_eq_error h, write_of_plan_eq_error h]

end Call

/-- How far a call has come. -/
inductive Progress where
  | waiting
  | planned (p : Plan)
  | finished (answer : Except RecordError SyncReport)

namespace Progress

/-- How far a call is once it has planned. -/
def ofPlan : Except RecordError Plan → Progress
  | .ok p => .planned p
  | .error e => .finished (.error e)

/-- The number of accesses that lie behind a call. A call whose plan fails has none left,
so it counts as having had both. -/
def stage : Progress → Nat
  | .waiting => 0
  | .planned _ => 1
  | .finished _ => 2

/-- A call that has accessed the store twice has an answer. -/
theorem exists_of_stage {progress : Progress} (h : 2 ≤ progress.stage) :
    ∃ answer, progress = .finished answer := by
  cases progress with
  | waiting => simp [stage] at h
  | planned p => simp [stage] at h
  | finished answer => exact ⟨answer, rfl⟩

/-- A call that has read has accessed the store once. -/
theorem one_le_stage_ofPlan (x : Except RecordError Plan) : 1 ≤ (ofPlan x).stage := by
  cases x <;> simp [ofPlan, stage]

end Progress

/-- The store and how far each call has come. -/
structure Situation (ι σ : Type) where
  store : Store σ
  progress : ι → Progress

/-- All calls wait. -/
def Situation.start {ι σ : Type} (s : Store σ) : Situation ι σ := ⟨s, fun _ => .waiting⟩

variable {ι σ : Type}

/-- Calls to which records are reported that are new to the store and to each other. -/
structure BringNew (calls : ι → Call) (s : Store σ) : Prop where
  consistent : Store.Consistent s.records
  declares : ∀ i, (calls i).schema.declares Record.contextField = true
  inputs : ∀ i, Inputs s.records (calls i).remote
  distinct : ∀ i j, i ≠ j → ∀ r ∈ (calls i).remote, ∀ r' ∈ (calls j).remote, r.id ≠ r'.id

/-- Two calls whose reported records are new to the store and to each other bring new ones. -/
theorem bringNew_pair {a b : Call} {s : Store σ} (hs : Store.Consistent s.records)
    (ha : a.schema.declares Record.contextField = true)
    (hb : b.schema.declares Record.contextField = true)
    (hdistinct : ((a.remote ++ b.remote).map Record.id).Nodup)
    (hunknown : ∀ r ∈ a.remote ++ b.remote, s.get? r.id = none) : BringNew ![a, b] s := by
  have hne := id_ne_of_nodup_append hdistinct
  rw [List.map_append] at hdistinct
  constructor
  case consistent => exact hs
  case declares => exact Fin.forall_fin_two.2 ⟨ha, hb⟩
  case inputs =>
    exact Fin.forall_fin_two.2
      ⟨⟨hs, hdistinct.of_append_left, fun r hr => hunknown r (List.mem_append_left _ hr)⟩,
        ⟨hs, hdistinct.of_append_right, fun r hr => hunknown r (List.mem_append_right _ hr)⟩⟩
  case distinct =>
    refine Fin.forall_fin_two.2 ⟨Fin.forall_fin_two.2 ⟨fun h => absurd rfl h, fun _ => hne⟩,
      Fin.forall_fin_two.2 ⟨fun _ r hr r' hr' => (hne r' hr' r hr).symm, fun h => absurd rfl h⟩⟩

variable [DecidableEq ι] [Watcher σ]

/-- The next access of a call to the store. -/
def Situation.access (calls : ι → Call) (x : Situation ι σ) (i : ι) : Situation ι σ :=
  match x.progress i with
  | .waiting =>
    { x with progress := Function.update x.progress i (.ofPlan ((calls i).plan x.store)) }
  | .planned p => {
      store := x.store.applyBatch p.upserts p.deletes
      progress := Function.update x.progress i (.finished (.ok p.report)) }
  | .finished _ => x

/-- The situation after accesses by the listed calls, one after another. -/
def interleave (calls : ι → Call) (s : Store σ) (order : List ι) : Situation ι σ :=
  order.foldl (Situation.access calls) (.start s)

namespace Situation

variable {calls : ι → Call} {x : Situation ι σ} {i j : ι}

/-- A call that waits reads the store and plans. -/
theorem access_of_waiting (h : x.progress i = .waiting) :
    x.access calls i
      = { x with progress := Function.update x.progress i (.ofPlan ((calls i).plan x.store)) } := by
  rw [access, h]

/-- A call that has planned writes its batch. -/
theorem access_of_planned {p : Plan} (h : x.progress i = .planned p) :
    x.access calls i = {
      store := x.store.applyBatch p.upserts p.deletes
      progress := Function.update x.progress i (.finished (.ok p.report)) } := by
  rw [access, h]

/-- A call that is finished does nothing more. -/
theorem access_of_finished {answer : Except RecordError SyncReport}
    (h : x.progress i = .finished answer) : x.access calls i = x := by
  rw [access, h]

/-- An access leaves the other calls where they are. -/
theorem progress_access_of_ne (hij : j ≠ i) : (x.access calls i).progress j = x.progress j := by
  unfold access
  cases x.progress i with
  | waiting => exact Function.update_of_ne hij _ _
  | planned p => exact Function.update_of_ne hij _ _
  | finished answer => rfl

/-- An access brings the call one step on, unless it has finished. -/
theorem stage_access :
    min 2 ((x.progress i).stage + 1) ≤ ((x.access calls i).progress i).stage := by
  cases h : x.progress i with
  | waiting =>
    simp only [access_of_waiting h, Function.update_self]
    exact Progress.one_le_stage_ofPlan _
  | planned p =>
    simp only [access_of_planned h, Function.update_self]
    exact Nat.le_refl 2
  | finished answer =>
    rw [access_of_finished h, h]
    exact Nat.min_le_left _ _

/-- **The second access** writes what was planned for the store as it was read, `s`. -/
theorem access_of_read {s : Store σ} (h : x.progress i = .ofPlan ((calls i).plan s)) :
    x.access calls i = {
      store := (calls i).write s x.store
      progress := Function.update x.progress i (.finished ((calls i).alone s).1) } := by
  cases hplan : (calls i).plan s with
  | error e =>
    rw [hplan] at h
    have hsame : Function.update x.progress i (.finished (.error e)) = x.progress := by
      rw [Function.update_eq_self_iff, h]
      rfl
    rw [access_of_finished h, Call.write_of_plan_eq_error hplan, Call.alone_of_plan_eq_error hplan,
      hsame]
  | ok p =>
    rw [hplan] at h
    rw [access_of_planned h, Call.write_of_plan_eq_ok hplan, Call.alone_of_plan_eq_ok hplan]

/-- **Where its two accesses follow each other**, a call does what it does alone. -/
theorem access_access (h : x.progress i = .waiting) :
    (x.access calls i).access calls i = {
      store := ((calls i).alone x.store).2
      progress := Function.update x.progress i (.finished ((calls i).alone x.store).1) } := by
  rw [access_of_waiting h, access_of_read (Function.update_self i _ x.progress),
    Function.update_idem, Call.snd_alone]

/-- **Step by step** a call comes as far as it has turns. -/
theorem stage_foldl (order : List ι) (x : Situation ι σ) (i : ι) :
    min 2 ((x.progress i).stage + order.count i)
      ≤ ((order.foldl (access calls) x).progress i).stage := by
  induction order generalizing x with
  | nil => exact Nat.min_le_right _ _
  | cons j rest ih =>
    have hrest := ih (x.access calls j)
    rw [List.foldl_cons]
    by_cases hij : j = i
    · subst hij
      have hstep : min 2 ((x.progress j).stage + 1) ≤ ((x.access calls j).progress j).stage :=
        stage_access
      rw [List.count_cons_self]
      omega
    · rw [progress_access_of_ne (Ne.symm hij)] at hrest
      rwa [List.count_cons_of_ne hij]

/-- A call that has finished stays as it is. -/
theorem progress_foldl_of_finished {answer : Except RecordError SyncReport}
    (h : x.progress i = .finished answer) (order : List ι) :
    (order.foldl (access calls) x).progress i = .finished answer := by
  induction order generalizing x with
  | nil => exact h
  | cons j rest ih =>
    refine ih ?_
    by_cases hij : i = j
    · subst hij
      rwa [access_of_finished h]
    · rwa [progress_access_of_ne hij]

end Situation

/-- **Every call that has its turn twice finishes.** -/
theorem finished_of_count {calls : ι → Call} {s : Store σ} {order : List ι} {i : ι}
    (h : 2 ≤ order.count i) :
    ∃ answer, (interleave calls s order).progress i = .finished answer := by
  have hstage : min 2 (((Situation.start s : Situation ι σ).progress i).stage + order.count i)
      ≤ ((interleave calls s order).progress i).stage := Situation.stage_foldl order (.start s) i
  have hstart : ((Situation.start s : Situation ι σ).progress i).stage = 0 := rfl
  exact Progress.exists_of_stage (by omega)

/-- **One call after the other** is an interleaving. -/
theorem interleave_pairs (calls : ι → Call) (s : Store σ) {i j : ι} (hij : i ≠ j) :
    (interleave calls s [i, i, j, j]).store = ((calls j).alone ((calls i).alone s).2).2
      ∧ (interleave calls s [i, i, j, j]).progress i = .finished ((calls i).alone s).1
      ∧ (interleave calls s [i, i, j, j]).progress j
        = .finished ((calls j).alone ((calls i).alone s).2).1 := by
  let x : Situation ι σ := .start s
  let y := (x.access calls i).access calls i
  have hy : y = {
      store := ((calls i).alone s).2
      progress := Function.update x.progress i (.finished ((calls i).alone s).1) } :=
    Situation.access_access rfl
  have hj : y.progress j = .waiting := by
    rw [hy]
    exact Function.update_of_ne (Ne.symm hij) _ _
  have hz : interleave calls s [i, i, j, j] = {
      store := ((calls j).alone y.store).2
      progress := Function.update y.progress j (.finished ((calls j).alone y.store).1) } :=
    Situation.access_access hj
  rw [hz, hy]
  refine ⟨rfl, ?_, Function.update_self _ _ _⟩
  exact (Function.update_of_ne hij _ _).trans (Function.update_self _ _ _)

/-- **Two calls that both read first** each write what they planned for the store as it was
in the beginning, whichever of them writes first. -/
theorem interleave_overlapped (calls : ι → Call) (s : Store σ) {i j k l : ι} (hij : i ≠ j)
    (hkl : k ≠ l) (hk : k ∈ [i, j]) (hl : l ∈ [i, j]) :
    (interleave calls s [i, j, k, l]).store = (calls l).write s ((calls k).write s s)
      ∧ (interleave calls s [i, j, k, l]).progress k = .finished ((calls k).alone s).1
      ∧ (interleave calls s [i, j, k, l]).progress l = .finished ((calls l).alone s).1 := by
  let y : Situation ι σ := (Situation.start s).access calls i
  let x : Situation ι σ := y.access calls j
  have hy : y = {
      store := s
      progress := Function.update (fun _ => .waiting) i (.ofPlan ((calls i).plan s)) } :=
    Situation.access_of_waiting rfl
  have hi : y.progress i = .ofPlan ((calls i).plan s) := by
    simp only [hy, Function.update_self]
  have hj : y.progress j = .waiting := by
    simp only [hy, Function.update_of_ne (Ne.symm hij)]
  have hx : x = {
      store := s
      progress := Function.update y.progress j (.ofPlan ((calls j).plan s)) } := by
    have hstore : y.store = s := by rw [hy]
    rw [← hstore]
    exact Situation.access_of_waiting hj
  -- after both have read, either call is about to write what it planned from the first store
  have hread {m : ι} (hm : m ∈ [i, j]) : x.progress m = .ofPlan ((calls m).plan s) := by
    rw [hx]
    rcases List.mem_pair.1 hm with rfl | rfl
    · exact (Function.update_of_ne hij _ _).trans hi
    · exact Function.update_self _ _ _
  have hfirst := Situation.access_of_read (hread hk)
  have hl' : (x.access calls k).progress l = .ofPlan ((calls l).plan s) := by
    rw [Situation.progress_access_of_ne (Ne.symm hkl), hread hl]
  have hall : interleave calls s [i, j, k, l] = (x.access calls k).access calls l := rfl
  have hstore : x.store = s := by rw [hx]
  rw [hall, Situation.access_of_read hl', hfirst, hstore]
  refine ⟨rfl, ?_, Function.update_self _ _ _⟩
  exact (Function.update_of_ne hkl _ _).trans (Function.update_self _ _ _)

end Reconcile
end Inventory
