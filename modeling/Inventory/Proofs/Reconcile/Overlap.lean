/-
# Reconciliations of one scope at the same time

Calls of `reconcile` of one scope on one store.

A reconciliation plans for the store as it reads it, and other calls may write before it
does. Two calls of one scope that follow each other leave at most one stored record of each
key: the second reads what the first wrote. Calls that overlap both read before either
writes. For a key that is stored then, both write under the identifier of its first stored
record, and the second write replaces the first. For a new key each writes under the
identifier that its own record brings, and both records stay.

| a key that both report | calls one after the other | calls that overlap |
| --- | --- | --- |
| was stored | one record | one record |
| is new | one record | two records |

So overlapping calls leave one record per key exactly when every key that both of them
report was stored (`onePerKey_interleave_iff`).
-/

import Inventory.Proofs.Reconcile.Interleaving
import Inventory.Proofs.Reconcile.Result
import Mathlib.Data.List.Pairwise

namespace Inventory
namespace Reconcile

/-- No key is held by two stored records. -/
def OnePerKey (scope : Scope) (records : List Record) : Prop :=
  (records.filterMap scope.key?).Nodup

instance (scope : Scope) (records : List Record) : Decidable (OnePerKey scope records) :=
  inferInstanceAs (Decidable (List.Nodup _))

variable {scope : Scope} {records : OrderedMap Ulid Record} {remote : List Record} {p : Plan}

/-- Stored records with one key are one record. -/
theorem onePerKey_iff (hs : Store.Consistent records) :
    OnePerKey scope records.values ↔ ∀ r ∈ records.values, ∀ r' ∈ records.values, ∀ key,
      scope.key? r = some key → scope.key? r' = some key → r = r' := by
  rw [OnePerKey, List.Nodup, List.pairwise_filterMap]
  constructor
  · intro h r hr r' hr' key hk hk'
    by_contra hne
    have hsymm : Std.Symm fun r r' : Record =>
        ∀ key, scope.key? r = some key → ∀ key', scope.key? r' = some key' → key ≠ key' :=
      ⟨fun _ _ h key hk key' hk' => (h key' hk' key hk).symm⟩
    exact h.forall hr hr' hne key hk key hk' rfl
  · intro h
    refine (hs.nodup_map_id.of_map Record.id).pairwise_of_forall_ne ?_
    rintro r hr r' hr' hne key hk key' hk' rfl
    exact hne (h r hr r' hr' key hk hk')

/-- **A plan that is written to the store that was read** leaves one record per key. -/
theorem Planned.onePerKey (hp : Planned scope records.values remote p)
    (hkey : scope.keyField ∉ stampFields) (hs : Store.Consistent records) :
    OnePerKey scope (Store.batched records p.upserts p.deletes).values := by
  refine (onePerKey_iff (hs.batched _ _)).2 fun r hr r' hr' key hk hk' => ?_
  exact hp.eq_of_mem_after hkey hs hr hr' hk hk'

/-! ### Two plans for one store -/

namespace Planned

variable {remote' : List Record} {p' : Plan}

/-- A record with a key was saved by one of the plans. -/
theorem mem_upserts_of_mem_after_both (hp : Planned scope records.values remote p)
    (hkey : scope.keyField ∉ stampFields) (hs : Store.Consistent records) {r : Record}
    (hr : r ∈ (Store.batched (Store.batched records p.upserts p.deletes) p'.upserts
      p'.deletes).values)
    (hsome : (scope.key? r).isSome) : r ∈ p.upserts ∨ r ∈ p'.upserts := by
  have hmid := hs.batched p.upserts p.deletes
  rw [(hmid.batched _ _).mem_values_iff] at hr
  obtain ⟨-, ⟨hsaved, -⟩ | ⟨-, hget⟩⟩ := Store.saved_or_kept hr
  · exact .inr hsaved
  · exact .inl (hp.mem_upserts_of_mem_after hkey hs (hmid.mem_values_iff.2 hget) hsome)

/-- **Where the keys that both report are stored**, both plans have the same targets. -/
theorem onePerKey_of_stored (hp : Planned scope records.values remote p)
    (hp' : Planned scope records.values remote' p') (hkey : scope.keyField ∉ stampFields)
    (hs : Store.Consistent records)
    (hstored : ∀ key ∈ scope.keys remote, key ∈ scope.keys remote' →
      (scope.first? records.values key).isSome) :
    OnePerKey scope (Store.batched (Store.batched records p.upserts p.deletes) p'.upserts
      p'.deletes).values := by
  have hafter := (hs.batched p.upserts p.deletes).batched p'.upserts p'.deletes
  refine (onePerKey_iff hafter).2 fun r hr r' hr' key hk hk' => hafter.eq_of_id_eq hr hr' ?_
  have hmixed {u u' : Record} (hu : u ∈ p.upserts) (hu' : u' ∈ p'.upserts)
      (hk : scope.key? u = some key) (hk' : scope.key? u' = some key) : u.id = u'.id := by
    obtain ⟨hmem, hsaves⟩ := hp.saves_of_key hkey hu hk
    obtain ⟨hmem', hsaves'⟩ := hp'.saves_of_key hkey hu' hk'
    obtain ⟨r₀, h₀⟩ := Option.isSome_iff_exists.1 (hstored key hmem hmem')
    have htarget := hsaves.target.symm.trans (Scope.target?_of_first? h₀)
    have htarget' := hsaves'.target.symm.trans (Scope.target?_of_first? h₀)
    exact Option.some.inj (htarget.trans htarget'.symm)
  rcases hp.mem_upserts_of_mem_after_both hkey hs hr (by rw [hk]; rfl) with hu | hu <;>
    rcases hp.mem_upserts_of_mem_after_both hkey hs hr' (by rw [hk']; rfl) with hu' | hu'
  · have htarget := (hp.saves_of_key hkey hu hk).2.target
    exact Option.some.inj (htarget.symm.trans (hp.saves_of_key hkey hu' hk').2.target)
  · exact hmixed hu hu' hk hk'
  · exact (hmixed hu' hu hk' hk).symm
  · have htarget := (hp'.saves_of_key hkey hu hk).2.target
    exact Option.some.inj (htarget.symm.trans (hp'.saves_of_key hkey hu' hk').2.target)

/-- The record that is saved for a new key stands under a reported identifier. -/
theorem exists_saved_of_new (hp : Planned scope records.values remote p)
    (hkey : scope.keyField ∉ stampFields) {key : String} (hmem : key ∈ scope.keys remote)
    (hnew : scope.first? records.values key = none) :
    ∃ u ∈ p.upserts, Saves scope records.values remote key u ∧ ∃ r ∈ remote, r.id = u.id := by
  obtain ⟨u, hu, hsaves⟩ := exists_left_of_forall₂ (hp.saves hkey).flip hmem
  refine ⟨u, hu, hsaves, ?_⟩
  rcases Scope.target?_eq_some hsaves.target with ⟨r, -, -, hfirst, -⟩ | hid
  · rw [hnew] at hfirst
    cases hfirst
  · obtain ⟨-, r, hr, -, hid⟩ := Scope.newId?_eq_some hid
    exact ⟨r, hr, hid⟩

/-- Under an identifier that is reported to another call alone nothing is written. -/
theorem get?_after_of_unknown (hp : Planned scope records.values remote p)
    (hkey : scope.keyField ∉ stampFields) {id : Ulid} (hunknown : records.get? id = none)
    (hs : Store.Consistent records) (hne : ∀ r ∈ remote, r.id ≠ id)
    (m : OrderedMap Ulid Record) :
    (Store.batched m p.upserts p.deletes).get? id = m.get? id := by
  have hstored : ∀ r ∈ records.values, r.id ≠ id := fun r hr => hs.id_ne hr hunknown
  refine Store.get?_batched_of_notMem (fun u hu hid => ?_) (fun hdel => ?_) m
  · obtain ⟨key, -, hsaves⟩ := exists_left_of_forall₂ (hp.saves hkey) hu
    rcases Scope.target?_eq_some hsaves.target with ⟨r, hr, -, -, hr'⟩ | hnew
    · exact hstored r hr (hr'.trans hid)
    · obtain ⟨-, r, hr, -, hr'⟩ := Scope.newId?_eq_some hnew
      exact hne r hr (hr'.trans hid)
  · obtain ⟨r, hr, hid, -⟩ := (hp.deletes id).1 hdel
    exact hstored r hr hid

/-- **A new key that both report** is held twice afterwards. -/
theorem stored_of_onePerKey (hp : Planned scope records.values remote p)
    (hp' : Planned scope records.values remote' p') (hkey : scope.keyField ∉ stampFields)
    (hin : Inputs records remote) (hin' : Inputs records remote')
    (hne : ∀ r ∈ remote, ∀ r' ∈ remote', r.id ≠ r'.id)
    (h : OnePerKey scope (Store.batched (Store.batched records p.upserts p.deletes) p'.upserts
      p'.deletes).values) :
    ∀ key ∈ scope.keys remote, key ∈ scope.keys remote' →
      (scope.first? records.values key).isSome := by
  intro key hmem hmem'
  by_contra hnew
  have hs := hin.consistent
  have hnew : scope.first? records.values key = none := by simpa using hnew
  have hmid := hs.batched p.upserts p.deletes
  have hafter := hmid.batched p'.upserts p'.deletes
  -- Both runs take the key for new and save a record under an id of their own report, and
  -- neither record gives way to the other.
  obtain ⟨u, hu, hsaves, r, hr, hid⟩ := hp.exists_saved_of_new hkey hmem hnew
  obtain ⟨u', hu', hsaves', r', hr', hid'⟩ := hp'.exists_saved_of_new hkey hmem' hnew
  have hu₁ : u ∈ (Store.batched records p.upserts p.deletes).values :=
    ((hp.mem_after_iff hkey hs (hin.apart scope)).2 hu).1
  have hfirst : u ∈ (Store.batched (Store.batched records p.upserts p.deletes) p'.upserts
      p'.deletes).values := by
    rw [hafter.mem_values_iff, hp'.get?_after_of_unknown hkey (hid ▸ hin.unknown r hr) hs
      fun r' hr' => hid ▸ (hne r hr r' hr').symm]
    exact hmid.mem_values_iff.1 hu₁
  have hsecond : u' ∈ (Store.batched (Store.batched records p.upserts p.deletes) p'.upserts
      p'.deletes).values := by
    have ha := hin'.apart scope
    rw [hafter.mem_values_iff, Store.get?_batched_eq_some_iff (hp'.nodup_upserts hkey hs ha)]
    exact ⟨hp'.id_notMem_deletes hs ha hmem' hsaves'.target, .inl ⟨hu', rfl⟩⟩
  have hsame := (onePerKey_iff hafter).1 h u hfirst u' hsecond key hsaves.hasKey hsaves'.hasKey
  exact hne r hr r' hr' (by rw [hid, hid', hsame])

end Planned

/-! ### Two calls for one scope -/

variable {σ : Type}

/-- Whether a call has finished with a report. -/
def Progress.Succeeded (progress : Progress) : Prop := ∃ report, progress = .finished (.ok report)

instance : DecidablePred Progress.Succeeded
  | .finished (.ok report) => .isTrue ⟨report, rfl⟩
  | .finished (.error _) => .isFalse nofun
  | .planned _ => .isFalse nofun
  | .waiting => .isFalse nofun

/-- Whether both calls read the store before either of them writes. -/
def Overlapping (order : List (Fin 2)) : Prop := (order.take 2).Nodup

/-- Calls for one scope, to which records are reported that are new to the store and to
each other. -/
structure Rivals (calls : Fin 2 → Call) (scope : Scope) (s : Store σ) : Prop
    extends BringNew calls s where
  scope_eq : ∀ i, (calls i).scope = scope
  unstamped : scope.keyField ∉ stampFields

/-- What holds of both of two calls holds of each. -/
theorem forall_iff_of_ne {i j : Fin 2} (hij : i ≠ j) {P : Fin 2 → Prop} :
    (∀ m, P m) ↔ P i ∧ P j := by
  refine ⟨fun h => ⟨h i, h j⟩, fun h m => ?_⟩
  rcases (by omega : m = i ∨ m = j) with rfl | rfl
  · exact h.1
  · exact h.2

/-- Two calls follow each other, or both read first. -/
theorem order_cases {order : List (Fin 2)} (h : order.Perm [0, 0, 1, 1]) :
    (∃ i j, i ≠ j ∧ order = [i, i, j, j])
      ∨ Overlapping order ∧ ∃ i j k l, i ≠ j ∧ k ≠ l ∧ order = [i, j, k, l] := by
  have hall : ∀ i j k l : Fin 2, [i, j, k, l].count 0 = 2 →
      i = j ∧ j ≠ k ∧ k = l ∨ i ≠ j ∧ k ≠ l := by
    decide
  match order, h.length_eq, h.count_eq 0 with
  | [i, j, k, l], _, hcount =>
    rcases hall i j k l hcount with ⟨rfl, hjk, rfl⟩ | ⟨hij, hkl⟩
    · exact .inl ⟨i, k, hjk, rfl⟩
    · have hnodup : [i, j].Nodup := by simpa using hij
      exact .inr ⟨hnodup, i, j, k, l, hij, hkl, rfl⟩

variable {calls : Fin 2 → Call} {s : Store σ} {i j k l : Fin 2}

/-- A call that plans for any consistent store plans as it should. -/
theorem Rivals.planned (h : Rivals calls scope s) {t : Store σ} (ht : Store.Consistent t.records)
    {p : Plan} (hplan : (calls i).plan t = .ok p) :
    Planned scope t.records.values (calls i).remote p :=
  h.scope_eq i ▸ Call.planned_of_plan_eq_ok ht (h.declares i) hplan

variable [Watcher σ]

/-- A call succeeds exactly when it has a plan. -/
theorem Call.succeeded_iff {c : Call} :
    (Progress.finished (c.alone s).1).Succeeded ↔ ∃ p, c.plan s = .ok p := by
  constructor
  · rintro ⟨report, h⟩
    cases hplan : c.plan s with
    | ok p => exact ⟨p, rfl⟩
    | error e =>
      rw [alone_of_plan_eq_error hplan] at h
      cases h
  · rintro ⟨p, hplan⟩
    exact ⟨p.report, by rw [alone_of_plan_eq_ok hplan]⟩

/-- A plan for whatever was read keeps the store consistent. -/
theorem Call.consistent_write (c : Call) (read : Store σ) {store : Store σ}
    (hs : Store.Consistent store.records) : Store.Consistent (c.write read store).records := by
  cases h : c.plan read with
  | ok p =>
    rw [write_of_plan_eq_ok h, Store.records_applyBatch]
    exact hs.batched _ _
  | error e => rwa [write_of_plan_eq_error h]

namespace Rivals

/-- A call by itself leaves one record per key, unless it fails. -/
theorem onePerKey_write_iff (h : Rivals calls scope s) {t : Store σ}
    (ht : Store.Consistent t.records) :
    OnePerKey scope ((calls i).write t t).records.values ↔
      (¬ (∃ p, (calls i).plan t = .ok p) → OnePerKey scope t.records.values) := by
  cases hplan : (calls i).plan t with
  | ok p =>
    rw [Call.write_of_plan_eq_ok hplan, Store.records_applyBatch]
    exact iff_of_true ((h.planned ht hplan).onePerKey h.unstamped ht)
      fun hnone => absurd ⟨p, rfl⟩ hnone
  | error e =>
    rw [Call.write_of_plan_eq_error hplan]
    simp

/-- **Calls that follow each other** leave one record per key, unless both fail. -/
theorem onePerKey_serial (h : Rivals calls scope s) (hij : i ≠ j) :
    OnePerKey scope (interleave calls s [i, i, j, j]).store.records.values ↔
      ((∀ m, ¬ ((interleave calls s [i, i, j, j]).progress m).Succeeded) →
        OnePerKey scope s.records.values) := by
  obtain ⟨hstore, hi, hj⟩ := interleave_pairs calls s hij
  rw [hstore, forall_iff_of_ne hij, hi, hj, Call.succeeded_iff, Call.succeeded_iff, Call.snd_alone,
    Call.snd_alone, h.onePerKey_write_iff (Call.consistent_write _ _ h.consistent),
    h.onePerKey_write_iff h.consistent]
  tauto

/-- **Calls that overlap and succeed** leave one record per key exactly when the keys that
both report were stored. -/
theorem onePerKey_overlapped_of_plan (h : Rivals calls scope s) (hkl : k ≠ l) {p p' : Plan}
    (hk : (calls k).plan s = .ok p) (hl : (calls l).plan s = .ok p') :
    OnePerKey scope ((calls l).write s ((calls k).write s s)).records.values ↔
      ∀ key, (∀ m, key ∈ scope.keys (calls m).remote) →
        (scope.first? s.records.values key).isSome := by
  have hp := h.planned h.consistent hk
  have hp' := h.planned h.consistent hl
  rw [Call.write_of_plan_eq_ok hl, Call.write_of_plan_eq_ok hk, Store.records_applyBatch,
    Store.records_applyBatch]
  simp only [forall_iff_of_ne hkl, and_imp]
  exact ⟨hp.stored_of_onePerKey hp' h.unstamped (h.inputs k) (h.inputs l) (h.distinct k l hkl),
    hp.onePerKey_of_stored hp' h.unstamped h.consistent⟩

/-- **Calls that overlap** leave one record per key when one of them fails and the other
does not. When both fail, the store is as it was. -/
theorem onePerKey_overlapped (h : Rivals calls scope s) (hij : i ≠ j) (hkl : k ≠ l) :
    OnePerKey scope (interleave calls s [i, j, k, l]).store.records.values ↔
      ((∀ m, ((interleave calls s [i, j, k, l]).progress m).Succeeded) →
        ∀ key, (∀ m, key ∈ scope.keys (calls m).remote) →
          (scope.first? s.records.values key).isSome)
      ∧ ((∀ m, ¬ ((interleave calls s [i, j, k, l]).progress m).Succeeded) →
        OnePerKey scope s.records.values) := by
  have hmem : ∀ m, m ∈ [i, j] := by
    intro m
    rw [List.mem_pair]
    omega
  obtain ⟨hstore, hk, hl⟩ := interleave_overlapped calls s hij hkl (hmem k) (hmem l)
  rw [hstore, forall_iff_of_ne hkl, forall_iff_of_ne hkl (P := fun m => ¬ _), hk, hl,
    Call.succeeded_iff, Call.succeeded_iff]
  cases hfirst : (calls k).plan s with
  | error e =>
    rw [Call.write_of_plan_eq_error hfirst, h.onePerKey_write_iff h.consistent]
    simp
  | ok p =>
    cases hsecond : (calls l).plan s with
    | error e =>
      rw [Call.write_of_plan_eq_error hsecond, h.onePerKey_write_iff h.consistent, hfirst]
      simp
    | ok p' =>
      rw [h.onePerKey_overlapped_of_plan hkl hfirst hsecond]
      simp

end Rivals

/-- **When two reconciliations of one scope leave one record per key.** In every
interleaving both finish. Where one of them succeeds, no key is held twice afterwards,
unless both succeed, both read before either writes, and both report a key that is not
stored yet. Where both fail, the store holds what it held. -/
theorem onePerKey_interleave_iff {a b : Call} (hs : Store.Consistent s.records)
    (ha : a.schema.declares Record.contextField = true)
    (hb : b.schema.declares Record.contextField = true)
    (hscope : a.scope = b.scope) (hkey : a.keyField ∉ stampFields)
    (hdistinct : ((a.remote ++ b.remote).map Record.id).Nodup)
    (hunknown : ∀ r ∈ a.remote ++ b.remote, s.get? r.id = none)
    {order : List (Fin 2)} (horder : order.Perm [0, 0, 1, 1]) :
    (∀ i, ∃ answer, (interleave ![a, b] s order).progress i = .finished answer)
      ∧ (OnePerKey a.scope (interleave ![a, b] s order).store.records.values ↔
        ((∀ i, ((interleave ![a, b] s order).progress i).Succeeded) → Overlapping order →
          ∀ key ∈ a.scope.keys a.remote, key ∈ a.scope.keys b.remote →
            (a.scope.first? s.records.values key).isSome)
        ∧ ((∀ i, ¬ ((interleave ![a, b] s order).progress i).Succeeded) →
          OnePerKey a.scope s.records.values)) := by
  have h : Rivals ![a, b] a.scope s := {
    bringNew_pair hs ha hb hdistinct hunknown with
    scope_eq := Fin.forall_fin_two.2 ⟨rfl, hscope.symm⟩
    unstamped := hkey }
  constructor
  · have hcount : ∀ i : Fin 2, 2 ≤ [(0 : Fin 2), 0, 1, 1].count i := by decide
    exact fun i => finished_of_count (horder.count_eq i ▸ hcount i)
  · -- one call after the other, or both read before either writes
    rcases order_cases horder with ⟨i, j, hij, rfl⟩ | ⟨hover, i, j, k, l, hij, hkl, rfl⟩
    · have hover : ¬ Overlapping [i, i, j, j] := by simp [Overlapping]
      rw [h.onePerKey_serial hij]
      simp only [hover, false_imp_iff, implies_true, true_and]
    · rw [h.onePerKey_overlapped hij hkl]
      simp only [hover, true_imp_iff, Fin.forall_fin_two, and_imp]
      rfl

/-- A run that finds one machine in `east`: `web`, under a new identifier. -/
def webCall (id : BitVec 128) : Call where
  schema := machineSchema
  context := "east"
  keyField := "name"
  remote := [machine id (.string "web") (.string "on")]
  now := .epoch

/-- In `machinesBefore` two records of `web` are stored. Two runs that overlap leave one. -/
theorem onePerKey_machines :
    ¬ OnePerKey ⟨"machine", "east", "name"⟩ machinesBefore.records.values
      ∧ OnePerKey ⟨"machine", "east", "name"⟩
        (interleave ![webCall 11, webCall 12] machinesBefore
          [0, 1, 0, 1]).store.records.values := by
  obtain ⟨-, hone⟩ := onePerKey_interleave_iff (a := webCall 11) (b := webCall 12)
    consistent_machinesBefore (by decide +kernel) (by decide +kernel) rfl (by decide)
    (by decide +kernel) (by decide +kernel)
    (show [(0 : Fin 2), 1, 0, 1].Perm [0, 0, 1, 1] by decide)
  refine ⟨by decide +kernel, hone.2 ⟨fun _ _ => by decide +kernel, fun hnone => ?_⟩⟩
  exact absurd (by decide +kernel) (hnone 0)

/-- A store without machines. -/
def machinesNone : Store InvalidationCount := .new {}

/-- Where `web` is new, both runs succeed and it is stored twice. -/
theorem not_onePerKey_web :
    (∀ i, ((interleave ![webCall 21, webCall 22] machinesNone [0, 1, 0, 1]).progress i).Succeeded)
      ∧ ¬ OnePerKey ⟨"machine", "east", "name"⟩
        (interleave ![webCall 21, webCall 22] machinesNone [0, 1, 0, 1]).store.records.values := by
  decide +kernel

end Reconcile
end Inventory
