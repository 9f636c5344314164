/-
# The stamps after a sequence of reconciliations

`reconcile`, one run after another, with its stamps.

Starting from an empty store, records of one entity type and cloud context are
reconciled again and again (`History`). A run keeps an invariant (`Told`): a key is
stored exactly when the last run reported it, in one record that has the values of the
last report and tells of its streak. So the stamps of what is stored are those that the
reports ask for (`tells_of_history`), where reports are compared after they were moved to
the cloud context.
-/

import Inventory.Proofs.Reconcile.Result
import Inventory.Proofs.Reconcile.Streaks

namespace Inventory
namespace Reconcile

/-- The stores that a sequence of reconciliations leads to from an empty one. Reported
records are built on the schema and new to the store and to each other. -/
inductive History {σ : Type} [Watcher σ] (schema : Schema) (context keyField : String) :
    List Run → Store σ → Prop
  | start (watcher : σ) : History schema context keyField [] (.new watcher)
  | run {runs : List Run} {s s' : Store σ} {run : Run} {report : SyncReport}
      (h : History schema context keyField runs s) (built : ∀ r ∈ run.remote, r.BuiltOn schema)
      (distinct : (run.remote.map Record.id).Nodup)
      (unknown : ∀ r ∈ run.remote, s.get? r.id = none)
      (ok : s.reconcile schema context keyField run.remote run.now = .ok (report, s')) :
      History schema context keyField (runs ++ [run]) s'

variable {runs : List Run} {run : Run} {key : String}

/-! ### What a run keeps -/

/-- What is known after some runs: a key is stored when the last run reported it, and what
is stored has the values of the last report and tells of its streak. -/
structure Told {σ : Type} (scope : Scope) (schema : Schema) (runs : List Run) (s : Store σ) :
    Prop where
  consistent : Store.Consistent s.records
  built : ∀ run ∈ runs, ∀ r ∈ run.remote, r.BuiltOn schema
  held : ∀ n, runs.length = n + 1 → ∀ key a, scope.reported? runs key n = some a →
    ∃ r ∈ s.records.values, scope.key? r = some key
  unique : ∀ r ∈ s.records.values, ∀ r' ∈ s.records.values, ∀ key,
    scope.key? r = some key → scope.key? r' = some key → r = r'
  tells : ∀ r ∈ s.records.values, ∀ key, scope.key? r = some key →
    ∃ n m j a, runs.length = n + 1 ∧ scope.reported? runs key n = some a
      ∧ Restamped r (scope.placed a) ∧ Tells scope scope.placed runs key n m j r

/-- Moving a record to the cloud context sets a declared field, so it adds no slot. -/
theorem Scope.keys_placed (scope : Scope) {schema : Schema} {r : Record} (hr : r.BuiltOn schema)
    (hcontext : schema.declares Record.contextField = true) :
    (scope.placed r).slots.keys = schema.fieldNames.eraseDups := by
  have hkeys : r.slots.keys = schema.fieldNames.eraseDups := hr.schema_eq ▸ hr.wellFormed.keys
  have hmem : Record.contextField ∈ r.slots.keys := by
    rw [hkeys, List.mem_eraseDups]
    exact Schema.declares_iff.1 hcontext
  rw [placed, OrderedMap.keys_insert, if_pos hmem, hkeys]

theorem createdOr_placed (scope : Scope) (now : Timestamp) (r : Record) :
    createdOr now (scope.placed r) = createdOr now r := by
  have hslot : (scope.placed r).slots.get? createdField = r.slots.get? createdField :=
    OrderedMap.get?_insert_of_ne (by decide) _ _
  rw [createdOr, createdOr, hslot]

theorem told_nil {σ : Type} (scope : Scope) (schema : Schema) (watcher : σ) :
    Told scope schema [] (.new watcher) where
  consistent := .empty
  built := by simp
  held n hn := by cases hn
  unique r hr := by cases hr
  tells r hr := by cases hr

section Step

variable {σ : Type} [Watcher σ] {schema : Schema} {context keyField : String} {s s' : Store σ}
  {report : SyncReport}

omit [Watcher σ] in
/-- **What one record that a run saves tells.** -/
theorem Told.tells_of_settles {scope : Scope} (h : Told scope schema runs s)
    (hcontext : schema.declares Record.contextField = true) (hstamps : DeclaresStamps schema)
    (built : ∀ r ∈ run.remote, r.BuiltOn schema) {b r : Record}
    (hb : scope.lastRemote? run.remote key = some b)
    (hsettles : Settles run.now (scope.first? s.records.values key) (scope.placed b) r) :
    ∃ m j, Tells scope scope.placed (runs ++ [run]) key runs.length m j r := by
  have hbuilt := built b (Scope.mem_of_lastRemote? hb).1
  have hschema : (scope.placed b).schema = schema := hbuilt.schema_eq
  have hid := hsettles.restamped.2
  cases hfirst : scope.first? s.records.values key with
  | none =>
    rw [hfirst] at hsettles hid
    cases hsettles with
    | fresh hfresh =>
      -- nothing is stored under the key, so no earlier run reported it: a new streak starts
      refine ⟨runs.length, runs.length, .start hb (fun i hi => ?_) hid ?_⟩
      · rw [Option.eq_none_iff_forall_ne_some]
        intro a ha
        obtain ⟨r₀, hr₀, hk₀⟩ := h.held i hi.symm key a ha
        obtain ⟨r₁, h₁⟩ := Scope.exists_first? hr₀ hk₀
        rw [hfirst] at h₁
        cases h₁
      · rw [← createdOr_placed scope]
        exact fresh_stamps (hschema ▸ hstamps) hfresh
  | some existing =>
    rw [hfirst] at hsettles hid
    cases hsettles with
    | matched hmatched =>
      -- the stored record tells of the streak so far, which this run continues
      obtain ⟨hexisting, hk⟩ := Scope.mem_of_first? hfirst
      obtain ⟨n, m, j, a, hn, ha, hrestamped, htells⟩ := h.tells existing hexisting key hk
      obtain ⟨run₀, hrun₀, ha₀⟩ := Option.bind_eq_some_iff.1 ha
      have hbuilt₀ := h.built run₀ (List.mem_of_getElem? hrun₀) a (Scope.mem_of_lastRemote? ha₀).1
      have hkeys := Scope.keys_placed scope hbuilt hcontext
      have hkeys₀ := Scope.keys_placed scope hbuilt₀ hcontext
      have hschema₀ : (scope.placed a).schema = schema := hbuilt₀.schema_eq
      rw [hn]
      refine ⟨m, htells.extend hn ha hb hid fun created changed refreshed hhas => ?_⟩
      exact matched_stamps (hschema ▸ hstamps) (hkeys ▸ OrderedMap.nodup_eraseDups _)
        (hschema₀.trans hschema.symm) (hkeys₀.trans hkeys.symm) hrestamped hhas hmatched

/-- **What a run keeps.** -/
theorem Told.step (h : Told ⟨schema.name, context, keyField⟩ schema runs s)
    (hcontext : schema.declares Record.contextField = true) (hstamps : DeclaresStamps schema)
    (hkey : keyField ∉ stampFields) (built : ∀ r ∈ run.remote, r.BuiltOn schema)
    (distinct : (run.remote.map Record.id).Nodup)
    (unknown : ∀ r ∈ run.remote, s.get? r.id = none)
    (ok : s.reconcile schema context keyField run.remote run.now = .ok (report, s')) :
    Told ⟨schema.name, context, keyField⟩ schema (runs ++ [run]) s' := by
  obtain ⟨p, hp, hsettles, hrecords⟩ := planned_of_reconcile_eq_ok h.consistent hcontext ok
  have hlength {n : Nat} (hn : (runs ++ [run]).length = n + 1) : n = runs.length := by
    rw [List.length_append, List.length_singleton] at hn
    omega
  constructor
  case consistent =>
    rw [hrecords]
    exact h.consistent.batched _ _
  case built =>
    intro run' hrun'
    rcases List.mem_append.1 hrun' with hrun' | hrun'
    · exact h.built run' hrun'
    · rwa [List.mem_singleton.1 hrun']
  case held =>
    intro n hn key a ha
    rw [hlength hn, Scope.reported?_last] at ha
    obtain ⟨ha, hk⟩ := Scope.mem_of_lastRemote? ha
    have hreconciled := hp.reconciled hkey ⟨h.consistent, distinct, unknown⟩
    have hmem := hreconciled.one_per_key.mem_iff.2 (Scope.mem_keys_iff.2 ⟨a, ha, hk⟩)
    rw [hrecords]
    exact List.mem_filterMap.1 hmem
  case unique =>
    intro r hr r' hr' key hk hk'
    rw [hrecords] at hr hr'
    exact hp.eq_of_mem_after hkey h.consistent hr hr' hk hk'
  case tells =>
    -- after the run a record with a key is one that the run saved, never one it kept
    intro r hr key hk
    rw [hrecords] at hr
    have hsaved := hp.mem_upserts_of_mem_after hkey h.consistent hr (by rw [hk]; rfl)
    obtain ⟨key', -, r', hlast, hset⟩ := exists_left_of_forall₂ hsettles hsaved
    have hrestamped := hset.restamped.1
    have hk' := (hrestamped.key?_eq hkey).trans (Scope.mem_of_first? hlast).2
    obtain rfl := Option.some.inj (hk.symm.trans hk')
    rw [Scope.last?_eq, Option.map_eq_some_iff] at hlast
    obtain ⟨b, hb, rfl⟩ := hlast
    obtain ⟨m, j, htells⟩ := h.tells_of_settles hcontext hstamps built hb hset
    refine ⟨runs.length, m, j, b, ?_, ?_, hrestamped, htells⟩
    · rw [List.length_append, List.length_singleton]
    · rw [Scope.reported?_last, hb]

/-- **Run:** after any history the stamps tell of the runs. -/
theorem told_of_history (hcontext : schema.declares Record.contextField = true)
    (hstamps : DeclaresStamps schema) (hkey : keyField ∉ stampFields)
    (h : History schema context keyField runs s) :
    Told ⟨schema.name, context, keyField⟩ schema runs s := by
  induction h with
  | start watcher => exact told_nil _ schema watcher
  | run _ built distinct unknown ok ih =>
    exact ih.step hcontext hstamps hkey built distinct unknown ok

/-- **The stamps after a sequence of reconciliations.** For a key that the last run
reported one record is stored. It has the identifier of the last report of the first run
of the streak, and is stamped with that report's own time of creation or else the time of
that run, with the time of the last run in which a value outside the stamps differed from
the run before or the streak began, and with the time of the last run. Values are compared
as the reported records have them once they are moved to the cloud context. -/
theorem tells_of_history (hcontext : schema.declares Record.contextField = true)
    (hstamps : DeclaresStamps schema) (hkey : keyField ∉ stampFields)
    (h : History schema context keyField (runs ++ [run]) s)
    (hreported : key ∈ Scope.keys ⟨schema.name, context, keyField⟩ run.remote) :
    ∃ r m j, (∀ r', r' ∈ s.records.values
        ∧ Scope.key? ⟨schema.name, context, keyField⟩ r' = some key ↔ r' = r)
      ∧ Tells ⟨schema.name, context, keyField⟩ (Scope.placed ⟨schema.name, context, keyField⟩)
        (runs ++ [run]) key runs.length m j r := by
  have htold := told_of_history hcontext hstamps hkey h
  obtain ⟨a, ha⟩ := Scope.exists_lastRemote? hreported
  have hlength : (runs ++ [run]).length = runs.length + 1 := List.length_append
  obtain ⟨r, hr, hk⟩ := htold.held runs.length hlength key a (Scope.reported?_last.trans ha)
  obtain ⟨n, m, j, -, hn, -, -, htells⟩ := htold.tells r hr key hk
  obtain rfl : n = runs.length := by omega
  refine ⟨r, m, j, fun r' => ⟨fun ⟨hr', hk'⟩ => ?_, fun heq => heq ▸ ⟨hr, hk⟩⟩, htells⟩
  exact htold.unique r' hr' r hr key hk' hk

end Step

/-- The machine `web`, reported in some cloud context. -/
def webIn (context : String) (id : BitVec 128) : Record where
  id := ⟨id⟩
  schema := machineSchema
  slots := .ofList [("cloud_context", .string context), ("name", .string "web"),
    ("state", .absent), ("created", .absent), ("changed", .absent), ("refreshed", .absent)]

theorem builtOn_webIn (context : String) (id : BitVec 128) :
    (webIn context id).BuiltOn machineSchema := by
  have hset : ((Record.new ⟨id⟩ machineSchema).set "cloud_context" (.string context) >>=
      fun r => r.set "name" (.string "web")) = .ok (webIn context id) := rfl
  obtain ⟨r, hr, hset⟩ := bind_eq_ok_iff.1 hset
  exact .set (.set (.new ⟨id⟩) (fun _ h => by cases h) hr) (fun _ h => by cases h) hset

/-- The machine is reported in the cloud context that is reconciled. -/
def eastRun : Run := ⟨[webIn "east" 21], (Timestamp.ofUnix? 0 0).get rfl⟩

/-- A minute later it is reported in another one. -/
def westRun : Run := ⟨[webIn "west" 22], (Timestamp.ofUnix? 60 0).get rfl⟩

/-- When a value of a record last differed. -/
def changedTime (r : Record) : Option Timestamp :=
  match r.slots.get? changedField with
  | some (.timestamp t) => some t
  | _ => none

/-- The store after both runs: the second one changed nothing. -/
theorem exists_history_web : ∃ s : Store InvalidationCount,
    History machineSchema "east" "name" ([eastRun] ++ [westRun]) s
      ∧ s.records.values.map changedTime = [some eastRun.now] := by
  let first := (Store.new ⟨0⟩ : Store InvalidationCount).reconcile machineSchema "east" "name"
    eastRun.remote eastRun.now
  -- the two runs, the second on what the first leaves, evaluated once
  have hboth : (first >>= fun result => result.2.reconcile machineSchema "east" "name"
      westRun.remote westRun.now).toOption.map (·.2.records.values.map changedTime)
        = some [some eastRun.now] := by
    decide +kernel
  have hunknown : first.toOption.map (fun result => (result.2.get? ⟨22⟩).isNone) = some true := by
    decide +kernel
  have hbuilt (context : String) (id : BitVec 128) :
      ∀ r ∈ [webIn context id], r.BuiltOn machineSchema := by
    intro r hr
    rw [List.mem_singleton.1 hr]
    exact builtOn_webIn context id
  cases h₁ : first with
  | error e =>
    rw [h₁] at hboth
    cases hboth
  | ok result₁ =>
    obtain ⟨report₁, s₁⟩ := result₁
    have history₁ : History machineSchema "east" "name" [eastRun] s₁ :=
      .run (.start ⟨0⟩) (hbuilt _ _) (by decide +kernel) (fun _ _ => rfl) h₁
    rw [h₁] at hboth hunknown
    change (s₁.reconcile machineSchema "east" "name" westRun.remote westRun.now).toOption.map _
      = _ at hboth
    cases h₂ : s₁.reconcile machineSchema "east" "name" westRun.remote westRun.now with
    | error e =>
      rw [h₂] at hboth
      cases hboth
    | ok result₂ =>
      obtain ⟨report₂, s₂⟩ := result₂
      rw [h₂] at hboth
      refine ⟨s₂, .run history₁ (hbuilt _ _) (by decide +kernel) (fun r hr => ?_) h₂,
        Option.some.inj hboth⟩
      rw [List.mem_singleton.1 hr]
      exact Option.isNone_iff_eq_none.1 (Option.some.inj hunknown)

/-- That the second report came in with another context is no change. -/
theorem tells_of_history_web : ∃ s : Store InvalidationCount,
    History machineSchema "east" "name" ([eastRun] ++ [westRun]) s
      ∧ ∃ r m j, (∀ r', r' ∈ s.records.values
          ∧ Scope.key? ⟨"machine", "east", "name"⟩ r' = some "web" ↔ r' = r)
        ∧ Tells ⟨"machine", "east", "name"⟩ (Scope.placed ⟨"machine", "east", "name"⟩)
          ([eastRun] ++ [westRun]) "web" 1 m j r := by
  obtain ⟨s, hs, -⟩ := exists_history_web
  exact ⟨s, hs, tells_of_history (by decide +kernel) (by decide +kernel) (by decide) hs
    (by decide +kernel)⟩

/-- **Compared as they were reported** the two records differ, but the stored record was
not stamped so. -/
theorem not_tells_of_history_web : ∃ s : Store InvalidationCount,
    History machineSchema "east" "name" ([eastRun] ++ [westRun]) s
      ∧ ∃ r ∈ s.records.values, Scope.key? ⟨"machine", "east", "name"⟩ r = some "web"
        ∧ ∀ m j, ¬ Tells ⟨"machine", "east", "name"⟩ (fun r => r) ([eastRun] ++ [westRun])
          "web" 1 m j r := by
  obtain ⟨s, hs, hchanged⟩ := exists_history_web
  have htold := told_of_history (by decide +kernel) (by decide +kernel) (by decide) hs
  have heast : Scope.reported? ⟨"machine", "east", "name"⟩ ([eastRun] ++ [westRun]) "web" 0
      = some (webIn "east" 21) := rfl
  have hwest : Scope.reported? ⟨"machine", "east", "name"⟩ ([eastRun] ++ [westRun]) "web" 1
      = some (webIn "west" 22) := rfl
  obtain ⟨r, hr, hk⟩ := htold.held 1 rfl "web" _ hwest
  refine ⟨s, hs, r, hr, hk, fun m j htells => ?_⟩
  have hdiffer : Differ (webIn "east" 21) (webIn "west" 22) :=
    ⟨"cloud_context", by decide, .string "east", .string "west", rfl, rfl, rfl⟩
  have hchanged₁ : Scope.Changes ⟨"machine", "east", "name"⟩ (fun r => r)
      ([eastRun] ++ [westRun]) "web" 1 := ⟨0, _, _, rfl, heast, hwest, hdiffer⟩
  obtain rfl := htells.change.unique (lastChange_of_changes htells.streak.le hchanged₁)
  obtain ⟨_, _, changed, _, -, hrun, -, -, -, hstamps⟩ := htells.stamps
  obtain rfl : westRun = changed := Option.some.inj hrun
  have hlate : changedTime r = some westRun.now := by
    rw [changedTime, hstamps.changed]
  have hearly : changedTime r ∈ s.records.values.map changedTime := List.mem_map_of_mem hr
  rw [hchanged, List.mem_singleton, hlate] at hearly
  exact absurd hearly (by decide)

end Reconcile
end Inventory
