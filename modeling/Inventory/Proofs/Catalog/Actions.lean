/-
# What is done with a catalog

What a `CloudCatalog` goes through: the calls of its store, `reconciler`, `with_role_directory`,
`with_link_builder` and `render_detail`.

A catalog goes through actions: its store changes, its cache is dropped, lookups
are exchanged, and detail pages are asked for. An action on the store empties the
cache or changes nothing (`Action.onStore_cases`), and what it does to the records
does not depend on the cache (`Action.onStore_emptied`).
-/

import Inventory.Catalog.Basic
import Inventory.Reconcile

namespace Inventory
namespace Catalog

/-- What can be done with a catalog. -/
inductive Action where
  | save (r : Record)
  | update (r : Record)
  | delete (id : Ulid)
  | batch (upserts : List Record) (deletes : List Ulid)
  | reconcile (schema : Schema) (context keyField : String) (remote : List Record)
      (now : Timestamp)
  | invalidate
  | withRoles (roles : RoleDirectory)
  | withLinks (links : LinkBuilder)
  | render (r : Record)

/-- The store after an action, whether it succeeds or fails. -/
def Action.onStore (s : Store PageCache) : Action → Store PageCache
  | .save r => s.save r
  | .update r => (Store.updating r).after s
  | .delete id => (Store.deleting id).after s
  | .batch upserts deletes => s.applyBatch upserts deletes
  | .reconcile schema context keyField remote now =>
    (Store.reconciling schema context keyField remote now).after s
  | .invalidate | .withRoles _ | .withLinks _ | .render _ => s

/-- The catalog after an action. -/
def step (c : Catalog) (a : Action) : Catalog :=
  match a with
  | .invalidate => c.withCache .empty
  | .withRoles roles => c.withRoles roles
  | .withLinks links => c.withLinks links
  | .render r =>
    match c.renderDetail r with
    | .ok (_, c') => c'
    | .error _ => c
  | a => { c with store := a.onStore c.store }

/-- The answer to an action: the page or the error, when a page is asked for. -/
def answer? (c : Catalog) : Action → Option (Except CatalogError Tree)
  | .render r => some ((c.renderDetail r).map Prod.fst)
  | _ => none

/-- The answers to actions that are done one after another. -/
def answers (c : Catalog) : List Action → List (Except CatalogError Tree)
  | [] => []
  | a :: rest => (c.answer? a).toList ++ (c.step a).answers rest

/-- The same catalog without cache. -/
def uncached (c : Catalog) : Catalog :=
  { c.withCache .empty with settings := { c.settings with renderCache := false } }

/-! ### Changes of the store -/

/-- The store with an empty cache. -/
def emptied (s : Store PageCache) : Store PageCache := { s with watcher := .empty }

/-- A batch empties the cache or is empty itself. -/
theorem applyBatch_cases (s : Store PageCache) (upserts : List Record) (deletes : List Ulid) :
    (s.applyBatch upserts deletes).watcher = .empty ∨ s.applyBatch upserts deletes = s := by
  unfold Store.applyBatch
  split
  · exact .inr rfl
  · exact .inl rfl

/-- What a batch does to the records does not depend on the cache. -/
theorem applyBatch_emptied (s : Store PageCache) (upserts : List Record) (deletes : List Ulid) :
    (emptied s).applyBatch upserts deletes = emptied (s.applyBatch upserts deletes) := by
  unfold Store.applyBatch
  split <;> rfl

/-- **An action empties the cache** or leaves the store alone. -/
theorem Action.onStore_cases (s : Store PageCache) (a : Action) :
    (a.onStore s).watcher = .empty ∨ a.onStore s = s := by
  cases a with
  | save r => exact .inl rfl
  | update r =>
    simp only [onStore, Attempt.after, Store.run_updating]
    cases s.records.contains r.id with
    | true => exact .inl rfl
    | false => exact .inr rfl
  | delete id =>
    simp only [onStore, Attempt.after, Store.run_deleting]
    cases s.get? id with
    | some r => exact .inl rfl
    | none => exact .inr rfl
  | batch upserts deletes => exact applyBatch_cases s upserts deletes
  | reconcile schema context keyField remote now =>
    simp only [onStore, Attempt.after, Store.run_reconciling]
    cases Reconcile.plan schema context keyField (s.listInContext schema.name context) remote
      now with
    | ok p => exact applyBatch_cases s p.upserts p.deletes
    | error e => exact .inr rfl
  | invalidate => exact .inr rfl
  | withRoles roles => exact .inr rfl
  | withLinks links => exact .inr rfl
  | render r => exact .inr rfl

/-- What an action does to the records does not depend on the cache. -/
theorem Action.onStore_emptied (s : Store PageCache) (a : Action) :
    a.onStore (emptied s) = emptied (a.onStore s) := by
  -- Every action decides by the records alone, which an emptied cache leaves as they are.
  cases a with
  | save r => rfl
  | update r =>
    have hcontains : (emptied s).records.contains r.id = s.records.contains r.id := rfl
    simp only [onStore, Attempt.after, Store.run_updating, hcontains]
    cases s.records.contains r.id with
    | true => rfl
    | false => rfl
  | delete id =>
    have hget : (emptied s).get? id = s.get? id := rfl
    simp only [onStore, Attempt.after, Store.run_deleting, hget]
    cases s.get? id with
    | some r => rfl
    | none => rfl
  | batch upserts deletes => exact applyBatch_emptied s upserts deletes
  | reconcile schema context keyField remote now =>
    have hlist : (emptied s).listInContext schema.name context
        = s.listInContext schema.name context := rfl
    simp only [onStore, Attempt.after, Store.run_reconciling, hlist]
    cases Reconcile.plan schema context keyField (s.listInContext schema.name context) remote
      now with
    | ok p => exact applyBatch_emptied s p.upserts p.deletes
    | error e => rfl
  | invalidate => rfl
  | withRoles roles => rfl
  | withLinks links => rfl
  | render r => rfl

/-- Without a cache an action does the same to the records. -/
theorem uncached_onStore (c : Catalog) (a : Action) :
    { c.uncached with store := a.onStore c.uncached.store }
      = uncached { c with store := a.onStore c.store } := by
  have hstore : a.onStore c.uncached.store = emptied (a.onStore c.store) :=
    a.onStore_emptied c.store
  rw [hstore]
  rfl

end Catalog
end Inventory
