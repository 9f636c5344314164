/-
# The cache of detail pages does not show

`render_detail`, with and without `render_cache` in the settings.

Whatever is done with a catalog, the pages that it answers with are those of the
catalog that composes every page afresh (`Catalog.uncached`).

The key of a cached page leaves out almost everything the page depends on. What
carries the proof is that every kept page is one that the catalog would compose
now from the kept record and view (`Catalog.Sound`), whatever was done before:

| action | keeps the cache sound because |
| --- | --- |
| a change of the store, another lookup | it empties the cache |
| one that fails, an empty batch | it changes nothing |
| a page from the cache | it changes nothing |
| a page composed afresh | it is kept with the record and view it was composed from |

A page is answered from the cache for a record that equals the kept one, so
composing has to respect equality of records.
-/

import Inventory.Proofs.Catalog.Composers
import Inventory.Proofs.Catalog.Opening
import Inventory.Proofs.Except

namespace Inventory
namespace Catalog

/-- Every kept page is what the catalog composes now of what it was composed from. -/
def Sound (c : Catalog) : Prop :=
  ∀ key kept, c.cache.pages.get? key = some kept →
    kept.record.Distinct
      ∧ (c.composer kept.record.entityType).compose kept.record kept.view c.context = .ok kept.page

/-- A catalog that keeps no page keeps none that is wrong. -/
theorem sound_of_cache_eq_empty {c : Catalog} (h : c.cache = .empty) : c.Sound := by
  intro key kept hkept
  rw [h] at hkept
  cases hkept

/-! ### Pages -/

variable {c : Catalog} {r : Record}

/-- A page that is found in a sound cache is equal to the one composed now. -/
theorem Sound.get?_eq_some (h : c.Sound) (hr : r.Distinct) {view : View} {page : Tree}
    (hpage : c.cache.get? r view c.context = some page) :
    ∃ page', (c.composer r.entityType).compose r view c.context = .ok page'
      ∧ Tree.Alike page page' := by
  unfold PageCache.get? at hpage
  cases hkept : c.cache.pages.get? (PageCache.keyOf r c.context) with
  | none => simp [hkept] at hpage
  | some kept =>
    simp only [hkept] at hpage
    split at hpage
    · rename_i heq
      obtain ⟨hrecord, hview⟩ := Bool.and_eq_true_iff.1 heq
      obtain rfl := of_decide_eq_true hview
      obtain ⟨hdistinct, hcomposed⟩ := h _ kept hkept
      have halike := Record.alike_of_beq hdistinct hr hrecord
      have hsame := Composer.compose_alike (c.composer_respects r.entityType) halike kept.view
        c.context
      rw [← halike.entityType_eq, hcomposed, Option.some.inj hpage, halike.entityType_eq] at hsame
      cases hcompose : (c.composer r.entityType).compose r kept.view c.context <;>
        rw [hcompose] at hsame <;> cases hsame
      rename_i page' hpages
      exact ⟨page', rfl, hpages⟩
    · cases hpage

/-- A composed page repeats no key. -/
theorem compose_alike_self (hr : r.Distinct) {view : View} {page : Tree}
    (h : (c.composer r.entityType).compose r view c.context = .ok page) : Tree.Alike page page := by
  have hsame := Composer.compose_alike (c.composer_respects r.entityType) hr.alike_self view
    c.context
  rw [h] at hsame
  cases hsame with
  | ok hpage => exact hpage

/-- The catalog after a page was composed: it keeps the page when it has a cache. -/
def keeping (c : Catalog) (r : Record) (view : View) (page : Tree) : Catalog :=
  if c.settings.renderCache then c.withCache (c.cache.insert r view c.context page) else c

/-- How a detail page comes about. -/
inductive Rendering (c : Catalog) (r : Record) : Except CatalogError (Tree × Catalog) → Prop where
  | noView {e : CatalogError} (h : c.view r.entityType = .error e) : Rendering c r (.error e)
  | kept {view : View} {page : Tree} (hview : c.view r.entityType = .ok view)
      (h : c.cache.get? r view c.context = some page) : Rendering c r (.ok (page, c))
  | failed {view : View} {e : ViewError} (hview : c.view r.entityType = .ok view)
      (h : (c.composer r.entityType).compose r view c.context = .error e) :
      Rendering c r (.error (.view e))
  | composed {view : View} {page : Tree} (hview : c.view r.entityType = .ok view)
      (h : (c.composer r.entityType).compose r view c.context = .ok page) :
      Rendering c r (.ok (page, c.keeping r view page))

/-- The cases in which a page is asked for are all there are. -/
theorem rendering (c : Catalog) (r : Record) : Rendering c r (c.renderDetail r) := by
  unfold renderDetail
  cases hview : c.view r.entityType with
  | error e => exact .noView hview
  | ok view =>
    cases hcompose : (c.composer r.entityType).compose r view c.context with
    | error e =>
      have hfailed := Rendering.failed hview hcompose
      simp only [Composer.renderDetail, hcompose]
      split
      · cases hcache : c.cache.get? r view c.context with
        | some page => exact .kept hview hcache
        | none => exact hfailed
      · exact hfailed
    | ok page =>
      have hcomposed := Rendering.composed hview hcompose
      simp only [Composer.renderDetail, hcompose]
      unfold keeping at hcomposed
      split
      · rename_i hon
        rw [if_pos hon] at hcomposed
        cases hcache : c.cache.get? r view c.context with
        | some page => exact .kept hview hcache
        | none => exact hcomposed
      · rename_i hoff
        rwa [if_neg hoff] at hcomposed

/-- The page of a record when it is composed afresh. -/
def freshPage (c : Catalog) (r : Record) : Except CatalogError Tree :=
  match c.view r.entityType with
  | .error e => .error e
  | .ok view =>
    match (c.composer r.entityType).compose r view c.context with
    | .error e => .error (.view e)
    | .ok page => .ok page

/-- Without cache every page is composed afresh, and nothing changes. -/
theorem renderDetail_uncached (c : Catalog) (r : Record) :
    c.uncached.renderDetail r = (c.freshPage r).map fun page => (page, c.uncached) := by
  have hview : c.uncached.view r.entityType = c.view r.entityType := rfl
  have hcompose (view : View) :
      (c.uncached.composer r.entityType).compose r view c.uncached.context
        = (c.composer r.entityType).compose r view c.context := rfl
  have hoff : c.uncached.settings.renderCache = false := rfl
  simp only [renderDetail, freshPage, hview, hcompose, hoff]
  cases c.view r.entityType with
  | error e => rfl
  | ok view =>
    simp only [Bool.false_eq_true, if_false]
    cases (c.composer r.entityType).compose r view c.context <;> rfl

/-- With a sound cache a page is alike to the one composed afresh. -/
theorem Sound.renderDetail_alike (h : c.Sound) (hr : r.Distinct) :
    SameResult Tree.Alike ((c.renderDetail r).map Prod.fst) (c.freshPage r) := by
  have hrendering := c.rendering r
  generalize c.renderDetail r = result at hrendering ⊢
  unfold freshPage
  cases hrendering with
  | noView hview =>
    rw [hview]
    exact .error _
  | kept hview hkept =>
    obtain ⟨page', hcompose, hpages⟩ := h.get?_eq_some hr hkept
    simp only [hview, hcompose]
    exact .ok hpages
  | failed hview hcompose =>
    simp only [hview, hcompose]
    exact .error _
  | composed hview hcompose =>
    simp only [hview, hcompose]
    exact .ok (compose_alike_self hr hcompose)

/-- **Same answers:** with a sound cache a page is equal to the one composed afresh. -/
theorem Sound.renderDetail (h : c.Sound) (hr : r.Distinct) :
    SameResult (fun t t' => (t == t') = true) ((c.renderDetail r).map Prod.fst)
      (c.freshPage r) :=
  (h.renderDetail_alike hr).mono fun _ _ hpages => hpages.beq

/-- Keeping a composed page leaves the cache sound. -/
theorem Sound.keeping (h : c.Sound) (hr : r.Distinct) {view : View} {page : Tree}
    (hpage : (c.composer r.entityType).compose r view c.context = .ok page) :
    (c.keeping r view page).Sound := by
  unfold Catalog.keeping
  split
  · intro key kept hkept
    by_cases hkey : key = PageCache.keyOf r c.context
    · subst hkey
      change (OrderedMap.insert _ _ _).get? _ = _ at hkept
      rw [OrderedMap.get?_insert_self] at hkept
      obtain rfl := Option.some.inj hkept
      exact ⟨hr, hpage⟩
    · change (OrderedMap.insert _ _ _).get? _ = _ at hkept
      rw [OrderedMap.get?_insert_of_ne hkey] at hkept
      exact h key kept hkept
  · exact h

/-! ### Actions, one after another -/

/-- **Step:** an action on the store keeps the cache sound. -/
theorem Sound.onStore (h : c.Sound) (a : Action) :
    Sound { c with store := a.onStore c.store } := by
  rcases a.onStore_cases c.store with hempty | hsame
  · exact sound_of_cache_eq_empty hempty
  · rw [hsame]
    exact h

/-- **Step:** an action keeps the cache sound. -/
theorem Sound.step (h : c.Sound) (a : Action) (hdistinct : ∀ r, a = .render r → r.Distinct) :
    (c.step a).Sound := by
  cases a with
  | render r =>
    have hrendering := c.rendering r
    simp only [Catalog.step]
    generalize c.renderDetail r = result at hrendering ⊢
    cases hrendering with
    | noView hview => exact h
    | kept hview hkept => exact h
    | failed hview hcompose => exact h
    | composed hview hcompose => exact h.keeping (hdistinct r rfl) hcompose
  | invalidate => exact sound_of_cache_eq_empty rfl
  | withRoles roles => exact sound_of_cache_eq_empty rfl
  | withLinks links => exact sound_of_cache_eq_empty rfl
  | save r => exact h.onStore (.save r)
  | update r => exact h.onStore (.update r)
  | delete id => exact h.onStore (.delete id)
  | batch upserts deletes => exact h.onStore (.batch upserts deletes)
  | reconcile schema context keyField remote now =>
    exact h.onStore (.reconcile schema context keyField remote now)

/-- Keeping a page changes nothing but the cache. -/
theorem uncached_keeping (c : Catalog) (r : Record) (view : View) (page : Tree) :
    (c.keeping r view page).uncached = c.uncached := by
  unfold keeping
  split <;> rfl

/-- **Step:** the catalog without cache follows the catalog. -/
theorem step_uncached (c : Catalog) (a : Action) : c.uncached.step a = (c.step a).uncached := by
  cases a with
  | render r =>
    have hleft : c.uncached.step (.render r) = c.uncached := by
      simp only [step, renderDetail_uncached]
      cases c.freshPage r <;> rfl
    have hrendering := c.rendering r
    rw [hleft]
    simp only [step]
    generalize c.renderDetail r = result at hrendering ⊢
    cases hrendering with
    | noView hview => rfl
    | kept hview hkept => rfl
    | failed hview hcompose => rfl
    | composed hview hcompose => exact (c.uncached_keeping r _ _).symm
  | invalidate => rfl
  | withRoles roles => rfl
  | withLinks links => rfl
  | save r => exact c.uncached_onStore (.save r)
  | update r => exact c.uncached_onStore (.update r)
  | delete id => exact c.uncached_onStore (.delete id)
  | batch upserts deletes => exact c.uncached_onStore (.batch upserts deletes)
  | reconcile schema context keyField remote now =>
    exact c.uncached_onStore (.reconcile schema context keyField remote now)

/-- **Step:** an action has the same answer without cache. -/
theorem Sound.answer?_uncached (h : c.Sound) (a : Action)
    (hdistinct : ∀ r, a = .render r → r.Distinct) :
    List.Forall₂ (SameResult fun t t' => (t == t') = true) (c.answer? a).toList
      (c.uncached.answer? a).toList := by
  cases a with
  | render r =>
    have hfresh : (c.uncached.renderDetail r).map Prod.fst = c.freshPage r := by
      rw [renderDetail_uncached]
      cases c.freshPage r <;> rfl
    simp only [answer?, hfresh, Option.toList_some]
    exact .cons (h.renderDetail (hdistinct r rfl)) .nil
  | _ => exact .nil

/-- **Run:** actions one after another have the same answers without cache. -/
theorem Sound.answers_uncached (h : c.Sound) (actions : List Action)
    (hdistinct : ∀ r, .render r ∈ actions → r.Distinct) :
    List.Forall₂ (SameResult fun t t' => (t == t') = true) (c.answers actions)
      (c.uncached.answers actions) := by
  induction actions generalizing c with
  | nil => exact .nil
  | cons a rest ih =>
    have ha : ∀ r, a = .render r → r.Distinct := by
      rintro r rfl
      exact hdistinct r List.mem_cons_self
    simp only [answers, step_uncached]
    refine List.rel_append (h.answer?_uncached a ha) ?_
    exact ih (h.step a ha) fun r hr => hdistinct r (List.mem_cons_of_mem _ hr)

/-- **The cache of detail pages does not show.** A catalog that opens with a cache
opens without one, and whatever is then done with it, every page it answers with
is equal to the page, or the same as the error, of the catalog without cache. -/
theorem answers_cached_uncached {settings : Settings} {disk disk' : Disk} {cached : Catalog}
    (hopen : (openWith { settings with renderCache := true }).run.run disk = (.ok cached, disk'))
    (actions : List Action) (hdistinct : ∀ r, .render r ∈ actions → r.Distinct) :
    ∃ plain, (openWith { settings with renderCache := false }).run.run disk = (.ok plain, disk')
      ∧ List.Forall₂ (SameResult fun t t' => (t == t') = true) (cached.answers actions)
        (plain.answers actions) := by
  obtain ⟨hempty, hplain⟩ := openWith_uncached hopen
  exact ⟨cached.uncached, hplain,
    (sound_of_cache_eq_empty hempty).answers_uncached actions hdistinct⟩

/-- A security group is stored, shown twice, and shown with other links. -/
def securityGroupActions : List Action :=
  let r := Record.new ⟨1⟩ Builtin.securityGroup.schema
  [.save r, .render r, .render r, .withLinks fun _ id => .ok ("/rules/" ++ id), .render r]

/-- The built-in catalog opens, and what it shows does not depend on the cache. -/
theorem answers_securityGroup :
    ∃ cached plain disk, (openWith { renderCache := true }).run.run default = (.ok cached, disk)
      ∧ (openWith { renderCache := false }).run.run default = (.ok plain, disk)
      ∧ List.Forall₂ (SameResult fun t t' => (t == t') = true)
        (cached.answers securityGroupActions) (plain.answers securityGroupActions) := by
  have hopens : ((openWith { renderCache := true }).run.run default).1.isOk = true := by
    decide +kernel
  rcases hopen : (openWith { renderCache := true }).run.run default with ⟨result, disk⟩
  rw [hopen] at hopens
  cases result with
  | error e => cases hopens
  | ok cached =>
    have hdistinct : ∀ r, Action.render r ∈ securityGroupActions → r.Distinct := by
      intro r hr
      simp only [securityGroupActions, List.mem_cons, List.not_mem_nil, or_false, reduceCtorEq,
        false_or, Action.render.injEq, or_self] at hr
      rw [hr]
      exact (Record.wellFormed_new _ _).toDistinct
    obtain ⟨plain, hplain, hanswers⟩ :=
      @answers_cached_uncached {} default disk cached hopen securityGroupActions hdistinct
    exact ⟨cached, plain, disk, rfl, hplain, hanswers⟩

end Catalog
end Inventory
