/-
# Composers that share a cache of pages

`render_detail` of composers with one `RenderCache`.

A kept page answers for its key, for a record equal to the one it was composed from,
and for its view. Which composer composed it is not asked. So a call that finds a page
answers with what *some* composer of those that share the cache composes of an equal
record (`SharedCache.Found`), and a call that finds none composes afresh.

Each call therefore answers as its own composer does without a cache, whatever calls
were made before, exactly when the composers agree: where one of them composes a page,
every one composes an equal page of every equal record
(`SharedCache.answers_shared`).

| composers | a shared cache |
| --- | --- |
| of one configuration that does not tell equal records apart | does not show |
| with different weights for the first container | answers with pages of the other one |

The second row is at odds with `with_weight_start`, by which a composer counts its weights from
a number of its own: with a shared cache it hands out pages that count from another number
(`SharedCache.not_transparent_weighted`). Composers that a catalog has handed out before it
exchanges its roles are of that kind too, see `Catalog.not_transparent_handedOut`.
-/

import Inventory.Page.Cache
import Inventory.Proofs.Page.Layout

namespace Inventory
namespace SharedCache

variable {ι : Type}

/-- A call of one of the composers that share a cache. -/
structure Call (ι : Type) where
  composer : ι
  record : Record
  view : View
  context : RenderContext

/-- What a call answers without a cache. -/
def alone (c : ι → Composer (Except ViewError)) (call : Call ι) : Except ViewError Tree :=
  (c call.composer).compose call.record call.view call.context

/-- What a call answers, and the cache after it. A call that fails keeps no page. -/
def answer (c : ι → Composer (Except ViewError)) (cache : PageCache) (call : Call ι) :
    Except ViewError Tree × PageCache :=
  match (c call.composer).renderDetail cache call.record call.view call.context with
  | .ok (page, cache) => (.ok page, cache)
  | .error e => (.error e, cache)

/-- The answers of calls, one after another. -/
def answers (c : ι → Composer (Except ViewError)) (cache : PageCache) :
    List (Call ι) → List (Except ViewError Tree)
  | [] => []
  | call :: rest => (answer c cache call).1 :: answers c (answer c cache call).2 rest

/-- Every call answers as its composer does without a cache. -/
def Transparent (c : ι → Composer (Except ViewError)) : Prop :=
  ∀ calls : List (Call ι), (∀ call ∈ calls, call.record.Distinct) →
    List.Forall₂ (SameResult fun t t' => (t == t') = true) (answers c .empty calls)
      (calls.map (alone c))

/-- Where one composer composes a page, every one composes an equal page of every equal
record. -/
def Agree (c : ι → Composer (Except ViewError)) : Prop :=
  ∀ i j (r r' : Record), r.Distinct → r'.Distinct → (r == r') = true →
    ∀ view context page, (c i).compose r view context = .ok page →
      ∃ page', (c j).compose r' view context = .ok page' ∧ (page == page') = true

variable {c : ι → Composer (Except ViewError)} {cache : PageCache} {call : Call ι}

/-! ### One call -/

/-- A call that finds a page answers with it and keeps nothing. -/
theorem answer_of_get?_eq_some {page : Tree}
    (h : cache.get? call.record call.view call.context = some page) :
    answer c cache call = (.ok page, cache) := by
  simp only [answer, Composer.renderDetail, h]
  rfl

/-- A call that finds none composes one and keeps it. -/
theorem answer_of_get?_eq_none (h : cache.get? call.record call.view call.context = none) :
    answer c cache call = match alone c call with
      | .ok page => (.ok page, cache.insert call.record call.view call.context page)
      | .error e => (.error e, cache) := by
  simp only [answer, Composer.renderDetail, h, alone]
  cases (c call.composer).compose call.record call.view call.context <;> rfl

/-- A page that one of the composers composes of a record equal to the one asked for. -/
def Found (c : ι → Composer (Except ViewError)) (call : Call ι) (page : Tree) : Prop :=
  ∃ i r, r.Distinct ∧ (r == call.record) = true
    ∧ (c i).compose r call.view call.context = .ok page

/-- Every kept page was composed, by one of the composers, of what it is kept with. -/
def Sound (c : ι → Composer (Except ViewError)) (cache : PageCache) : Prop :=
  ∀ key kept, cache.pages.get? key = some kept → kept.record.Distinct
    ∧ ∃ i, (c i).compose kept.record kept.view ⟨key.viewMode, key.langcode⟩ = .ok kept.page

/-- A cache without pages keeps none that was not composed. -/
theorem sound_empty (c : ι → Composer (Except ViewError)) : Sound c .empty := by
  intro key kept h
  cases h

/-- A page is found when it is kept under the key, with an equal record and the same view. -/
theorem get?_eq_some_iff {r : Record} {view : View} {context : RenderContext} {page : Tree} :
    cache.get? r view context = some page ↔
      ∃ kept, cache.pages.get? (PageCache.keyOf r context) = some kept
        ∧ (kept.record == r) = true ∧ kept.view = view ∧ kept.page = page := by
  unfold PageCache.get?
  cases cache.pages.get? (PageCache.keyOf r context) with
  | none => simp
  | some kept => simp [and_assoc]

/-- A page that is kept for a record answers for every record that is alike. -/
theorem get?_insert_of_alike {r r' : Record} (h : r.Alike r') (cache : PageCache) (view : View)
    (context : RenderContext) (page : Tree) :
    (cache.insert r view context page).get? r' view context = some page := by
  have hkey : PageCache.keyOf r' context = PageCache.keyOf r context := by
    simp only [PageCache.keyOf, h.entityType_eq, h.id]
  refine get?_eq_some_iff.2 ⟨⟨r, view, page⟩, ?_, h.beq, rfl, rfl⟩
  rw [hkey]
  exact OrderedMap.get?_insert_self _ _ _

/-- A page that is found in a sound cache was composed of an equal record. -/
theorem Sound.found (h : Sound c cache) {page : Tree}
    (hpage : cache.get? call.record call.view call.context = some page) : Found c call page := by
  obtain ⟨kept, hkept, hrecord, hview, rfl⟩ := get?_eq_some_iff.1 hpage
  obtain ⟨hdistinct, i, hcompose⟩ := h _ kept hkept
  exact ⟨i, kept.record, hdistinct, hrecord, hview ▸ hcompose⟩

/-- **Step:** a call keeps the cache sound. -/
theorem Sound.after (h : Sound c cache) (hr : call.record.Distinct) :
    Sound c (answer c cache call).2 := by
  cases hpage : cache.get? call.record call.view call.context with
  | some page => rwa [answer_of_get?_eq_some hpage]
  | none =>
    rw [answer_of_get?_eq_none hpage]
    cases halone : alone c call with
    | error e => exact h
    | ok page =>
      intro key kept hkept
      change (OrderedMap.insert _ _ _).get? key = _ at hkept
      by_cases hkey : key = PageCache.keyOf call.record call.context
      · subst hkey
        rw [OrderedMap.get?_insert_self] at hkept
        obtain rfl := Option.some.inj hkept
        exact ⟨hr, call.composer, halone⟩
      · rw [OrderedMap.get?_insert_of_ne hkey] at hkept
        exact h key kept hkept

/-- How a call is answered: it fails as its composer does, or with a page that one of the
composers composes of an equal record. -/
inductive Answered (c : ι → Composer (Except ViewError)) (call : Call ι) :
    Except ViewError Tree → Prop where
  | failed {e : ViewError} (h : alone c call = .error e) : Answered c call (.error e)
  | found {page : Tree} (h : Found c call page) : Answered c call (.ok page)

/-- **Step:** with a sound cache a call is answered. -/
theorem Sound.answered (h : Sound c cache) (hr : call.record.Distinct) :
    Answered c call (answer c cache call).1 := by
  cases hpage : cache.get? call.record call.view call.context with
  | some page =>
    rw [answer_of_get?_eq_some hpage]
    exact .found (h.found hpage)
  | none =>
    rw [answer_of_get?_eq_none hpage]
    cases halone : alone c call with
    | error e => exact .failed halone
    | ok page => exact .found ⟨call.composer, call.record, hr, hr.alike_self.beq, halone⟩

/-! ### Calls, one after another -/

/-- **Run:** with a sound cache every call is answered. -/
theorem Sound.answers (h : Sound c cache) {calls : List (Call ι)}
    (hdistinct : ∀ call ∈ calls, call.record.Distinct) :
    List.Forall₂ (Answered c) calls (answers c cache calls) := by
  induction calls generalizing cache with
  | nil => exact .nil
  | cons call rest ih =>
    obtain ⟨hr, hrest⟩ := List.forall_mem_cons.1 hdistinct
    exact .cons (h.answered hr) (ih (h.after hr) hrest)

/-- **Composers that agree** do not show that they share a cache. -/
theorem transparent_of_agree (hagree : Agree c) : Transparent c := by
  intro calls hdistinct
  have hanswers := (List.forall₂_and_left calls _).2
    ⟨hdistinct, (sound_empty c).answers hdistinct⟩
  rw [List.forall₂_map_right_iff]
  refine List.Forall₂.flip (hanswers.imp ?_)
  rintro call result ⟨hr, hanswered⟩
  cases hanswered with
  | failed h =>
    rw [flip, h]
    exact .error _
  | found h =>
    obtain ⟨i, r, hdistinct, hrecord, hcompose⟩ := h
    obtain ⟨page', hpage', hequal⟩ :=
      hagree i call.composer r call.record hdistinct hr hrecord _ _ _ hcompose
    have halone : alone c call = .ok page' := hpage'
    rw [flip, halone]
    exact .ok hequal

/-- A page that one composer composes is what another one answers for an equal record. -/
theorem answers_pair {i j : ι} {r r' : Record} {view : View} {context : RenderContext}
    {page : Tree} (halike : r.Alike r')
    (hcompose : (c i).compose r view context = .ok page) :
    answers c .empty [⟨i, r, view, context⟩, ⟨j, r', view, context⟩] = [.ok page, .ok page] := by
  have hfirst : answer c .empty ⟨i, r, view, context⟩
      = (.ok page, PageCache.empty.insert r view context page) := by
    have hnone : PageCache.empty.get? r view context = none := rfl
    have halone : alone c ⟨i, r, view, context⟩ = .ok page := hcompose
    rw [answer_of_get?_eq_none hnone, halone]
  have hanswer : (answer c (PageCache.empty.insert r view context page)
      ⟨j, r', view, context⟩).1 = .ok page :=
    congrArg Prod.fst (answer_of_get?_eq_some (get?_insert_of_alike halike _ _ _ _))
  simp only [answers, hfirst, hanswer]

/-- **A shared cache that does not show** makes the composers agree. -/
theorem agree_of_transparent (h : Transparent c) : Agree c := by
  intro i j r r' hr hr' hrecord view context page hcompose
  have hanswers := h [⟨i, r, view, context⟩, ⟨j, r', view, context⟩] (by simp [hr, hr'])
  rw [answers_pair (Record.alike_of_beq hr hr' hrecord) hcompose] at hanswers
  obtain ⟨-, hrest⟩ := List.forall₂_cons.1 hanswers
  obtain ⟨hsecond, -⟩ := List.forall₂_cons.1 hrest
  rcases hsecond.cases with ⟨e, he, -⟩ | ⟨t, t', ht, ht', hequal⟩
  · cases he
  · obtain rfl := Except.ok.inj ht
    exact ⟨t', ht', hequal⟩

/-! ### When it does not show -/

/-- Composers that fail alike, and compose equal pages of alike records. -/
theorem agree_of_same {c : ι → Composer (Except ViewError)} (hsame : ∀ i j, c i = c j)
    (hrespects : ∀ i, (c i).Respects) : Agree c := by
  intro i j r r' hr hr' hrecord view context page hcompose
  have halike := Record.alike_of_beq hr hr' hrecord
  have hresults := Composer.compose_alike (hrespects i) halike view context
  rw [hcompose] at hresults
  rcases hresults.cases with ⟨e, he, -⟩ | ⟨t, t', ht, ht', hpages⟩
  · cases he
  · obtain rfl := Except.ok.inj ht
    exact ⟨t', hsame i j ▸ ht', hpages.beq⟩

/-- **Composers that share a cache.** Whatever calls they make in whatever order, each
call fails as its composer does without a cache, or answers with a page that one of the
composers composes of an equal record. Each answers as its composer does without a cache
exactly when the composers agree; and composers of one configuration agree, if it does
not tell equal records apart. -/
theorem answers_shared (c : ι → Composer (Except ViewError)) :
    (∀ calls : List (Call ι), (∀ call ∈ calls, call.record.Distinct) →
      List.Forall₂ (Answered c) calls (answers c .empty calls))
      ∧ (Transparent c ↔ Agree c)
      ∧ ((∀ i j, c i = c j) → (∀ i, (c i).Respects) → Transparent c) :=
  ⟨fun _ hdistinct => (sound_empty c).answers hdistinct,
    ⟨agree_of_transparent, transparent_of_agree⟩,
    fun hsame hrespects => transparent_of_agree (agree_of_same hsame hrespects)⟩

/-! ### Composers that do not agree -/

/-- The weight of its first container is read off a page. -/
theorem eq_of_beq_pageFrom {r : Record} {view : View} {context : RenderContext}
    (hnames : (view.fieldsets.map (·.name)).Nodup) {f : Fieldset}
    (hf : view.fieldsets[0]? = some f) {start start' : Int32}
    (hpages : (Composer.pageFrom start r view context
      == Composer.pageFrom start' r view context) = true) : start = start' := by
  have hweight (k : Int32) : (Composer.container f (k + .ofNat 0)
      (Composer.body r context f)).get? "#weight" = some (.property (.int (k + .ofNat 0).toInt)) :=
    Composer.get?_container_of_isMetaKey r context f _ rfl
  have hequal : ((start + .ofNat 0).toInt == (start' + .ofNat 0).toInt) = true :=
    (Composer.alike_of_beq_pageFrom hnames hnames hpages hf hf rfl).rel (hweight start)
      (hweight start')
  exact (Int32.add_left_inj _).1 (Int32.toInt_inj.1 (eq_of_beq hequal))

/-- Two plain composers, with different weights for the first container. -/
def weighted : Bool → Composer (Except ViewError)
  | false => Composer.plainFrom 0
  | true => Composer.plainFrom 1

/-- Both show a machine. The second one answers with the page of the first one, on which
the container of a fieldset has another weight than on its own. -/
theorem not_transparent_weighted :
    (∃ page page',
      answers weighted .empty [⟨false, Composer.zonedRecord, Composer.zonedView, {}⟩,
        ⟨true, Composer.zonedRecord, Composer.zonedView, {}⟩] = [.ok page, .ok page]
      ∧ alone weighted ⟨true, Composer.zonedRecord, Composer.zonedView, {}⟩ = .ok page'
      ∧ (page == page') = false)
    ∧ ¬ Transparent weighted := by
  have hr := Composer.builtOn_zonedRecord.wellFormed
  have hpage (start : Int32) := Composer.compose_plainFrom hr start Composer.zonedView {}
  have hne : (Composer.pageFrom 0 Composer.zonedRecord Composer.zonedView {}
      == Composer.pageFrom 1 Composer.zonedRecord Composer.zonedView {}) = false := by
    refine Bool.eq_false_iff.2 fun h => ?_
    have hweights : (0 : Int32) = 1 := eq_of_beq_pageFrom (by decide) rfl h
    cases hweights
  have hself := hr.toDistinct.alike_self
  refine ⟨⟨_, _, answers_pair hself (hpage 0), hpage 1, hne⟩, fun h => ?_⟩
  obtain ⟨page', hpage', hequal⟩ := agree_of_transparent h false true _ _ hr.toDistinct
    hr.toDistinct hself.beq _ _ _ (hpage 0)
  obtain rfl := Except.ok.inj ((hpage 1).symm.trans hpage')
  rw [hne] at hequal
  cases hequal

end SharedCache
end Inventory
