/-
# Pages in closed form

`render` of `FieldListRenderer` and `compose` of `ViewComposer`.

A well-formed record is always rendered, and its page is an overlay of three maps:
the header, the elements of the fields that have something to show, and the
containers (`Composer.compose_plainFrom`). So a key of the page is looked up in the
containers first, then in the fields, then in the header (`Composer.get?_page`).

Hiding fields on a record takes exactly their elements out of its rendering
(`FieldList.shown_withOnly`).
-/

import Inventory.Proofs.Page.Congruence
import Inventory.Proofs.Page.Overflow

namespace Inventory

namespace FieldList

/-- The element of a field that has something to show. -/
def shownNode? (r : Record) (f : Field) : Option Node :=
  match r.slots.get? f.name with
  | some v => if v.isEmpty then none else some (.element (fieldElement f v))
  | none => none

/-- The elements of the fields that have something to show, in the order of showing. -/
def shown (r : Record) : Tree :=
  ⟨(shownOrder r.schema).filterMap fun f => (shownNode? r f).map (f.name, ·)⟩

/-- The order of showing leaves no field out. -/
theorem mem_shownOrder {s : Schema} {f : Field} : f ∈ shownOrder s ↔ f ∈ s.fields :=
  (List.mergeSort_perm _ _).mem_iff

/-- The keys of what is shown, in the order of showing. -/
theorem keys_shown (r : Record) :
    (shown r).keys
      = ((shownOrder r.schema).filter fun f => (shownNode? r f).isSome).map Field.name := by
  rw [shown, OrderedMap.keys, List.map_filterMap, ← List.filterMap_eq_map, List.filterMap_filter]
  refine List.filterMap_congr fun f _ => ?_
  cases shownNode? r f <;> rfl

/-- Fields with names of their own are shown under different keys. -/
theorem nodup_keys_shown {r : Record} (h : r.schema.fieldNames.Nodup) :
    (shown r).keys.Nodup := by
  have hnames : ((shownOrder r.schema).map Field.name).Nodup :=
    ((List.mergeSort_perm r.schema.fields _).map Field.name).nodup_iff.2 h
  rw [keys_shown]
  exact hnames.sublist (List.filter_sublist.map _)

/-- Under the name of a field stands its element, when it has something to show. -/
theorem get?_shown_eq_some_iff {r : Record} (h : r.schema.fieldNames.Nodup) {key : String}
    {node : Node} :
    (shown r).get? key = some node ↔
      ∃ f ∈ r.schema.fields, f.name = key ∧ shownNode? r f = some node := by
  rw [OrderedMap.get?_eq_some_iff (nodup_keys_shown h), shown, List.mem_filterMap]
  simp only [mem_shownOrder, Option.map_eq_some_iff, Prod.mk.injEq]
  constructor
  · rintro ⟨f, hf, node', hnode, rfl, rfl⟩
    exact ⟨f, hf, rfl, hnode⟩
  · rintro ⟨f, hf, rfl, hnode⟩
    exact ⟨f, hf, node, hnode, rfl, rfl⟩

/-- Adding fields one after another succeeds when they all have slots. -/
theorem foldlM_addField {r : Record} {fields : List Field}
    (h : ∀ f ∈ fields, (r.slots.get? f.name).isSome) (t : Tree) :
    fields.foldlM (addField r) t
      = .ok (t.merge ⟨fields.filterMap fun f => (shownNode? r f).map (f.name, ·)⟩) := by
  induction fields generalizing t with
  | nil => rfl
  | cons f rest ih =>
    obtain ⟨v, hv⟩ := Option.isSome_iff_exists.1 (h f List.mem_cons_self)
    have hrest := ih fun f' hf' => h f' (List.mem_cons_of_mem _ hf')
    rw [List.foldlM_cons]
    by_cases hempty : v.isEmpty
    · have hadd : addField r t f = .ok t := by simp [addField, Record.value, hv, hempty]
      have hnode : shownNode? r f = none := by simp [shownNode?, hv, hempty]
      rw [hadd, List.filterMap_cons_none (by rw [hnode]; rfl)]
      exact hrest t
    · have hadd : addField r t f = .ok (Tree.setElement t f.name (fieldElement f v)) := by
        simp [addField, Record.value, hv, hempty]
      have hnode : shownNode? r f = some (.element (fieldElement f v)) := by
        simp [shownNode?, hv, hempty]
      rw [hadd, List.filterMap_cons_some (by rw [hnode]; rfl)]
      exact hrest _

/-- A record with one slot for each declared field is rendered. -/
theorem render_eq_of_keys {r : Record} (h : r.slots.keys = r.schema.fieldNames.eraseDups)
    (context : RenderContext) : render r context = .ok ((header r context).merge (shown r)) := by
  have hslot : ∀ f ∈ shownOrder r.schema, (r.slots.get? f.name).isSome := fun f hf => by
    rw [OrderedMap.isSome_get?_iff, h, List.mem_eraseDups]
    exact List.mem_map_of_mem (mem_shownOrder.1 hf)
  exact foldlM_addField hslot _

theorem renderer_eq_of_keys {r : Record} (h : r.slots.keys = r.schema.fieldNames.eraseDups)
    (context : RenderContext) : renderer r context = .ok ((header r context).merge (shown r)) := by
  rw [renderer, render_eq_of_keys h]

/-- **A well-formed record is always rendered.** -/
theorem renderer_eq {r : Record} (h : r.WellFormed) (context : RenderContext) :
    renderer r context = .ok ((header r context).merge (shown r)) :=
  renderer_eq_of_keys h.keys context

/-- **Hiding fields** takes exactly their elements away. -/
theorem shown_withOnly (r : Record) (names : List String) :
    shown (r.withOnly names) = (shown r).filter fun key _ => key ∈ names := by
  have hnode (f : Field) :
      shownNode? (r.withOnly names) f = if f.name ∈ names then shownNode? r f else none := by
    simp only [shownNode?, Record.withOnly, OrderedMap.get?_mapValues]
    cases r.slots.get? f.name with
    | none => simp
    | some v => by_cases hf : f.name ∈ names <;> simp [hf, FieldValue.isEmpty]
  unfold shown OrderedMap.filter
  rw [List.filter_filterMap]
  refine congrArg OrderedMap.mk (List.filterMap_congr fun f _ => ?_)
  rw [hnode]
  cases shownNode? r f <;> by_cases hf : f.name ∈ names <;> simp [hf, Option.filter_some]

end FieldList

namespace Composer

/-- The composer without resolvers and transforms. -/
def plain : Composer (Except ViewError) where
  render := FieldList.renderer

/-- The composer without resolvers and transforms, with a weight for the first container. -/
def plainFrom (start : Int32) : Composer (Except ViewError) := { plain with weightStart := start }

/-- The rendering that becomes the children of a container. -/
def body (r : Record) (context : RenderContext) (f : Fieldset) : Tree :=
  (FieldList.header r context).merge (FieldList.shown (r.withOnly f.fields))

/-- The containers of fieldsets, with weights that count up. -/
def containers (r : Record) (context : RenderContext) :
    Int32 → List Fieldset → List (String × Node)
  | _, [] => []
  | weight, f :: rest =>
    (f.name, .element (container f weight (body r context f)))
      :: containers r context (weight + 1) rest

/-- The detail page of a well-formed record, with a weight for the first container. -/
def pageFrom (start : Int32) (r : Record) (view : View) (context : RenderContext) : Tree :=
  (((FieldList.header r context).merge (FieldList.shown r)).merge
    (.ofList (containers r context start view.fieldsets))).filter fun key _ => keeps view r key

/-- The detail page of a well-formed record. -/
def page (r : Record) (view : View) (context : RenderContext) : Tree :=
  (((FieldList.header r context).merge (FieldList.shown r)).merge
    (.ofList (containers r context 0 view.fieldsets))).filter fun key _ => keeps view r key

/-- A filled record has a container for each fieldset. -/
theorem sections_eq {c : Composer (Except ViewError)} (hrender : c.render = FieldList.renderer)
    {r : Record} (h : r.Filled) (context : RenderContext) (fieldsets : List Fieldset)
    (weight : Int32) (done : Tree) :
    c.sections nextWeight r context weight done fieldsets
      = .ok (done.merge ⟨containers r context weight fieldsets⟩) := by
  induction fieldsets generalizing weight done with
  | nil => rfl
  | cons f rest ih =>
    have hbody : c.render (r.withOnly f.fields) context = .ok (body r context f) := by
      rw [hrender]
      exact FieldList.renderer_eq_of_keys (h.withOnly f.fields).keys context
    rw [sections_cons, hbody]
    exact ih (weight + 1) _

/-- **When the values that are shown can be set**, the page is that of the record that
holds them, after the transforms. -/
theorem compose_eq_of_resolveValues {c : Composer (Except ViewError)}
    (hrender : c.render = FieldList.renderer) {r r' : Record}
    (hresolve : resolveValues c.resolvers r = .ok r') (h : r'.Filled) (view : View)
    (context : RenderContext) :
    c.compose r view context
      = .ok (c.transforms.foldl (fun t f => f t) (pageFrom c.weightStart r' view context)) := by
  have hwhole : c.render r' context
      = .ok ((FieldList.header r' context).merge (FieldList.shown r')) := by
    rw [hrender]
    exact FieldList.renderer_eq_of_keys h.keys context
  rw [compose_eq_bind hresolve, sections_eq hrender h]
  change c.finished r' view context _ = _
  rw [finished, hwhole]
  rfl

/-- A record has a page exactly when the values that are shown can be set. -/
theorem exists_compose_iff {c : Composer (Except ViewError)}
    (hrender : c.render = FieldList.renderer) {r : Record} (h : r.Filled) (view : View)
    (context : RenderContext) :
    (∃ page, c.compose r view context = .ok page) ↔
      ∃ r', resolveValues c.resolvers r = .ok r' := by
  constructor
  · rintro ⟨page, hpage⟩
    cases hresolve : resolveValues c.resolvers r with
    | ok r' => exact ⟨r', rfl⟩
    | error e => cases (compose_of_resolveValues_eq_error hresolve).symm.trans hpage
  · rintro ⟨r', hresolve⟩
    exact ⟨_, compose_eq_of_resolveValues hrender hresolve (h.setAll hresolve).2 view context⟩

/-- **A well-formed record always has a page**, whatever the weight of the first container. -/
theorem compose_plainFrom {r : Record} (h : r.WellFormed) (start : Int32) (view : View)
    (context : RenderContext) :
    (plainFrom start).compose r view context = .ok (pageFrom start r view context) :=
  compose_eq_of_resolveValues rfl rfl h.filled view context

theorem compose_plain {r : Record} (h : r.WellFormed) (view : View) (context : RenderContext) :
    plain.compose r view context = .ok (page r view context) :=
  compose_plainFrom h 0 view context

/-- **Where a key of a page is looked up:** in the containers, the fields, the header. -/
theorem get?_page {r : Record} (h : r.schema.fieldNames.Nodup) (view : View)
    (context : RenderContext) (key : String) :
    (page r view context).get? key =
      if keeps view r key then
        ((OrderedMap.ofList (containers r context 0 view.fieldsets)).get? key).or
          (((FieldList.shown r).get? key).or ((FieldList.header r context).get? key))
      else none := by
  rw [page, OrderedMap.get?_filter_key, OrderedMap.get?_merge_of_nodup
    (OrderedMap.nodup_keys_ofList _), OrderedMap.get?_merge_of_nodup (FieldList.nodup_keys_shown h)]

/-- No key is repeated on a page. -/
theorem nodup_keys_pageFrom (start : Int32) (r : Record) (view : View) (context : RenderContext) :
    (pageFrom start r view context).keys.Nodup := by
  refine OrderedMap.nodup_keys_filter (OrderedMap.nodup_keys_merge ?_ _) _
  exact OrderedMap.nodup_keys_merge (OrderedMap.nodup_keys_ofList _) _

theorem nodup_keys_page (r : Record) (view : View) (context : RenderContext) :
    (page r view context).keys.Nodup :=
  nodup_keys_pageFrom 0 r view context

end Composer
end Inventory
