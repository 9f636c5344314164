/-
# What is rendered within a page

The fields that `compose` shows in containers.

An element is *within* another one when it is that one or stands below it, and it
says in `#field_name` which field it is the rendering of. No element says so of a
field in an element that is free of it (`Tree.FreeOf`), and an element is free of
a field when it does not render it and its children are free of it.

| element | renders |
| --- | --- |
| of a field | that field |
| container of a fieldset | nothing, and holds fields of the fieldset only |
| page | nothing, and holds what `get?_page` says |
-/

import Inventory.Proofs.Page.ClosedForm

namespace Inventory

/-- An element that is another one, or stands below it. -/
inductive Tree.Within (e : Tree) : Tree → Prop where
  | self : Within e e
  | child {t c : Tree} {key : String} (h : (key, Node.element c) ∈ t.entries) (hc : Within e c) :
      Within e t

/-- Whether an element says that it is the rendering of a field. -/
def Tree.Renders (e : Tree) (name : String) : Prop := Tree.text? e "#field_name" = some name

namespace Tree

/-- An element in which no element says that it is the rendering of a field. -/
def FreeOf (name : String) (t : Tree) : Prop := ∀ e, Within e t → ¬ Renders e name

/-- An element is free of a field when it does not render it and its children are free of it. -/
theorem freeOf_of_children {name : String} {t : Tree} (hself : ¬ Renders t name)
    (hchildren : ∀ key c, (key, Node.element c) ∈ t.entries → FreeOf name c) : FreeOf name t := by
  intro e he
  cases he with
  | self => exact hself
  | child h hc => exact hchildren _ _ h e hc

/-- What renders a field says so in a property. -/
theorem Renders.get?_eq_some {t : Tree} {name : String} (h : Renders t name) :
    ∃ d, t.get? "#field_name" = some (.property d) := by
  unfold Renders text? property? at h
  cases hget : t.get? "#field_name" with
  | none => simp [hget] at h
  | some node =>
    cases node with
    | property d => exact ⟨d, rfl⟩
    | element c => simp [hget] at h

/-- Properties stand under their keys. -/
theorem get?_ofProperties {l : List (String × Data)} {key : String} {node : Node}
    (h : (ofProperties l).get? key = some node) : ∃ d, (key, d) ∈ l ∧ node = .property d := by
  rw [ofProperties, OrderedMap.get?_ofList] at h
  have hmem := List.mem_reverse.1 (OrderedMap.mem_of_lookupIn_eq_some h)
  obtain ⟨⟨key', d⟩, hd, he⟩ := List.mem_map.1 hmem
  obtain ⟨rfl, rfl⟩ := Prod.mk.inj he
  exact ⟨d, hd, rfl⟩

end Tree

namespace FieldList

/-- A page is not itself the rendering of a field. -/
theorem get?_header_fieldName (r : Record) (context : RenderContext) :
    (header r context).get? "#field_name" = none := by
  rw [Option.eq_none_iff_forall_ne_some]
  intro node hnode
  obtain ⟨d, hd, -⟩ := Tree.get?_ofProperties hnode
  cases hlang : context.langcode <;> simp [hlang] at hd

/-- The element of a field renders no other one. -/
theorem freeOf_fieldElement {f : Field} {name : String} (h : f.name ≠ name) (v : FieldValue) :
    Tree.FreeOf name (fieldElement f v) := by
  refine Tree.freeOf_of_children (fun hrenders => h ?_) fun key c hc => ?_
  · have htext : Tree.text? (fieldElement f v) "#field_name" = some f.name := rfl
    exact Option.some.inj (htext.symm.trans hrenders)
  · have hget := (OrderedMap.get?_eq_some_iff (OrderedMap.nodup_keys_ofList _)).2 hc
    obtain ⟨d, -, hd⟩ := Tree.get?_ofProperties hget
    cases hd

/-- What is shown under a key is the element of the field of that name. -/
theorem get?_shown_element {r : Record} (h : r.schema.fieldNames.Nodup) {key : String}
    {node : Node} (hnode : (shown r).get? key = some node) :
    ∃ f ∈ r.schema.fields, f.name = key ∧ ∃ v, r.slots.get? key = some v
      ∧ v.isEmpty = false ∧ node = .element (fieldElement f v) := by
  obtain ⟨f, hf, rfl, hshown⟩ := (get?_shown_eq_some_iff h).1 hnode
  unfold shownNode? at hshown
  cases hv : r.slots.get? f.name with
  | none => simp [hv] at hshown
  | some v =>
    by_cases hempty : v.isEmpty = true
    · simp [hv, hempty] at hshown
    · simp only [hv, hempty] at hshown
      exact ⟨f, hf, rfl, v, rfl, Bool.not_eq_true _ ▸ hempty, (Option.some.inj hshown).symm⟩

end FieldList

namespace Composer

variable {v : View} {context : RenderContext} {r : Record} {name : String}

/-- Hidden fields are not shown. -/
theorem mem_of_get?_shown_withOnly (hnames : r.schema.fieldNames.Nodup) {names : List String}
    {key : String} {node : Node}
    (hnode : (FieldList.shown (r.withOnly names)).get? key = some node) :
    key ∈ names ∧ ∃ f value, f.name = key ∧ node = .element (FieldList.fieldElement f value) := by
  rw [FieldList.shown_withOnly, OrderedMap.get?_filter_key] at hnode
  split at hnode
  · rename_i hkey
    obtain ⟨f, -, hf, value, -, -, rfl⟩ := FieldList.get?_shown_element hnames hnode
    exact ⟨of_decide_eq_true hkey, f, value, hf, rfl⟩
  · cases hnode

/-- No key is repeated in the body of a container. -/
theorem nodup_keys_body (r : Record) (context : RenderContext) (f : Fieldset) :
    (body r context f).keys.Nodup :=
  OrderedMap.nodup_keys_merge (OrderedMap.nodup_keys_ofList _) _

/-- No key is repeated in a container. -/
theorem nodup_keys_container (f : Fieldset) (weight : Int32) (t : Tree) :
    (container f weight t).keys.Nodup := by
  rw [container_eq]
  exact OrderedMap.nodup_keys_merge (OrderedMap.nodup_keys_ofList _) _

/-- What stands under a key of a container. -/
theorem get?_container (f : Fieldset) (weight : Int32) (key : String) :
    (container f weight (body r context f)).get? key
      = (((body r context f).get? key).filter fun node => !isMetaKey key && node.isElement).or
        ((details f weight).get? key) := by
  have hbody := nodup_keys_body r context f
  have hchildren : (Tree.childNodes (body r context f)).keys.Nodup :=
    OrderedMap.nodup_keys_filter hbody _
  rw [container_eq, OrderedMap.get?_merge_of_nodup hchildren, Tree.childNodes,
    OrderedMap.get?_filter hbody]

/-- A container renders nothing but fields that its fieldset lists. -/
theorem freeOf_container (hnames : r.schema.fieldNames.Nodup) {f : Fieldset}
    (hname : name ∉ f.fields) (weight : Int32) :
    Tree.FreeOf name (container f weight (body r context f)) := by
  have hnodup := nodup_keys_container f weight (body r context f)
  refine Tree.freeOf_of_children (fun hrenders => ?_) fun key c hc => ?_
  · obtain ⟨d, hd⟩ := hrenders.get?_eq_some
    rw [get?_container, Option.or_eq_some_iff] at hd
    rcases hd with hchild | ⟨-, hdetail⟩
    · cases (Option.filter_eq_some_iff.1 hchild).2
    · obtain ⟨d', hd', -⟩ := Tree.get?_ofProperties hdetail
      simp at hd'
  · have hget := (OrderedMap.get?_eq_some_iff hnodup).2 hc
    rw [get?_container, Option.or_eq_some_iff] at hget
    rcases hget with hchild | ⟨-, hdetail⟩
    · have hbody := (Option.filter_eq_some_iff.1 hchild).1
      have hfields : (FieldList.shown (r.withOnly f.fields)).keys.Nodup :=
        FieldList.nodup_keys_shown hnames
      rw [body, OrderedMap.get?_merge_of_nodup hfields, Option.or_eq_some_iff] at hbody
      rcases hbody with hshown | ⟨-, hheader⟩
      · obtain ⟨hkey, f', value, rfl, he⟩ := mem_of_get?_shown_withOnly hnames hshown
        have hne : f'.name ≠ name := fun e => hname (e ▸ hkey)
        rw [Node.element.inj he]
        exact FieldList.freeOf_fieldElement hne value
      · obtain ⟨d, -, hd⟩ := Tree.get?_ofProperties hheader
        cases hd
    · obtain ⟨d, -, hd⟩ := Tree.get?_ofProperties hdetail
      cases hd

/-- What stands under the name of a fieldset is a container. -/
theorem get?_containers_eq_some {fieldsets : List Fieldset} {key : String} {node : Node}
    (hnode : (OrderedMap.ofList (containers r context 0 fieldsets)).get? key = some node) :
    ∃ f ∈ fieldsets, ∃ weight, node = .element (container f weight (body r context f)) := by
  have hall (weight : Int32) (fieldsets : List Fieldset) :
      ∀ e ∈ containers r context weight fieldsets, ∃ f ∈ fieldsets, ∃ weight,
        e.2 = .element (container f weight (body r context f)) := by
    induction fieldsets generalizing weight with
    | nil => simp [containers]
    | cons f rest ih =>
      intro e he
      rcases List.mem_cons.1 he with rfl | he
      · exact ⟨f, List.mem_cons_self, weight, rfl⟩
      · obtain ⟨f', hf', h⟩ := ih (weight + 1) e he
        exact ⟨f', List.mem_cons_of_mem _ hf', h⟩
  rw [OrderedMap.get?_ofList] at hnode
  exact hall 0 fieldsets _ (List.mem_reverse.1 (OrderedMap.mem_of_lookupIn_eq_some hnode))

/-- Containers stand under the names of their fieldsets. -/
theorem map_fst_containers (r : Record) (context : RenderContext) (weight : Int32)
    (fieldsets : List Fieldset) :
    (containers r context weight fieldsets).map Prod.fst = fieldsets.map (·.name) := by
  induction fieldsets generalizing weight with
  | nil => rfl
  | cons f rest ih => rw [containers, List.map_cons, ih, List.map_cons]

/-- No container stands under what is no fieldset's name. -/
theorem get?_containers_eq_none_iff (r : Record) (context : RenderContext) {key : String} :
    (OrderedMap.ofList (containers r context 0 v.fieldsets)).get? key = none
      ↔ key ∉ v.fieldsets.map (·.name) := by
  rw [OrderedMap.get?_eq_none_iff, OrderedMap.keys_ofList, List.mem_eraseDups, map_fst_containers]

/-- **What stands under a key of a page:** a container, or else the element of a
field, or else a property of the header. -/
theorem get?_page_eq_some (hnames : r.schema.fieldNames.Nodup) {key : String} {node : Node}
    (h : (page r v context).get? key = some node) :
    keeps v r key = true ∧
      ((OrderedMap.ofList (containers r context 0 v.fieldsets)).get? key = some node
        ∨ key ∉ v.fieldsets.map (·.name) ∧ ((FieldList.shown r).get? key = some node
          ∨ (FieldList.header r context).get? key = some node)) := by
  rw [get?_page hnames] at h
  split at h
  · rename_i hkeeps
    refine ⟨hkeeps, ?_⟩
    rw [Option.or_eq_some_iff, Option.or_eq_some_iff, get?_containers_eq_none_iff] at h
    exact h.imp_right fun h => ⟨h.1, h.2.imp_right And.right⟩
  · cases h

end Composer
end Inventory
