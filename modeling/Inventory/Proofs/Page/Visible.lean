/-
# What a page may show

What of a record `compose` shows.

A detail page is meant to show the fields that its view claims, and the label
field, and nothing else. Two things are asked of it (`ShowsSame`, `ShowsOnly`):
records that agree on these fields have equal pages, and no element of a page, at
any depth, is the rendering of another field.

The page is stripped by keys, and keys that start with `#` stay, because they name
properties. A field may have such a name too. A page does what is asked of it when
every such field is claimed, is the label field, or makes room for a fieldset of
its name (`View.Guarded`).

| key of the page | with a guarded schema |
| --- | --- |
| a fieldset | holds its container |
| the label field | holds its element |
| starts with `#` | holds a property, or the element of a claimed field |
| any other | is stripped |
-/

import Inventory.Proofs.Page.Within
import Inventory.Proofs.Schema.Valid

namespace Inventory

namespace View

/-- A field is claimed when a fieldset lists it. -/
theorem mem_claimedFields_iff {v : View} {name : String} :
    name ∈ v.claimedFields ↔ ∃ f ∈ v.fieldsets, name ∈ f.fields := by
  have hfold (l seen : List String) :
      name ∈ l.foldl (fun seen f => if f ∈ seen then seen else seen ++ [f]) seen
        ↔ name ∈ seen ∨ name ∈ l := by
    induction l generalizing seen with
    | nil => simp
    | cons f rest ih =>
      rw [List.foldl_cons, ih]
      by_cases hf : f ∈ seen
      · rw [if_pos hf, List.mem_cons]
        exact ⟨fun h => h.imp_right .inr, fun h => by
          rcases h with h | rfl | h
          · exact .inl h
          · exact .inl hf
          · exact .inr h⟩
      · rw [if_neg hf, List.mem_append, List.mem_singleton, List.mem_cons, or_assoc]
  rw [claimedFields, hfold, List.mem_flatMap]
  simp

/-- The fields that a page may show: the claimed ones and the label field. -/
def visible (v : View) (s : Schema) : List String := v.claimedFields ++ [s.labelField]

/-- Every field that is named like a property may be shown, or gives way to a
fieldset of its name. -/
def Guarded (s : Schema) (v : View) : Prop :=
  ∀ f ∈ s.fields, isMetaKey f.name = true →
    f.name ∈ v.visible s ∨ f.name ∈ v.fieldsets.map (·.name)

instance (s : Schema) (v : View) : Decidable (Guarded s v) :=
  inferInstanceAs (Decidable (∀ f ∈ s.fields, isMetaKey f.name = true →
    f.name ∈ v.visible s ∨ f.name ∈ v.fieldsets.map (·.name)))

end View

/-- Records of one resource and schema with equal values under some names. -/
structure Record.AgreeOn (names : List String) (r r' : Record) : Prop where
  id : r.id = r'.id
  schema : r.schema = r'.schema
  values : ∀ name ∈ names, OrderedMap.SameLookup (r.slots.get? name) (r'.slots.get? name)

namespace Composer

/-- Pages are equal for records that agree on what may be shown. -/
def ShowsSame (s : Schema) (v : View) (context : RenderContext) : Prop :=
  ∀ r r', r.WellFormed → r'.WellFormed → r.schema = s → r.AgreeOn (v.visible s) r' →
    ∃ t t', plain.compose r v context = .ok t ∧ plain.compose r' v context = .ok t'
      ∧ (t == t') = true

/-- No page holds the rendering of a field that may not be shown. -/
def ShowsOnly (s : Schema) (v : View) (context : RenderContext) : Prop :=
  ∀ r, r.WellFormed → r.schema = s →
    ∃ t, plain.compose r v context = .ok t
      ∧ ∀ e, Tree.Within e t → ∀ f ∈ s.fields, f.name ∉ v.visible s → ¬ Tree.Renders e f.name

variable {s : Schema} {v : View} {context : RenderContext} {r r' : Record}

/-! ### Hiding what may not be shown -/

/-- A fieldset sees nothing of what is hidden from the page. -/
theorem withOnly_visible {f : Fieldset} (hf : f ∈ v.fieldsets) :
    (r.withOnly (v.visible s)).withOnly f.fields = r.withOnly f.fields := by
  have hsub : ∀ name ∈ f.fields, name ∈ v.visible s := fun name hname =>
    List.mem_append_left _ (View.mem_claimedFields_iff.2 ⟨f, hf, hname⟩)
  simp only [Record.withOnly, OrderedMap.mapValues, List.map_map]
  congr 2
  refine List.map_congr_left fun e _ => ?_
  by_cases he : e.1 ∈ f.fields
  · simp [he, hsub e.1 he]
  · simp [he]

/-- Containers show fields that the view may show, and no others. -/
theorem containers_visible (fieldsets : List Fieldset) (hsub : ∀ f ∈ fieldsets, f ∈ v.fieldsets)
    (weight : Int32) :
    containers (r.withOnly (v.visible s)) context weight fieldsets
      = containers r context weight fieldsets := by
  induction fieldsets generalizing weight with
  | nil => rfl
  | cons f rest ih =>
    have hbody : body (r.withOnly (v.visible s)) context f = body r context f := by
      rw [body, withOnly_visible (hsub f List.mem_cons_self)]
      rfl
    rw [containers, containers, hbody, ih fun f hf => hsub f (List.mem_cons_of_mem _ hf)]

/-- On a guarded schema, a field that stays on the page outside the containers
may be shown. -/
theorem mem_visible_of_keeps (hguarded : View.Guarded s v) (hs : r.schema = s) {f : Field}
    (hf : f ∈ s.fields) (hkeeps : keeps v r f.name = true)
    (hcontainer : f.name ∉ v.fieldsets.map (·.name)) : f.name ∈ v.visible s := by
  simp only [keeps, Bool.or_eq_true, decide_eq_true_eq] at hkeeps
  rcases hkeeps with (hmeta | hname) | hlabel
  · exact (hguarded f hf hmeta).resolve_right hcontainer
  · exact absurd hname hcontainer
  · rw [hlabel, hs]
    exact List.mem_append_right _ (List.mem_singleton_self _)

/-- **Hiding what may not be shown** changes no lookup of the page. -/
theorem get?_page_visible (hnames : s.fieldNames.Nodup) (hguarded : View.Guarded s v)
    (hs : r.schema = s) (key : String) :
    (page r v context).get? key = (page (r.withOnly (v.visible s)) v context).get? key := by
  have hnames' : r.schema.fieldNames.Nodup := hs ▸ hnames
  have hheader : FieldList.header (r.withOnly (v.visible s)) context
      = FieldList.header r context := rfl
  have hkeeps' : keeps v (r.withOnly (v.visible s)) key = keeps v r key := rfl
  rw [get?_page hnames', get?_page (r := r.withOnly (v.visible s)) hnames', hkeeps', hheader,
    containers_visible v.fieldsets (fun _ hf => hf), FieldList.shown_withOnly,
    OrderedMap.get?_filter_key]
  by_cases hkeeps : keeps v r key = true
  · rw [if_pos hkeeps, if_pos hkeeps]
    by_cases hvisible : key ∈ v.visible s
    · simp [hvisible]
    · cases hcontainer : (OrderedMap.ofList (containers r context 0 v.fieldsets)).get? key with
      | some node => rfl
      | none =>
        have hshown : (FieldList.shown r).get? key = none := by
          rw [Option.eq_none_iff_forall_ne_some]
          intro node hnode
          obtain ⟨f, hf, rfl, -⟩ := (FieldList.get?_shown_eq_some_iff hnames').1 hnode
          exact hvisible (mem_visible_of_keeps hguarded hs (hs ▸ hf) hkeeps
            ((get?_containers_eq_none_iff r context).1 hcontainer))
        simp [hshown, hvisible]
  · rw [if_neg hkeeps, if_neg hkeeps]

/-- What is left of agreeing records is alike. -/
theorem withOnly_alike (hr : r.WellFormed) (hr' : r'.WellFormed) {names : List String}
    (h : r.AgreeOn names r') : (r.withOnly names).Alike (r'.withOnly names) where
  id := h.id
  schema := h.schema
  slots := by
    refine ⟨(hr.withOnly names).nodup, (hr'.withOnly names).nodup, fun name => ?_⟩
    have hkeys : r.slots.keys = r'.slots.keys := by rw [hr.keys, hr'.keys, h.schema]
    have hsome : (r.slots.get? name).isSome = (r'.slots.get? name).isSome := by
      rw [Bool.eq_iff_iff, OrderedMap.isSome_get?_iff, OrderedMap.isSome_get?_iff, hkeys]
    simp only [Record.withOnly, OrderedMap.get?_mapValues]
    by_cases hname : name ∈ names
    · simp only [hname, if_true]
      rcases OrderedMap.rel_cases (h.values name hname) with ⟨hv, hw⟩ | ⟨v, w, hv, hw, hvw⟩
      · rw [hv, hw]
        exact .none
      · rw [hv, hw]
        exact .some (FieldValue.alike_of_beq (hr.rows name v hv) (hr'.rows name w hw) hvw)
    · simp only [hname, if_false]
      refine OrderedMap.rel_of_isSome_eq ?_ ?_
      · rw [Option.isSome_map, Option.isSome_map, hsome]
      · intro v w hv hw
        obtain ⟨-, -, rfl⟩ := Option.map_eq_some_iff.1 hv
        obtain ⟨-, -, rfl⟩ := Option.map_eq_some_iff.1 hw
        exact .absent

theorem plain_respects : plain.Respects where
  render := fun _ _ context h => FieldList.renderer_alike h context
  resolvers := by simp [plain]
  transforms := by simp [plain]

/-- **On a guarded schema** records that agree on what may be shown have equal pages. -/
theorem showsSame_of_guarded (hnames : s.fieldNames.Nodup) (hguarded : View.Guarded s v) :
    ShowsSame s v context := by
  intro r r' hr hr' hs hagree
  refine ⟨_, _, compose_plain hr v context, compose_plain hr' v context, Tree.Alike.beq ?_⟩
  have hsame := compose_alike plain_respects (withOnly_alike hr hr' hagree) v context
  rw [compose_plain (hr.withOnly _), compose_plain (hr'.withOnly _)] at hsame
  cases hsame with
  | ok hpages =>
    refine ⟨nodup_keys_page r v context, nodup_keys_page r' v context, fun key => ?_⟩
    rw [get?_page_visible hnames hguarded hs,
      get?_page_visible hnames hguarded (hagree.schema.symm.trans hs)]
    exact hpages.lookups key

/-- **On a guarded schema** a page renders nothing but what may be shown. -/
theorem showsOnly_of_guarded (hnames : s.fieldNames.Nodup) (hguarded : View.Guarded s v) :
    ShowsOnly s v context := by
  intro r hr hs
  have hnames' : r.schema.fieldNames.Nodup := hs ▸ hnames
  refine ⟨_, compose_plain hr v context, fun e he field _ hhidden => ?_⟩
  -- It is enough to follow one child of the page, from the container or the field it comes from.
  suffices hfree : Tree.FreeOf field.name (page r v context) from hfree e he
  refine Tree.freeOf_of_children (fun hrenders => ?_) fun key c hc => ?_
  · obtain ⟨d, hd⟩ := hrenders.get?_eq_some
    obtain ⟨-, hcontainer | ⟨-, hshown | hheader⟩⟩ := get?_page_eq_some hnames' hd
    · obtain ⟨f, -, weight, h⟩ := get?_containers_eq_some hcontainer
      cases h
    · obtain ⟨f, -, -, value, -, -, h⟩ := FieldList.get?_shown_element hnames' hshown
      cases h
    · rw [FieldList.get?_header_fieldName] at hheader
      cases hheader
  · have hentry := (OrderedMap.get?_eq_some_iff (nodup_keys_page r v context)).2 hc
    obtain ⟨hkeeps, hcontainer | ⟨hfree, hshown | hheader⟩⟩ := get?_page_eq_some hnames' hentry
    · obtain ⟨f, hf, weight, h⟩ := get?_containers_eq_some hcontainer
      rw [Node.element.inj h]
      refine freeOf_container hnames' (fun hclaimed => hhidden ?_) weight
      exact List.mem_append_left _ (View.mem_claimedFields_iff.2 ⟨f, hf, hclaimed⟩)
    · obtain ⟨f, hf, rfl, value, -, -, h⟩ := FieldList.get?_shown_element hnames' hshown
      have hvisible := mem_visible_of_keeps hguarded hs (hs ▸ hf) hkeeps hfree
      have hne : f.name ≠ field.name := fun e => hhidden (e ▸ hvisible)
      rw [Node.element.inj h]
      exact FieldList.freeOf_fieldElement hne value
    · obtain ⟨d, -, h⟩ := Tree.get?_ofProperties hheader
      cases h

end Composer
end Inventory
