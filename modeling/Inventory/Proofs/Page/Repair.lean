/-
# Pages of views with offending references

`compose` and `mark_selectable` under a view that `check` lets through in lenient mode.

In the lenient mode a view is used with the references that offend, and nothing rewrites
it. A page is meant to come out as if they were not there, that is, as the page of the
repaired view, and so are the filters of a list page.

| reference | |
| --- | --- |
| to a field that is not declared | nothing is rendered for it |
| listed again in one fieldset | the record is reduced to the same fields |
| listed again in another fieldset | the field is shown in both containers |
| a selectable column without a filter | there is nothing to mark |

So the filters always come out as meant (`ListView.filterTable_repaired`), and the pages
do when no two fieldsets list one field, apart from fields that are named like a
property, which no container shows (`Composer.omits_iff`).
-/

import Inventory.Proofs.Listing.Options
import Inventory.Proofs.Page.Confinement
import Inventory.Proofs.Page.Layout
import Inventory.Proofs.Page.References

namespace Inventory

/-! ### The filters of a list page -/

namespace FilterTable

/-- A name without a filter marks nothing. -/
theorem markSelectable_filter {t : FilterTable} {selectable : List String} {p : String → Bool}
    (h : ∀ name ∈ selectable, name ∈ t.keys → p name = true) (records : List Record) :
    markSelectable t (selectable.filter p) records = markSelectable t selectable records := by
  rw [markSelectable_eq_mapValues, markSelectable_eq_mapValues]
  refine OrderedMap.mapValues_congr fun e he => ?_
  have hmem : e.1 ∈ selectable.filter p ↔ e.1 ∈ selectable := by
    rw [List.mem_filter]
    exact and_iff_left_of_imp fun hname => h e.1 hname (List.mem_map_of_mem he)
  simp only [hmem]

end FilterTable

/-- **The filters of a list page** come out as for the repaired view. -/
theorem ListView.filterTable_repaired {s : Schema} (hnames : s.fieldNames.Nodup) (v : View)
    (records : List Record) :
    ListView.filterTable ⟨s, (v.repaired s).selectable⟩ records
      = ListView.filterTable ⟨s, v.selectable⟩ records := by
  refine FilterTable.markSelectable_filter (fun name _ hkey => ?_) records
  obtain ⟨f, hf, hfilter, rfl⟩ := FilterTable.mem_keys_ofSchema_iff.1 hkey
  simp [View.selectableProblem?, Schema.field?_of_mem hnames hf, hfilter]

/-! ### Detail pages -/

/-- The children of a plain rendering are those of what is laid over the header. -/
theorem FieldList.childNodes_header_merge (r : Record) (context : RenderContext) {t : Tree}
    (ht : t.keys.Nodup) : Tree.childNodes ((header r context).merge t) = Tree.childNodes t := by
  have hsplit (t : Tree) : Tree.childNodes t
      = (t.filter fun key _ => !isMetaKey key).filter fun _ node => node.isElement := by
    unfold Tree.childNodes OrderedMap.filter
    rw [List.filter_filter]
    simp only [Bool.and_comm]
  have hheader : (header r context).filter (fun key _ => !isMetaKey key) = .empty := by
    refine congrArg OrderedMap.mk (List.filter_eq_nil_iff.2 fun e he => ?_)
    simp [isMetaKey_of_mem_keys_header (List.mem_map_of_mem he)]
  have hrest : ((t.filter fun key _ => !isMetaKey key).keys).Nodup :=
    OrderedMap.nodup_keys_filter ht _
  have hempty : OrderedMap.merge .empty (t.filter fun key _ => !isMetaKey key)
      = t.filter fun key _ => !isMetaKey key :=
    congrArg OrderedMap.mk (OrderedMap.entries_ofList hrest)
  rw [hsplit, hsplit t, OrderedMap.filter_merge_key, hheader, hempty]

namespace Composer

variable {c : Composer (Except ViewError)} {s : Schema} {v : View} {r : Record}
  {context : RenderContext} {f g : Fieldset}

/-- A record with one slot for each declared field is reduced to the same fields. -/
theorem withOnly_relisted (h : View.Relisted r.schema (fun _ => true) f g)
    (hkeys : r.slots.keys = r.schema.fieldNames.eraseDups) :
    r.withOnly g.fields = r.withOnly f.fields := by
  refine congrArg (fun slots => { r with slots := OrderedMap.mk slots })
    (List.map_congr_left fun e he => ?_)
  have hkey : e.1 ∈ r.slots.keys := List.mem_map_of_mem he
  rw [hkeys, List.mem_eraseDups] at hkey
  simp [h.fields e.1 hkey rfl]

/-- A container shows the same where the listings are the same for fields that are not
named like a property. -/
theorem container_relisted (hnames : r.schema.fieldNames.Nodup)
    (h : View.Relisted r.schema (!isMetaKey ·) f g) (weight : Int32) :
    container g weight (body r context g) = container f weight (body r context f) := by
  have hshown (names : List String) : (FieldList.shown (r.withOnly names)).keys.Nodup :=
    FieldList.nodup_keys_shown (r := r.withOnly names) hnames
  have hdetails : details g weight = details f weight := by rw [h.eq]; rfl
  have hchildren : Tree.childNodes (body r context g) = Tree.childNodes (body r context f) := by
    rw [body, body, FieldList.childNodes_header_merge r context (hshown _),
      FieldList.childNodes_header_merge r context (hshown _), FieldList.shown_withOnly,
      FieldList.shown_withOnly, Tree.childNodes, Tree.childNodes, OrderedMap.filter,
      OrderedMap.filter, OrderedMap.filter, OrderedMap.filter, List.filter_filter,
      List.filter_filter]
    refine congrArg OrderedMap.mk (List.filter_congr fun e he => ?_)
    have hkey := (FieldList.mem_keys_shown_iff.1 (List.mem_map_of_mem he)).1
    by_cases hmeta : isMetaKey e.1 = true
    · simp [hmeta]
    · simp [h.fields e.1 hkey (by simp [hmeta])]
  rw [container_eq, container_eq, hdetails, hchildren]

/-- Under a name unlike a property's a container has the element of a listed field. -/
theorem get?_container_of_unlike (hnames : r.schema.fieldNames.Nodup) (f : Fieldset)
    (weight : Int32) {key : String} (h : isMetaKey key = false) :
    (container f weight (body r context f)).get? key
      = if key ∈ f.fields then (FieldList.shown r).get? key else none := by
  have hheader : (FieldList.header r context).get? key = none :=
    OrderedMap.get?_eq_none_iff.2 fun hkey => by
      simp [FieldList.isMetaKey_of_mem_keys_header hkey] at h
  have hdetails : (details f weight).get? key = none :=
    OrderedMap.get?_eq_none_iff.2 fun hkey => by simp [isMetaKey_of_mem_keys_details hkey] at h
  have hshown : (FieldList.shown (r.withOnly f.fields)).keys.Nodup :=
    FieldList.nodup_keys_shown (r := r.withOnly f.fields) hnames
  rw [get?_container, body, OrderedMap.get?_merge_of_nodup hshown, hheader, hdetails,
    Option.or_none, Option.or_none, FieldList.shown_withOnly, OrderedMap.get?_filter_key]
  by_cases hkey : key ∈ f.fields
  · cases hnode : (FieldList.shown r).get? key with
    | none => simp [hkey]
    | some node =>
      have helement := FieldList.isElement_of_mem_shown (OrderedMap.mem_entries_of_get? hnode)
      simp [hkey, h, helement]
  · simp [hkey]

/-- Fieldsets whose containers come out the same have the same sections. -/
theorem sections_congr {fs gs : List Fieldset}
    (h : List.Forall₂ (fun f g => g.name = f.name ∧ ∀ weight,
      container g weight <$> c.render (r.withOnly g.fields) context
        = container f weight <$> c.render (r.withOnly f.fields) context) fs gs)
    (weight : Int32) (done : Tree) :
    c.sections nextWeight r context weight done gs = c.sections nextWeight r context weight done fs := by
  induction h generalizing weight done with
  | nil => rfl
  | @cons f g fs gs hfirst _ ih =>
    obtain ⟨hname, hcontainer⟩ := hfirst
    have hsections (f : Fieldset) (fs : List Fieldset) :
        c.sections nextWeight r context weight done (f :: fs)
          = (container f weight <$> c.render (r.withOnly f.fields) context) >>= fun t =>
            c.sections nextWeight r context (weight + 1) (Tree.setElement done f.name t) fs := by
      rw [sections_cons, bind_map_left]
    rw [hsections, hsections, hcontainer, hname]
    simp only [ih]

/-- Views with the same sections, under the same names, have the same pages. -/
theorem compose_congr {v' : View}
    (hnames : v'.fieldsets.map (·.name) = v.fieldsets.map (·.name))
    (hsections : ∀ r', resolveValues c.resolvers r = .ok r' →
      c.sections nextWeight r' context c.weightStart .empty v'.fieldsets
        = c.sections nextWeight r' context c.weightStart .empty v.fieldsets) :
    c.compose r v' context = c.compose r v context := by
  have hkeeps (r : Record) : keeps v' r = keeps v r := by
    funext key
    rw [keeps, keeps, hnames]
  unfold compose composeCounting
  cases hr : resolveValues c.resolvers r with
  | error e => rfl
  | ok r' => simp only [hsections r' hr, hkeeps, pure_bind]

/-- **A view that lists no field in two fieldsets** has the pages of the repaired view,
however a record is rendered. -/
theorem compose_repaired (honce : View.ListsOnce s (fun _ => true) v.fieldsets)
    (hr : r.BuiltOn s) (c : Composer (Except ViewError)) (context : RenderContext) :
    c.compose r (v.repaired s) context = c.compose r v context := by
  refine compose_congr (View.map_name_repairFieldsets [] v.fieldsets) fun r' hr' =>
    sections_congr ?_ _ _
  obtain ⟨hschema, hfilled⟩ := hr.wellFormed.filled.setAll hr'
  rw [hr.schema_eq] at hschema
  refine (View.forall₂_repairFieldsets honce (by simp)).imp fun f g h => ⟨?_, fun weight => ?_⟩
  · rw [h.eq]
  · rw [withOnly_relisted (hschema ▸ h) hfilled.keys, h.eq]
    rfl

/-- **A view that shows no field in two fieldsets** has the plain pages of the repaired
view, whatever the resolvers and transforms. -/
theorem compose_repaired_of_renderer (hnames : s.fieldNames.Nodup)
    (honce : View.ListsOnce s (!isMetaKey ·) v.fieldsets) (hr : r.BuiltOn s)
    (hrender : c.render = FieldList.renderer) (context : RenderContext) :
    c.compose r (v.repaired s) context = c.compose r v context := by
  refine compose_congr (View.map_name_repairFieldsets [] v.fieldsets) fun r' hr' =>
    sections_congr ?_ _ _
  obtain ⟨hschema, hfilled⟩ := hr.wellFormed.filled.setAll hr'
  rw [hr.schema_eq] at hschema
  have hbody (f : Fieldset) : c.render (r'.withOnly f.fields) context
      = .ok (body r' context f) := by
    have hslots : (r'.withOnly f.fields).slots.keys
        = (r'.withOnly f.fields).schema.fieldNames.eraseDups :=
      (OrderedMap.keys_mapValues _ _).trans hfilled.keys
    rw [hrender, FieldList.renderer_eq_of_keys hslots]
    rfl
  refine (View.forall₂_repairFieldsets honce (by simp)).imp fun f g h => ⟨?_, fun weight => ?_⟩
  · rw [h.eq]
  · rw [hbody, hbody]
    exact congrArg Except.ok (container_relisted (hschema ▸ hnames) (hschema ▸ h) weight)

/-- **A field that two fieldsets list** is in both containers of a page, if there is
something to show, and only in one of them with the repaired view. -/
theorem beq_page_repaired_eq_false (hnames : r.schema.fieldNames.Nodup)
    (hfieldsets : (v.fieldsets.map (·.name)).Nodup) {i : Nat} {name : String}
    (hf : v.fieldsets[i]? = some f) (hg : (v.repaired s).fieldsets[i]? = some g)
    (hname : g.name = f.name) (hmeta : isMetaKey name = false) (hlisted : name ∈ f.fields)
    (hleft : name ∉ g.fields) (hshown : name ∈ (FieldList.shown r).keys)
    (context : RenderContext) :
    (page r v context == page r (v.repaired s) context) = false := by
  refine Bool.eq_false_iff.2 fun hpages => ?_
  have hrepaired : ((v.repaired s).fieldsets.map (·.name)).Nodup :=
    (View.map_name_repairFieldsets [] v.fieldsets).symm ▸ hfieldsets
  have halike := alike_of_beq_pageFrom hfieldsets hrepaired hpages hf hg hname
  rcases halike.cases name with ⟨hnone, -⟩ | ⟨node, node', -, hsome, -⟩
  · rw [get?_container_of_unlike hnames f _ hmeta, if_pos hlisted, OrderedMap.get?_eq_none_iff]
      at hnone
    exact hnone hshown
  · rw [get?_container_of_unlike hnames g _ hmeta, if_neg hleft] at hsome
    cases hsome

/-- Plain pages come out as those of the repaired view, whatever the resolvers, the
transforms and the weight of the first container. -/
def Omits (s : Schema) (v : View) : Prop :=
  ∀ c : Composer (Except ViewError), c.render = FieldList.renderer → ∀ r, r.BuiltOn s →
    ∀ context, c.compose r (v.repaired s) context = c.compose r v context

/-- Some record has a plain page that is not equal to that of the repaired view. -/
def Differs (s : Schema) (v : View) : Prop :=
  ∀ context, ∃ r t t', r.BuiltOn s ∧ plain.compose r v context = .ok t
    ∧ plain.compose r (v.repaired s) context = .ok t' ∧ (t == t') = false

/-- A field that two fieldsets list makes the repaired page another one. -/
theorem differs_of_not_listsOnce (hnames : s.fieldNames.Nodup)
    (hfieldsets : (v.fieldsets.map (·.name)).Nodup)
    (h : ¬ View.ListsOnce s (!isMetaKey ·) v.fieldsets) : Differs s v := by
  intro context
  obtain ⟨i, f, g, name, hf, hg, hname, hdeclared, hunlike, hlisted, hleft⟩ :=
    View.exists_left_out h
  obtain ⟨field, hfield, rfl⟩ := List.mem_map.1 hdeclared
  have hr := builtOn_sampleRecord (Schema.field?_of_mem hnames hfield)
  have hshown : field.name ∈ (FieldList.shown (sampleRecord s field)).keys := by
    rw [← OrderedMap.isSome_get?_iff, get?_shown_sampleRecord hnames hfield]
    rfl
  exact ⟨_, _, _, hr, compose_plain hr.wellFormed v context,
    compose_plain hr.wellFormed (v.repaired s) context,
    beq_page_repaired_eq_false (hr.schema_eq ▸ hnames) hfieldsets hf hg hname
      (by simpa using hunlike) hlisted hleft hshown context⟩

/-- Where a page differs, the references are not left out. -/
theorem not_omits_of_differs (h : Differs s v) : ¬ Omits s v := by
  intro homits
  obtain ⟨r, t, t', hr, ht, ht', hne⟩ := h {}
  have hself := compose_alike plain_respects hr.wellFormed.toDistinct.alike_self v {}
  have hsame := homits plain rfl r hr {}
  rw [ht'] at hsame
  rw [ht] at hself hsame
  obtain rfl := Except.ok.inj hsame
  cases hself with
  | ok halike =>
    rw [halike.beq] at hne
    cases hne

/-- **What is made of references that offend.** On a valid schema, of a view whose
problems are such references: the repaired view has no problems, and the filters of a
list page come out as for it, whatever the records. Plain pages come out as for it
exactly when no two fieldsets list one declared field, apart from fields that are named
like a property; when two do, some record has another page. When no two list any
declared field, pages come out as for it however a record is rendered. -/
theorem omits_iff (hvalid : s.validate = .ok ()) (hview : View.OnlyReferences (v.problems s)) :
    (v.repaired s).problems s = []
      ∧ (∀ records, ListView.filterTable ⟨s, (v.repaired s).selectable⟩ records
          = ListView.filterTable ⟨s, v.selectable⟩ records)
      ∧ (Omits s v ↔ View.ListsOnce s (!isMetaKey ·) v.fieldsets)
      ∧ (¬ View.ListsOnce s (!isMetaKey ·) v.fieldsets → Differs s v)
      ∧ (View.ListsOnce s (fun _ => true) v.fieldsets →
          ∀ (c : Composer (Except ViewError)) r, r.BuiltOn s → ∀ context,
            c.compose r (v.repaired s) context = c.compose r v context) := by
  have hnames := Schema.nodup_of_validate hvalid
  obtain ⟨-, hfieldsets, -⟩ := View.onlyReferences_problems_iff.1 hview
  have hdiffers := differs_of_not_listsOnce (v := v) hnames hfieldsets
  refine ⟨View.problems_eq_nil_iff.2 (View.agrees_repaired hview),
    ListView.filterTable_repaired hnames v,
    ⟨fun homits => ?_, fun honce c hrender r hr context => ?_⟩, hdiffers,
    fun honce c r hr context => compose_repaired honce hr c context⟩
  · by_contra hlisted
    exact not_omits_of_differs (hdiffers hlisted) homits
  · exact compose_repaired_of_renderer hnames honce hr hrender context

/-- A view of machines with a field that is not declared, one that its fieldset lists
twice, and a selectable column that is not a field. -/
def roughView : View where
  entityType := "vm"
  fieldsets := [{ name := "place", title := "Place", fields := ["zone", "rack", "zone"] },
    { name := "remarks", title := "Remarks", fields := ["note"] }]
  selectable := ["rack", "zone"]

/-- A view with two references that offend, on whose pages they do not show. -/
theorem omits_iff_rough :
    zonedSchema.validate = .ok () ∧ View.OnlyReferences (roughView.problems zonedSchema)
      ∧ (roughView.repaired zonedSchema).problems zonedSchema = []
      ∧ (∀ records,
          ListView.filterTable ⟨zonedSchema, (roughView.repaired zonedSchema).selectable⟩ records
            = ListView.filterTable ⟨zonedSchema, roughView.selectable⟩ records)
      ∧ Omits zonedSchema roughView := by
  have hview : View.OnlyReferences (roughView.problems zonedSchema) := by decide +kernel
  have honce : View.ListsOnce zonedSchema (!isMetaKey ·) roughView.fieldsets := by decide
  obtain ⟨hproblems, hfilters, hpages, -⟩ := omits_iff (s := zonedSchema) rfl hview
  exact ⟨rfl, hview, hproblems, hfilters, hpages.2 honce⟩

/-- A view of machines with the zone in two fieldsets. -/
def doubleView : View where
  entityType := "vm"
  fieldsets := [{ name := "place", title := "Place", fields := ["zone", "name"] },
    { name := "again", title := "Again", fields := ["zone"] }]

/-- The zone of a machine is shown in both containers, though the only problem of the view
is that it is listed again. -/
theorem not_omits_double :
    doubleView.problems zonedSchema = [.duplicateField "zone" "place" "again"]
      ∧ (∃ t t', plain.compose zonedRecord doubleView {} = .ok t
          ∧ plain.compose zonedRecord (doubleView.repaired zonedSchema) {} = .ok t'
          ∧ (t == t') = false)
      ∧ ¬ Omits zonedSchema doubleView := by
  have hr := builtOn_zonedRecord
  have hshown : "zone" ∈ (FieldList.shown zonedRecord).keys :=
    FieldList.mem_keys_shown_iff.2 ⟨by decide, by decide⟩
  have hne : (page zonedRecord doubleView {}
      == page zonedRecord (doubleView.repaired zonedSchema) {}) = false :=
    beq_page_repaired_eq_false (i := 1) (f := ⟨"again", "Again", true, ["zone"]⟩)
      (g := ⟨"again", "Again", true, []⟩) (by decide) (by decide) rfl (by decide +kernel) rfl rfl
      (by decide) (by decide) hshown {}
  have hdiffers : Differs zonedSchema doubleView :=
    differs_of_not_listsOnce (by decide) (by decide) (by decide)
  exact ⟨by decide +kernel, ⟨_, _, compose_plain hr.wellFormed _ {},
    compose_plain hr.wellFormed _ {}, hne⟩, not_omits_of_differs hdiffers⟩

end Composer
end Inventory
