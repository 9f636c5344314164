/-
# The layout of a detail page

`compose` of `ViewComposer`, with its `weight_start`.

Where the view agrees with its schema, and neither a field nor a fieldset is named
like a property, nothing on a page gives way to anything else. So a page is laid out
in three parts, one behind the other (`entries_pageFrom`), and so is a container
(`entries_container`):

| page | container |
| --- | --- |
| the header | its properties |
| the label field, when it has something to show | |
| the containers of the fieldsets, in order | the elements of its fields |

The elements are those of the plain rendering of the whole record. Containers are weighted
from the start of the composer on, as long as the weights fit 32 bits; a build that checks for
overflow stops a little earlier (`laysOut_iff`).
-/

import Inventory.Proofs.Page.Agreement
import Inventory.Proofs.Page.Visible
import Mathlib.Data.List.Count

namespace Inventory

/-- Whether a field has something to show. -/
def Record.shows (r : Record) (name : String) : Bool := (r.slots.get? name).any (!·.isEmpty)

/-! ### Child elements -/

namespace Tree

/-- The children of entries one behind the other are those of both. -/
theorem children_append (a b : List (String × Node)) :
    Tree.children ⟨a ++ b⟩ = Tree.children ⟨a⟩ ++ Tree.children ⟨b⟩ := List.filterMap_append

/-- Under keys that name properties stand no child elements. -/
theorem children_eq_nil {t : Tree} (h : ∀ key ∈ t.keys, isMetaKey key = true) :
    Tree.children t = [] := by
  refine List.filterMap_eq_nil_iff.2 fun e he => ?_
  obtain ⟨key, node⟩ := e
  have hkey : isMetaKey key = true := h key (List.mem_map_of_mem he)
  cases node with
  | property value => rfl
  | element child => simp [hkey]

/-- A filter by keys filters the children by their keys. -/
theorem children_filter_key (p : String → Bool) (t : Tree) :
    Tree.children (t.filter fun key _ => p key) = (Tree.children t).filter fun e => p e.1 := by
  unfold Tree.children OrderedMap.filter
  induction t.entries with
  | nil => rfl
  | cons e rest ih =>
    obtain ⟨key, node⟩ := e
    cases node with
    | property value => by_cases hp : p key <;> simpa [hp] using ih
    | element child =>
      by_cases hp : p key <;> by_cases hkey : isMetaKey key <;> simpa [hp, hkey] using ih

/-- The keys of children are those of the nodes that are children. -/
theorem childKeys_eq (t : Tree) : Tree.childKeys t = (Tree.childNodes t).keys := by
  rw [childKeys, OrderedMap.keys, ← map_children, List.map_map]
  rfl

/-- The nodes that are children have no others. -/
theorem children_childNodes (t : Tree) : Tree.children (Tree.childNodes t) = Tree.children t := by
  unfold Tree.children Tree.childNodes OrderedMap.filter
  rw [List.filterMap_filter]
  refine List.filterMap_congr fun e _ => ?_
  obtain ⟨key, node⟩ := e
  cases node with
  | property value => simp [Node.isElement]
  | element child => by_cases hkey : isMetaKey key <;> simp [Node.isElement, hkey]

end Tree

namespace FieldList

variable {r : Record} {context : RenderContext}

/-- The keys of the header in order. -/
def headerKeys (context : RenderContext) : List String :=
  ["#entity_type", "#entity_id", "#view_mode", "#cache"]
    ++ if context.langcode.isSome then ["#langcode"] else []

/-- The keys of the header, with the language when there is one. -/
theorem keys_header (r : Record) (context : RenderContext) :
    (header r context).keys = headerKeys context := by
  rw [header, Tree.ofProperties, OrderedMap.keys_ofList, headerKeys]
  cases context.langcode with
  | none =>
    change (["#entity_type", "#entity_id", "#view_mode", "#cache"] : List String).eraseDups = _
    exact OrderedMap.eraseDups_eq_self (by decide)
  | some langcode =>
    change (["#entity_type", "#entity_id", "#view_mode", "#cache", "#langcode"] :
      List String).eraseDups = _
    exact OrderedMap.eraseDups_eq_self (by decide)

/-- The header consists of properties. -/
theorem isMetaKey_of_mem_keys_header {key : String} (h : key ∈ (header r context).keys) :
    isMetaKey key = true := by
  have hall : ∀ key ∈ ["#entity_type", "#entity_id", "#view_mode", "#cache", "#langcode"],
      isMetaKey key = true := by decide
  refine hall key ?_
  rw [keys_header, headerKeys] at h
  split at h
  · exact h
  · rw [List.append_nil] at h
    exact List.mem_append_left ["#langcode"] h

/-- A field has an element exactly when it has something to show. -/
theorem isSome_shownNode? (r : Record) (f : Field) : (shownNode? r f).isSome = r.shows f.name := by
  unfold shownNode? Record.shows
  cases r.slots.get? f.name with
  | none => rfl
  | some v => cases hv : v.isEmpty <;> simp [hv]

/-- The fields with an element are those that have something to show. -/
theorem mem_keys_shown_iff {name : String} :
    name ∈ (shown r).keys ↔ name ∈ r.schema.fieldNames ∧ r.shows name = true := by
  simp only [shown, OrderedMap.keys, List.mem_map, List.mem_filterMap, mem_shownOrder,
    Option.map_eq_some_iff, Schema.fieldNames]
  constructor
  · rintro ⟨e, ⟨f, hf, node, hnode, rfl⟩, rfl⟩
    exact ⟨⟨f, hf, rfl⟩, by rw [← isSome_shownNode?, hnode]; rfl⟩
  · rintro ⟨⟨f, hf, rfl⟩, hshows⟩
    rw [← isSome_shownNode?] at hshows
    obtain ⟨node, hnode⟩ := Option.isSome_iff_exists.1 hshows
    exact ⟨_, ⟨f, hf, node, hnode, rfl⟩, rfl⟩

/-- Every entry that is shown is an element. -/
theorem isElement_of_mem_shown {e : String × Node} (he : e ∈ (shown r).entries) :
    e.2.isElement = true := by
  obtain ⟨f, -, h⟩ := List.mem_filterMap.1 he
  obtain ⟨node, hnode, rfl⟩ := Option.map_eq_some_iff.1 h
  unfold shownNode? at hnode
  split at hnode
  · split at hnode
    · cases hnode
    · rw [← Option.some.inj hnode]
      rfl
  · cases hnode

/-- A schema whose fields have different names, none of them like a property's. -/
structure Plain (s : Schema) : Prop where
  names : s.fieldNames.Nodup
  unlike : ∀ name ∈ s.fieldNames, isMetaKey name = false

/-- What is shown consists of child elements. -/
theorem childNodes_shown (h : Plain r.schema) : Tree.childNodes (shown r) = shown r := by
  refine congrArg OrderedMap.mk (List.filter_eq_self.2 fun e he => ?_)
  have hkey := (mem_keys_shown_iff.1 (List.mem_map_of_mem he)).1
  simp [h.unlike e.1 hkey, isElement_of_mem_shown he]

/-- **The plain rendering** is the header with the elements behind it. -/
theorem entries_header_merge_shown {r' : Record} (h : Plain r'.schema) :
    ((header r context).merge (shown r')).entries
      = (header r context).entries ++ (shown r').entries := by
  refine OrderedMap.entries_merge_of_disjoint (nodup_keys_shown h.names) fun key hkey hheader => ?_
  have hmeta := isMetaKey_of_mem_keys_header hheader
  rw [h.unlike key (mem_keys_shown_iff.1 hkey).1] at hmeta
  cases hmeta

/-- The children of the plain rendering are the elements that are shown. -/
theorem children_header_merge_shown {r' : Record} (h : Plain r'.schema) :
    Tree.children ((header r context).merge (shown r')) = Tree.children (shown r') := by
  have hheader : Tree.children (header r context) = [] :=
    Tree.children_eq_nil fun _ => isMetaKey_of_mem_keys_header
  have hentries : ((header r context).merge (shown r')).entries
      = (header r context).entries ++ (shown r').entries := entries_header_merge_shown h
  have hsplit := congrArg (fun l => Tree.children ⟨l⟩) hentries
  rw [Tree.children_append, hheader, List.nil_append] at hsplit
  exact hsplit

end FieldList

namespace Composer

variable {r : Record} {view : View} {context : RenderContext}

/-! ### Containers -/

/-- The properties of a container are named like properties. -/
theorem isMetaKey_of_mem_keys_details {f : Fieldset} {weight : Int32} {key : String}
    (h : key ∈ (details f weight).keys) : isMetaKey key = true := by
  have hall : ∀ key ∈ ["#type", "#title", "#open", "#weight"], isMetaKey key = true := by decide
  exact hall key h

/-- Properties of a container do not come from its body. -/
theorem get?_container_of_isMetaKey (r : Record) (context : RenderContext) (f : Fieldset)
    (weight : Int32) {key : String} (h : isMetaKey key = true) :
    (container f weight (body r context f)).get? key = (details f weight).get? key := by
  rw [get?_container]
  simp [h]

/-- **A container** is its properties with the child elements of the body behind them. -/
theorem entries_container (f : Fieldset) (weight : Int32) {t : Tree} (h : t.keys.Nodup) :
    (container f weight t).entries = (details f weight).entries ++ (Tree.childNodes t).entries := by
  rw [container_eq]
  refine OrderedMap.entries_merge_of_disjoint (OrderedMap.nodup_keys_filter h _)
    fun key hkey hdetails => ?_
  obtain ⟨e, he, rfl⟩ := List.mem_map.1 hkey
  have hchild := List.of_mem_filter he
  simp [isMetaKey_of_mem_keys_details hdetails] at hchild

/-- The children of a container are those of its body. -/
theorem children_container_body (f : Fieldset) (weight : Int32) {t : Tree} (h : t.keys.Nodup) :
    Tree.children (container f weight t) = Tree.children t := by
  have hdetails : Tree.children (details f weight) = [] :=
    Tree.children_eq_nil fun _ => isMetaKey_of_mem_keys_details
  have hsplit := congrArg (fun l => Tree.children ⟨l⟩) (entries_container f weight h)
  rw [Tree.children_append, hdetails, List.nil_append] at hsplit
  exact hsplit.trans (Tree.children_childNodes t)

/-- The children of a container are the elements of its fields. -/
theorem children_container (h : FieldList.Plain r.schema) (context : RenderContext) (f : Fieldset)
    (weight : Int32) :
    Tree.children (container f weight (body r context f))
      = (Tree.children (FieldList.shown r)).filter fun e => e.1 ∈ f.fields := by
  have hplain : FieldList.Plain (r.withOnly f.fields).schema := h
  have hbody : Tree.children (body r context f)
      = Tree.children (FieldList.shown (r.withOnly f.fields)) :=
    FieldList.children_header_merge_shown hplain
  rw [FieldList.shown_withOnly, Tree.children_filter_key] at hbody
  exact (children_container_body f weight (nodup_keys_body r context f)).trans hbody

/-- What is asked of the container of a fieldset, given the plain rendering of the
whole record. -/
structure IsContainer (r : Record) (whole : Tree) (f : Fieldset) (weight : Int) (c : Tree) :
    Prop where
  type : Tree.type? c = some "details"
  title : Tree.text? c "#title" = some f.title
  isOpen : Tree.property? c "#open" = some (.bool f.isOpen)
  weight : Tree.property? c "#weight" = some (.int weight)
  children : Tree.children c = (Tree.children whole).filter fun e => e.1 ∈ f.fields
  nodup : (Tree.childKeys c).Nodup
  mem_childKeys : ∀ name, name ∈ Tree.childKeys c ↔ name ∈ f.fields ∧ r.shows name = true

/-- **The container of a fieldset** holds the elements of its fields. -/
theorem isContainer (h : FieldList.Plain r.schema) (context : RenderContext) {f : Fieldset}
    (hdeclared : ∀ name ∈ f.fields, name ∈ r.schema.fieldNames) (weight : Int32) :
    IsContainer r ((FieldList.header r context).merge (FieldList.shown r)) f weight.toInt
      (container f weight (body r context f)) := by
  have hproperty {key : String} (hkey : isMetaKey key = true) :=
    get?_container_of_isMetaKey r context f weight hkey
  have hchildren := children_container h context f weight
  have hkeys : Tree.childKeys (container f weight (body r context f))
      = (FieldList.shown r).keys.filter fun name => name ∈ f.fields := by
    rw [Tree.childKeys, hchildren, ← FieldList.childNodes_shown h, ← Tree.childKeys_eq,
      FieldList.childNodes_shown h, Tree.childKeys, List.filter_map]
    rfl
  refine ⟨?_, ?_, ?_, ?_, ?_, ?_, fun name => ?_⟩
  · rw [Tree.type?, Tree.text?, Tree.property?, hproperty (by decide)]
    rfl
  · rw [Tree.text?, Tree.property?, hproperty (by decide)]
    rfl
  · rw [Tree.property?, hproperty (by decide)]
    rfl
  · rw [Tree.property?, hproperty (by decide)]
    rfl
  · rw [FieldList.children_header_merge_shown h, hchildren]
  · rw [hkeys]
    exact (FieldList.nodup_keys_shown h.names).filter _
  · rw [hkeys, List.mem_filter, FieldList.mem_keys_shown_iff, decide_eq_true_eq]
    exact ⟨fun ⟨⟨_, hshows⟩, hname⟩ => ⟨hname, hshows⟩,
      fun ⟨hname, hshows⟩ => ⟨⟨hdeclared name hname, hshows⟩, hname⟩⟩

/-- The containers stand in the order of the fieldsets, with weights that count up. -/
theorem getElem?_containers (weight : Int32) (fieldsets : List Fieldset) (i : Nat) :
    (containers r context weight fieldsets)[i]? = fieldsets[i]?.map fun f =>
      (f.name, .element (container f (weight + .ofNat i) (body r context f))) := by
  induction fieldsets generalizing weight i with
  | nil => rfl
  | cons f rest ih =>
    cases i with
    | zero => simp [containers]
    | succ i =>
      rw [containers, List.getElem?_cons_succ, List.getElem?_cons_succ, ih]
      have hweight : weight + 1 + Int32.ofNat i = weight + Int32.ofNat (i + 1) := by
        rw [Int32.ofNat_add, Int32.add_assoc, Int32.add_comm 1]
        rfl
      rw [hweight]

/-! ### Pages -/

/-- Fieldsets with names of their own have their containers under these names. -/
theorem get?_pageFrom_of_getElem? (hnames : (view.fieldsets.map (·.name)).Nodup) (start : Int32)
    {i : Nat} {f : Fieldset} (hf : view.fieldsets[i]? = some f) :
    (pageFrom start r view context).get? f.name
      = some (.element (container f (start + .ofNat i) (body r context f))) := by
  have hcontainers : (containers r context start view.fieldsets).map Prod.fst
      = view.fieldsets.map (·.name) := map_fst_containers r context start view.fieldsets
  have hkeeps : keeps view r f.name = true := by
    have hname : f.name ∈ view.fieldsets.map (·.name) :=
      List.mem_map_of_mem (List.mem_of_getElem? hf)
    rw [keeps, decide_eq_true hname, Bool.or_true, Bool.true_or]
  have hentry : (containers r context start view.fieldsets)[i]?
      = some (f.name, .element (container f (start + .ofNat i) (body r context f))) := by
    rw [getElem?_containers, hf]
    rfl
  have hget : (OrderedMap.ofList (containers r context start view.fieldsets)).get? f.name
      = some (.element (container f (start + .ofNat i) (body r context f))) := by
    rw [OrderedMap.get?_eq_some_iff (OrderedMap.nodup_keys_ofList _),
      OrderedMap.entries_ofList (hcontainers ▸ hnames)]
    exact List.mem_of_getElem? hentry
  rw [pageFrom, OrderedMap.get?_filter_key, if_pos hkeeps,
    OrderedMap.get?_merge_of_nodup (OrderedMap.nodup_keys_ofList _), hget]
  rfl

/-- **Equal pages** have equal containers under the name of a fieldset. -/
theorem alike_of_beq_pageFrom {view' : View} (hnames : (view.fieldsets.map (·.name)).Nodup)
    (hnames' : (view'.fieldsets.map (·.name)).Nodup) {start start' : Int32}
    (hpages : (pageFrom start r view context == pageFrom start' r view' context) = true)
    {i : Nat} {f g : Fieldset} (hf : view.fieldsets[i]? = some f)
    (hg : view'.fieldsets[i]? = some g) (hname : g.name = f.name) :
    OrderedMap.Alike (fun a b => (a == b) = true) (container f (start + .ofNat i) (body r context f))
      (container g (start' + .ofNat i) (body r context g)) := by
  have hnode : (pageFrom start r view context).get? f.name
      = some (.element (container f (start + .ofNat i) (body r context f))) :=
    get?_pageFrom_of_getElem? hnames start hf
  have hnode' : (pageFrom start' r view' context).get? f.name
      = some (.element (container g (start' + .ofNat i) (body r context g))) :=
    hname ▸ get?_pageFrom_of_getElem? hnames' start' hg
  have hcontainers := (OrderedMap.alike_of_beq (nodup_keys_pageFrom start r view context)
    (nodup_keys_pageFrom start' r view' context) hpages).rel hnode hnode'
  rw [Node.beq_element] at hcontainers
  exact OrderedMap.alike_of_beq (nodup_keys_container _ _ _) (nodup_keys_container _ _ _)
    hcontainers

/-- A view that agrees with its schema, where neither a field nor a fieldset is named
like a property. -/
structure Clear (s : Schema) (view : View) : Prop where
  plain : FieldList.Plain s
  agrees : view.Agrees s
  unlike : ∀ f ∈ view.fieldsets, isMetaKey f.name = false

/-- No fieldset has the name of something that the plain rendering holds. -/
theorem Clear.notMem_keys (h : Clear r.schema view) {f : Fieldset} (hf : f ∈ view.fieldsets) :
    f.name ∉ ((FieldList.header r context).merge (FieldList.shown r)).keys := by
  rw [OrderedMap.keys, FieldList.entries_header_merge_shown h.plain, List.map_append,
    List.mem_append, not_or]
  refine ⟨fun hheader => ?_, fun hshown => ?_⟩
  · have hmeta := FieldList.isMetaKey_of_mem_keys_header hheader
    rw [h.unlike f hf] at hmeta
    cases hmeta
  · exact h.agrees.apart f hf (FieldList.mem_keys_shown_iff.1 hshown).1

/-- **A page** is the header, the label field when it has something to show, and the
containers, one behind the other. -/
theorem entries_pageFrom (h : Clear r.schema view) (start : Int32) :
    (pageFrom start r view context).entries
      = (FieldList.header r context).entries
        ++ (FieldList.shown r).entries.filter (fun e => e.1 = r.schema.labelField)
        ++ containers r context start view.fieldsets := by
  have hcontainers : (containers r context start view.fieldsets).map Prod.fst
      = view.fieldsets.map (·.name) := map_fst_containers r context start view.fieldsets
  have hnodup : ((containers r context start view.fieldsets).map Prod.fst).Nodup :=
    hcontainers ▸ h.agrees.names
  -- No name stands in two of the parts, so they are joined as they are, and what the view keeps
  -- can be said part by part.
  have hmerge : (((FieldList.header r context).merge (FieldList.shown r)).merge
      (.ofList (containers r context start view.fieldsets))).entries
      = (FieldList.header r context).entries ++ (FieldList.shown r).entries
        ++ containers r context start view.fieldsets := by
    rw [OrderedMap.entries_merge_of_disjoint (OrderedMap.nodup_keys_ofList _),
      FieldList.entries_header_merge_shown h.plain, OrderedMap.entries_ofList hnodup]
    intro key hkey
    rw [OrderedMap.keys_ofList, List.mem_eraseDups, hcontainers] at hkey
    obtain ⟨f, hf, rfl⟩ := List.mem_map.1 hkey
    exact h.notMem_keys hf
  have hheader : (FieldList.header r context).entries.filter (fun e => keeps view r e.1)
      = (FieldList.header r context).entries := by
    refine List.filter_eq_self.2 fun e he => ?_
    have hmeta := FieldList.isMetaKey_of_mem_keys_header (List.mem_map_of_mem he)
    simp [keeps, hmeta]
  have hshown : (FieldList.shown r).entries.filter (fun e => keeps view r e.1)
      = (FieldList.shown r).entries.filter (fun e => e.1 = r.schema.labelField) := by
    refine List.filter_congr fun e he => ?_
    have hkey := (FieldList.mem_keys_shown_iff.1 (List.mem_map_of_mem he)).1
    have hname : e.1 ∉ view.fieldsets.map (·.name) := fun hname => by
      obtain ⟨f, hf, hfe⟩ := List.mem_map.1 hname
      exact h.agrees.apart f hf (hfe ▸ hkey)
    rw [keeps, h.plain.unlike e.1 hkey, decide_eq_false hname]
    rfl
  have hsections : (containers r context start view.fieldsets).filter (fun e => keeps view r e.1)
      = containers r context start view.fieldsets := by
    refine List.filter_eq_self.2 fun e he => ?_
    have hname : e.1 ∈ view.fieldsets.map (·.name) := hcontainers ▸ List.mem_map_of_mem he
    rw [keeps, decide_eq_true hname, Bool.or_true]
    rfl
  rw [pageFrom, OrderedMap.filter, hmerge, List.filter_append, List.filter_append, hheader, hshown,
    hsections]

/-- The keys of a page in order. -/
theorem keys_pageFrom (h : Clear r.schema view) (hlabel : r.schema.labelField ∈ r.schema.fieldNames)
    (start : Int32) :
    (pageFrom start r view context).keys
      = FieldList.headerKeys context
        ++ (if r.shows r.schema.labelField then [r.schema.labelField] else [])
        ++ view.fieldsets.map (·.name) := by
  have hshown : ((FieldList.shown r).entries.filter fun e => e.1 = r.schema.labelField).map Prod.fst
      = if r.shows r.schema.labelField then [r.schema.labelField] else [] := by
    have hmap : ((FieldList.shown r).entries.filter fun e => e.1 = r.schema.labelField).map Prod.fst
        = (FieldList.shown r).keys.filter (· = r.schema.labelField) := by
      rw [OrderedMap.keys, List.filter_map]
      rfl
    rw [hmap, List.filter_eq, (FieldList.nodup_keys_shown h.plain.names).count]
    by_cases hshows : r.shows r.schema.labelField = true
    · rw [if_pos (FieldList.mem_keys_shown_iff.2 ⟨hlabel, hshows⟩), if_pos hshows]
      rfl
    · rw [if_neg fun hmem => hshows (FieldList.mem_keys_shown_iff.1 hmem).2, if_neg hshows]
      rfl
  rw [OrderedMap.keys, entries_pageFrom h, List.map_append, List.map_append, hshown,
    map_fst_containers, ← FieldList.keys_header r context]
  rfl

/-- What is asked of a page, given the plain rendering of the record: its keys in order,
what stands under those that are no fieldset's, a container for each fieldset, and one
container for each claimed field that has something to show. -/
structure Layout (start : Int) (r : Record) (view : View) (context : RenderContext)
    (whole t : Tree) : Prop where
  keys : t.keys = FieldList.headerKeys context
    ++ (if r.shows r.schema.labelField then [r.schema.labelField] else [])
    ++ view.fieldsets.map (·.name)
  rest : ∀ key ∈ t.keys, key ∉ view.fieldsets.map (·.name) → t.get? key = whole.get? key
  containers : ∀ (i : Nat) f, view.fieldsets[i]? = some f →
    ∃ c, Tree.element? t f.name = some c ∧ IsContainer r whole f (start + i) c
  once : ∀ name ∈ view.claimedFields, r.shows name = true →
    ∃! f, f ∈ view.fieldsets ∧
      ∃ c, Tree.element? t f.name = some c ∧ name ∈ Tree.childKeys c

/-- Under the name of each fieldset stands its container. -/
theorem element?_pageFrom (h : Clear r.schema view) (start : Int32) {i : Nat} {f : Fieldset}
    (hf : view.fieldsets[i]? = some f) :
    Tree.element? (pageFrom start r view context) f.name
      = some (container f (start + .ofNat i) (body r context f)) := by
  rw [Tree.element?, get?_pageFrom_of_getElem? h.agrees.names start hf]

/-- Beside the containers a page holds what the plain rendering holds. -/
theorem get?_pageFrom_of_notMem (h : Clear r.schema view) (start : Int32) {key : String}
    (hkey : key ∈ (pageFrom start r view context).keys)
    (hname : key ∉ view.fieldsets.map (·.name)) :
    (pageFrom start r view context).get? key
      = ((FieldList.header r context).merge (FieldList.shown r)).get? key := by
  have hwhole : ((FieldList.header r context).merge (FieldList.shown r)).keys.Nodup :=
    OrderedMap.nodup_keys_merge (OrderedMap.nodup_keys_ofList _) _
  obtain ⟨e, he, rfl⟩ := List.mem_map.1 hkey
  rw [(OrderedMap.get?_eq_some_iff (nodup_keys_pageFrom start r view context)).2 he]
  refine ((OrderedMap.get?_eq_some_iff hwhole).2 ?_).symm
  rw [FieldList.entries_header_merge_shown h.plain]
  rw [entries_pageFrom h, List.mem_append, List.mem_append] at he
  rcases he with (hheader | hshown) | hcontainer
  · exact List.mem_append_left _ hheader
  · exact List.mem_append_right _ (List.mem_of_mem_filter hshown)
  · refine absurd ?_ hname
    rw [← map_fst_containers r context start view.fieldsets]
    exact List.mem_map_of_mem hcontainer

/-- **The page of a clear view** is laid out as asked, as long as the weights fit. -/
theorem layout_pageFrom (h : Clear r.schema view)
    (hlabel : r.schema.labelField ∈ r.schema.fieldNames) {start : Int32}
    (hfits : start.toInt + view.fieldsets.length ≤ 2147483648) :
    Layout start.toInt r view context ((FieldList.header r context).merge (FieldList.shown r))
      (pageFrom start r view context) := by
  have hcontainers : ∀ f ∈ view.fieldsets, ∃ c,
      Tree.element? (pageFrom start r view context) f.name = some c
        ∧ ∀ name, name ∈ Tree.childKeys c ↔ name ∈ f.fields ∧ r.shows name = true := by
    intro f hf
    obtain ⟨i, hi⟩ := List.mem_iff_getElem?.1 hf
    exact ⟨_, element?_pageFrom h start hi,
      (isContainer h.plain context (h.agrees.declared f hf) _).mem_childKeys⟩
  refine ⟨keys_pageFrom h hlabel start, fun key => get?_pageFrom_of_notMem h start,
    fun i f hf => ?_, fun name hclaimed hshows => ?_⟩
  · obtain ⟨hi, -⟩ := List.getElem?_eq_some_iff.1 hf
    have hweight : (start + .ofNat i).toInt = start.toInt + i := toInt_add_ofNat (by omega)
    rw [← hweight]
    exact ⟨_, element?_pageFrom h start hf,
      isContainer h.plain context (h.agrees.declared f (List.mem_of_getElem? hf)) _⟩
  · obtain ⟨f, hf, hname⟩ := View.mem_claimedFields_iff.1 hclaimed
    obtain ⟨c, hc, hkeys⟩ := hcontainers f hf
    refine ⟨f, ⟨hf, c, hc, (hkeys name).2 ⟨hname, hshows⟩⟩, ?_⟩
    rintro g ⟨hg, c', hc', hmem⟩
    obtain ⟨c₁, hc₁, hkeys'⟩ := hcontainers g hg
    obtain rfl := Option.some.inj (hc₁.symm.trans hc')
    exact h.agrees.eq_of_mem_fields hg hf ((hkeys' name).1 hmem).1 hname

/-- Where the weights do not fit, the last container has another weight than asked. -/
theorem le_of_layout_pageFrom (h : Clear r.schema view) {start : Int32} {whole : Tree}
    (hlayout : Layout start.toInt r view context whole (pageFrom start r view context)) :
    start.toInt + view.fieldsets.length ≤ 2147483648 := by
  have hhigh := Int32.toInt_lt start
  rcases Nat.eq_zero_or_pos view.fieldsets.length with hnone | hsome
  · omega
  · let i := view.fieldsets.length - 1
    have hi : i < view.fieldsets.length := by omega
    have hf : view.fieldsets[i]? = some view.fieldsets[i] := List.getElem?_eq_getElem hi
    obtain ⟨c, hc, hasked⟩ := hlayout.containers i _ hf
    obtain rfl := Option.some.inj ((element?_pageFrom h start hf).symm.trans hc)
    have hactual := (isContainer h.plain context (h.agrees.declared _ (List.mem_of_getElem? hf))
      (start + .ofNat i)).weight
    have hweights := Option.some.inj (hactual.symm.trans hasked.weight)
    have hlast := Int32.toInt_lt (start + .ofNat i)
    rw [Data.int.inj hweights] at hlast
    omega

/-! ### What is rendered -/

/-- How the program is built: whether an addition that does not fit is noticed. -/
inductive Build where
  | unchecked
  | checked

/-- What a build composes. -/
def Build.compose (b : Build) (c : Composer (Except ViewError)) (r : Record) (view : View)
    (context : RenderContext) : Except ViewError (Except Stop Tree) :=
  match b with
  | .unchecked => (c.compose r view context).map .ok
  | .checked => (c.composeChecked r view context).run

/-- What is asked of rendering a record: it has a page, which is laid out from the weight of
the first container on. -/
def LaysOut (b : Build) (start : Int32) (r : Record) (view : View) (context : RenderContext) :
    Prop :=
  ∃ whole t, FieldList.renderer r context = .ok whole
    ∧ b.compose (plainFrom start) r view context = .ok (.ok t)
    ∧ Layout start.toInt r view context whole t

/-- **When detail pages are laid out as asked.** Take a valid schema whose fields are named
unlike properties, a view that has no problems with it and names its fieldsets unlike
properties, and a record that is built on the schema. Its page has the header, the label field
when it has something to show, and a container for each fieldset in order, weighted from the
start on, which holds the elements of its fields as the plain rendering of the record has them;
so a claimed field with something to show stands in one container. Without overflow checks this
is so exactly while every weight has 32 bits. With them the two numbers behind the last weight
have to have 32 bits as well, and where they have not nothing is rendered. -/
theorem laysOut_iff {s : Schema} (hvalid : s.validate = .ok ())
    (hfields : ∀ f ∈ s.fields, isMetaKey f.name = false) (hview : view.problems s = [])
    (hfieldsets : ∀ f ∈ view.fieldsets, isMetaKey f.name = false) (hr : r.BuiltOn s)
    (context : RenderContext) (start : Int32) :
    (LaysOut .unchecked start r view context
        ↔ start.toInt + view.fieldsets.length ≤ 2147483648)
      ∧ (LaysOut .checked start r view context
        ↔ start.toInt + view.fieldsets.length ≤ 2147483646)
      ∧ (2147483647 ≤ start.toInt + view.fieldsets.length →
        Build.checked.compose (plainFrom start) r view context = .ok (.error .overflow)) := by
  have hschema := hr.schema_eq
  subst hschema
  have hclear : Clear r.schema view := by
    refine ⟨⟨Schema.nodup_of_validate hvalid, fun name hname => ?_⟩,
      View.problems_eq_nil_iff.1 hview, hfieldsets⟩
    obtain ⟨f, hf, rfl⟩ := List.mem_map.1 hname
    exact hfields f hf
  have hlabel := Schema.labelField_of_validate hvalid
  have hwhole := FieldList.renderer_eq hr.wellFormed context
  have hpage := compose_plainFrom hr.wellFormed start view context
  have hchecked {t : Tree} : Build.checked.compose (plainFrom start) r view context = .ok (.ok t)
      ↔ (plainFrom start).compose r view context = .ok t
        ∧ start.toInt + view.fieldsets.length < 2147483647 := run_composeChecked_eq_ok_iff
  refine ⟨⟨?_, fun hfits => ?_⟩, ⟨?_, fun hfits => ?_⟩, fun hover => ?_⟩
  · -- weights that start again below the first one are out of order
    rintro ⟨whole, t, -, ht, hlayout⟩
    rw [Build.compose, hpage] at ht
    obtain rfl := Except.ok.inj (Except.ok.inj ht)
    exact le_of_layout_pageFrom hclear hlayout
  · refine ⟨_, _, hwhole, ?_, layout_pageFrom hclear hlabel hfits⟩
    rw [Build.compose, hpage]
    rfl
  · rintro ⟨whole, t, -, ht, -⟩
    have hfits := (hchecked.1 ht).2
    omega
  · exact ⟨_, _, hwhole, hchecked.2 ⟨hpage, by omega⟩, layout_pageFrom hclear hlabel (by omega)⟩
  · exact run_composeChecked_eq_stop hover hpage

/-- Machines with a zone and a note. -/
def zonedSchema : Schema where
  name := "vm"
  label := "VM"
  labelField := "name"
  fields := [.string "name" "Name", .string "zone" "Zone", .string "note" "Note"]

/-- A view with a fieldset for the zone and the name and one for the note. -/
def zonedView : View where
  entityType := "vm"
  fieldsets := [{ name := "place", title := "Place", fields := ["zone", "name"] },
    { name := "remarks", title := "Remarks", isOpen := false, fields := ["note"] }]

/-- A machine without a note. -/
def zonedRecord : Record where
  id := ⟨7⟩
  schema := zonedSchema
  slots := .ofList [("name", .string "web"), ("zone", .string "a"), ("note", .absent)]

theorem builtOn_zonedRecord : zonedRecord.BuiltOn zonedSchema := by
  have hname : ((Record.new ⟨7⟩ zonedSchema).set "name" (.string "web")).bind
      (fun r => r.set "zone" (.string "a")) = .ok zonedRecord := rfl
  obtain ⟨r, hr, hset⟩ := bind_eq_ok_iff.1 hname
  exact .set (.set (.new ⟨7⟩) (fun _ h => by cases h) hr) (fun _ h => by cases h) hset

/-- Weighted from 10 on, the page is laid out as asked in both builds. The fieldset of the note
has a container though there is nothing to show in it. -/
theorem laysOut_iff_zoned :
    LaysOut .unchecked 10 zonedRecord zonedView { langcode := some "en" }
      ∧ LaysOut .checked 10 zonedRecord zonedView { langcode := some "en" } := by
  obtain ⟨hunchecked, hchecked, -⟩ := laysOut_iff (s := zonedSchema) rfl (by decide)
    (by decide +kernel : zonedView.problems zonedSchema = []) (by decide) builtOn_zonedRecord
    { langcode := some "en" } 10
  exact ⟨hunchecked.2 (by decide), hchecked.2 (by decide)⟩

/-- Where the sum of the start and the number of fieldsets is the last number of 32 bits, both
containers have a weight, but a build that checks for overflow renders nothing. -/
theorem not_laysOut_last :
    (2147483645 : Int32).toInt + zonedView.fieldsets.length = 2147483647
      ∧ zonedSchema.validate = .ok () ∧ (∀ f ∈ zonedSchema.fields, isMetaKey f.name = false)
      ∧ zonedView.problems zonedSchema = []
      ∧ (∀ f ∈ zonedView.fieldsets, isMetaKey f.name = false) ∧ zonedRecord.BuiltOn zonedSchema
      ∧ ¬ LaysOut .checked 2147483645 zonedRecord zonedView {} := by
  refine ⟨by decide, rfl, by decide, by decide +kernel, by decide, builtOn_zonedRecord, ?_⟩
  rintro ⟨whole, t, -, ht, -⟩
  have hpage := compose_plainFrom builtOn_zonedRecord.wellFormed 2147483645 zonedView {}
  cases (run_composeChecked_eq_stop (by decide) hpage).symm.trans ht

end Composer
end Inventory
