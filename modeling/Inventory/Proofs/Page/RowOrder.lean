/-
# The order of the properties of an item

`items` of `FieldListRenderer`, and `get` of `RenderCache`.

Equality of records forgets the order of the properties of an item. The text of a page does
not, where the properties are not those that the field declares:

| in a row | come in the order |
| --- | --- |
| the declared properties | of the field |
| the others | of the item |

So equal records are rendered to equal trees (`==`), but the trees have one text exactly when
the other properties come in the same order, item by item, in each value that is shown
(`Record.SameRowOrder`). A cache of pages goes by equality, so it serves the page of an equal
record also where the text is another one (`Record.textsTellRowOrder`).

From the order to the texts: with one order the rows are the same (`FieldList.row_eq_iff`), then
the renderings and the pages. Back from the text of a page: what stands under a key of it
(`Tree.get?_toData_eq`), down to the items of a field.
-/

import Inventory.Proofs.Page.SharedCache
import Inventory.Proofs.Page.Text

namespace Inventory

namespace FieldList

/-! ### Rows -/

/-- The cells of the declared properties. -/
def declared (properties : List String) (item : Item) : Item :=
  .ofList (properties.filterMap fun p => (item.get? p).map (p, ·))

/-- The cells of the other properties, in the order of the item. -/
def extras (properties : List String) (item : Item) : Item :=
  item.filter fun key _ => decide (key ∉ properties)

variable {properties : List String} {item item' : Item}

/-- Of the cells of an item those of declared properties are declared. -/
theorem contains_declared {key : String} (hkey : key ∈ item.keys) :
    (declared properties item).contains key = decide (key ∈ properties) := by
  obtain ⟨text, htext⟩ := Option.isSome_iff_exists.1 (OrderedMap.isSome_get?_iff.2 hkey)
  rw [Bool.eq_iff_iff, decide_eq_true_eq, OrderedMap.contains_iff, declared,
    OrderedMap.keys_ofList, List.mem_eraseDups, List.mem_map]
  constructor
  · rintro ⟨e, he, rfl⟩
    obtain ⟨p, hp, hmap⟩ := List.mem_filterMap.1 he
    obtain ⟨-, -, rfl⟩ := Option.map_eq_some_iff.1 hmap
    exact hp
  · exact fun hmem => ⟨(key, text), List.mem_filterMap.2 ⟨key, hmem, by rw [htext]; rfl⟩, rfl⟩

/-- **The row of an item** has the declared cells first, then the others. -/
theorem row_eq (properties : List String) (item : Item) :
    row properties item = (declared properties item).merge (extras properties item) := by
  have hextras : item.filter (fun key _ => !(declared properties item).contains key)
      = extras properties item := by
    refine congrArg OrderedMap.mk (List.filter_congr fun e he => ?_)
    simp only [contains_declared (List.mem_map_of_mem he), decide_not]
  exact congrArg (declared properties item).merge hextras

/-- A row is the declared cells with the extra ones behind them. -/
theorem entries_row (h : item.keys.Nodup) :
    (row properties item).entries
      = (declared properties item).entries ++ (extras properties item).entries := by
  rw [row_eq]
  refine OrderedMap.entries_merge_of_disjoint (OrderedMap.nodup_keys_filter h _) ?_
  intro key hkey hdeclared
  rw [extras, OrderedMap.keys_filter_key, List.mem_filter, decide_eq_true_eq] at hkey
  rw [← OrderedMap.contains_iff, contains_declared hkey.1, decide_eq_true_eq] at hdeclared
  exact hkey.2 hdeclared

/-- **The rows of alike items** are the same when the properties that are not declared come in
the same order. -/
theorem row_eq_iff (h : item.Alike Eq item') : row properties item = row properties item' ↔
    (extras properties item).keys = (extras properties item').keys := by
  have hdeclared : declared properties item = declared properties item' := by
    simp only [declared, h.get?_eq]
  constructor
  · intro hrow
    have hentries := congrArg OrderedMap.entries hrow
    rw [entries_row h.left, entries_row h.right, hdeclared] at hentries
    exact congrArg (List.map Prod.fst) (List.append_cancel_left hentries)
  · intro hkeys
    have hextras : extras properties item = extras properties item' := by
      refine OrderedMap.eq_of_get? (OrderedMap.nodup_keys_filter h.left _) hkeys fun key => ?_
      rw [extras, extras, OrderedMap.get?_filter_key, OrderedMap.get?_filter_key, h.get?_eq]
    rw [row_eq, row_eq, hdeclared, hextras]

/-- The cells of a row in a document. -/
theorem map_row_eq_iff {rows rows' : List Item}
    (h : List.Forall₂ (OrderedMap.Alike Eq) rows rows') :
    rows.map (fun item => Data.object ((row properties item).mapValues fun _ text => .str text))
        = rows'.map (fun item =>
          Data.object ((row properties item).mapValues fun _ text => .str text))
      ↔ rows.map (fun item => (extras properties item).keys)
        = rows'.map fun item => (extras properties item).keys := by
  induction h with
  | nil => exact iff_of_true rfl rfl
  | cons hrow _ ih =>
    rw [List.map_cons, List.map_cons, List.map_cons, List.map_cons, List.cons.injEq,
      List.cons.injEq, Data.object.injEq, OrderedMap.mapValues_inj fun _ _ => Data.str.inj,
      row_eq_iff hrow, ih]

end FieldList

namespace FieldValue

/-- Two values whose items, one by one, hold the properties that are not declared in the same
order. -/
def SameExtras (properties : List String) (v w : FieldValue) : Prop :=
  ∀ rows rows', v = .items rows → w = .items rows' →
    rows.map (fun item => (FieldList.extras properties item).keys)
      = rows'.map fun item => (FieldList.extras properties item).keys

/-- Values without items have no extra cells in any order. -/
theorem SameExtras.of_isEmpty {properties : List String} {v w : FieldValue}
    (hv : v.isEmpty = true) (hw : w.isEmpty = true) : SameExtras properties v w := by
  rintro rows rows' rfl rfl
  rw [List.isEmpty_iff.1 hv, List.isEmpty_iff.1 hw]

end FieldValue

namespace FieldList

/-- What is shown of alike values is the same when the items have the same order of other
properties. -/
theorem items_eq_iff (field : Field) {v w : FieldValue} (h : v.Alike w) :
    items field v = items field w ↔ v.SameExtras field.type.properties w := by
  have hscalar {v w : FieldValue} (hv : ∀ rows, v ≠ .items rows) :
      v.SameExtras field.type.properties w := fun rows _ hrows => absurd hrows (hv rows)
  cases h with
  | absent => exact iff_of_true rfl (hscalar nofun)
  | string s => exact iff_of_true rfl (hscalar nofun)
  | boolean b => exact iff_of_true rfl (hscalar nofun)
  | integer n => exact iff_of_true rfl (hscalar nofun)
  | timestamp t => exact iff_of_true rfl (hscalar nofun)
  | @items rows rows' hrows =>
    have hextras : (FieldValue.items rows).SameExtras field.type.properties (.items rows') ↔
        rows.map (fun item => (extras field.type.properties item).keys)
          = rows'.map fun item => (extras field.type.properties item).keys :=
      ⟨fun hsame => hsame rows rows' rfl rfl, fun heq _ _ hv hw =>
        FieldValue.items.inj hv ▸ FieldValue.items.inj hw ▸ heq⟩
    rw [hextras, items, items, map_row_eq_iff hrows]

/-! ### Whole renderings -/

/-- The field whose element stands under a name, when there is something to show: of several
fields of that name the one that is shown last. -/
def lastShown (s : Schema) (name : String) : Option Field :=
  (shownOrder s).reverse.find? fun f => f.name = name

/-- The field that is shown last under a name has that name. -/
theorem name_of_lastShown {s : Schema} {name : String} {f : Field}
    (h : lastShown s name = some f) : f.name = name := by
  simpa using List.find?_some h

/-- Where no name is repeated, this is the field of that name. -/
theorem lastShown_of_mem {s : Schema} (hnames : s.fieldNames.Nodup) {f : Field}
    (hf : f ∈ s.fields) : lastShown s f.name = some f := by
  have hmem : f ∈ (shownOrder s).reverse := List.mem_reverse.2 (mem_shownOrder.2 hf)
  have hsome : (lastShown s f.name).isSome = true :=
    List.find?_isSome.2 ⟨f, hmem, decide_eq_true rfl⟩
  obtain ⟨g, hg⟩ := Option.isSome_iff_exists.1 hsome
  have hgmem : g ∈ s.fields := mem_shownOrder.1 (List.mem_reverse.1 (List.mem_of_find?_eq_some hg))
  rw [hg, List.inj_on_of_nodup_map hnames hgmem hf (name_of_lastShown hg)]

/-- **Where a key of a rendering is looked up:** in the elements of the fields, then in the
header. -/
theorem get?_header_merge_shown (r : Record) (context : RenderContext) (key : String) :
    ((header r context).merge (shown r)).get? key
      = ((lastShown r.schema key).bind (shownNode? r)).or ((header r context).get? key) := by
  have hfind : ((shownOrder r.schema).reverse.find? fun f =>
      decide (f.name = key) && (shownNode? r f).isSome).bind (shownNode? r)
      = (lastShown r.schema key).bind (shownNode? r) := by
    by_cases hshows : r.shows key = true
    · have hpred (f : Field) : (decide (f.name = key) && (shownNode? r f).isSome)
          = decide (f.name = key) := by
        by_cases hname : f.name = key <;> simp [hname, isSome_shownNode?, hshows]
      simp only [hpred, lastShown]
    · have hnone {f : Field} (hname : f.name = key) : shownNode? r f = none := by
        rw [← Option.not_isSome_iff_eq_none, isSome_shownNode?, hname]
        exact hshows
      have hpred : (shownOrder r.schema).reverse.find? (fun f =>
          decide (f.name = key) && (shownNode? r f).isSome) = none := by
        refine List.find?_eq_none.2 fun f _ => ?_
        by_cases hname : f.name = key <;> simp [hname, hnone]
      cases hlast : lastShown r.schema key with
      | none => rw [hpred]
      | some f => rw [hpred, Option.bind_some, hnone (name_of_lastShown hlast), Option.bind_none]
  rw [OrderedMap.get?_merge, shown, ← List.filterMap_reverse, OrderedMap.lookupIn_filterMap, hfind]

/-- Under a name stands the element of the field that is shown last. -/
theorem get?_header_merge_shown_of_lastShown {r : Record} {name : String} {f : Field}
    (hf : lastShown r.schema name = some f) {v : FieldValue} (hv : r.slots.get? name = some v)
    (hempty : v.isEmpty = false) (context : RenderContext) :
    ((header r context).merge (shown r)).get? name = some (.element (fieldElement f v)) := by
  have hnode : shownNode? r f = some (.element (fieldElement f v)) := by
    simp [shownNode?, name_of_lastShown hf, hv, hempty]
  rw [get?_header_merge_shown, hf, Option.bind_some, hnode, Option.some_or]

/-- The order of rows shows in the element of a field. -/
theorem sameExtras_of_toData_eq {f : Field} {v w : FieldValue} (hvw : v.Alike w)
    (h : v.isEmpty = false → Tree.toData (fieldElement f v) = Tree.toData (fieldElement f w)) :
    v.SameExtras f.type.properties w := by
  cases hempty : v.isEmpty with
  | true => exact .of_isEmpty hempty (hvw.isEmpty_eq ▸ hempty)
  | false =>
    have hget (v : FieldValue) :
        (fieldElement f v).get? "#items" = some (.property (.list (items f v))) := rfl
    have hitems := Tree.get?_toData_eq (h hempty) "#items"
    rw [hget, hget] at hitems
    exact (items_eq_iff f hvw).1 (Data.list.inj (Option.some.inj hitems))

end FieldList

namespace Record

open FieldList Composer

/-- Two records whose items, wherever they are shown, hold the properties that the field does
not declare in the same order. -/
def SameRowOrder (a b : Record) : Prop :=
  ∀ name f v w, lastShown a.schema name = some f → a.slots.get? name = some v →
    b.slots.get? name = some w → v.SameExtras f.type.properties w

variable {a b : Record}

/-- Alike records have something to show in the same fields. -/
theorem Alike.shows_eq (h : a.Alike b) (name : String) : a.shows name = b.shows name := by
  unfold Record.shows
  rcases h.slots.cases name with ⟨hv, hw⟩ | ⟨v, w, hv, hw, hvw⟩
  · rw [hv, hw]
  · simp [hv, hw, hvw.isEmpty_eq]

/-- **Renderings in full:** with the same order of rows, alike records are rendered the same. -/
theorem SameRowOrder.whole_eq (hsame : a.SameRowOrder b) (h : a.Alike b)
    (context : RenderContext) :
    (header a context).merge (shown a) = (header b context).merge (shown b) := by
  have hheader : header a context = header b context := by
    simp only [header, h.entityType_eq, h.id]
  have hkeys : (shown a).keys = (shown b).keys := by
    simp only [keys_shown, h.schema, isSome_shownNode?, h.shows_eq]
  refine OrderedMap.eq_of_get? (OrderedMap.nodup_keys_merge (OrderedMap.nodup_keys_ofList _) _)
    ?_ fun key => ?_
  · rw [OrderedMap.keys_merge, OrderedMap.keys_merge, hheader, hkeys]
  · rw [get?_header_merge_shown, get?_header_merge_shown, hheader, ← h.schema]
    cases hlast : lastShown a.schema key with
    | none => rfl
    | some f =>
      have hnode : shownNode? a f = shownNode? b f := by
        obtain rfl := name_of_lastShown hlast
        unfold shownNode?
        rcases h.slots.cases f.name with ⟨hv, hw⟩ | ⟨v, w, hv, hw, hvw⟩
        · rw [hv, hw]
        · have hitems := (items_eq_iff f hvw).2 (hsame f.name f v w hlast hv hw)
          simp only [hv, hw, hvw.isEmpty_eq, fieldElement, hitems]
      rw [Option.bind_some, Option.bind_some, hnode]

/-- Hiding fields keeps the order of rows. -/
theorem SameRowOrder.withOnly (hsame : a.SameRowOrder b) (names : List String) :
    (a.withOnly names).SameRowOrder (b.withOnly names) := by
  intro name f v w hf hv hw
  rcases get?_withOnly_eq_some hv with ⟨rfl, -⟩ | hv
  · exact fun rows rows' hrows => by cases hrows
  · rcases get?_withOnly_eq_some hw with ⟨rfl, -⟩ | hw
    · exact fun rows rows' _ hrows' => by cases hrows'
    · exact hsame name f v w hf hv hw

/-- **Pages in full:** with the same order of rows, alike records have the same pages. -/
theorem SameRowOrder.pageFrom_eq (hsame : a.SameRowOrder b) (h : a.Alike b) (start : Int32)
    (view : View) (context : RenderContext) :
    pageFrom start a view context = pageFrom start b view context := by
  have hbody (f : Fieldset) : body a context f = body b context f :=
    (hsame.withOnly f.fields).whole_eq (h.withOnly f.fields) context
  have hcontainers (weight : Int32) (fieldsets : List Fieldset) :
      containers a context weight fieldsets = containers b context weight fieldsets := by
    induction fieldsets generalizing weight with
    | nil => rfl
    | cons f rest ih => rw [containers, containers, hbody, ih]
  have hkeeps (key : String) : keeps view a key = keeps view b key := by
    rw [keeps, keeps, h.schema]
  simp only [pageFrom, hsame.whole_eq h, hcontainers, hkeeps]

/-- **The text of a rendering** tells the order of rows, and nothing else of alike records. -/
theorem toJson_whole_eq_iff (h : a.Alike b) (context : RenderContext) :
    (Tree.toData ((header a context).merge (shown a))).toJson
        = (Tree.toData ((header b context).merge (shown b))).toJson ↔ a.SameRowOrder b := by
  refine ⟨fun htext => ?_, fun hsame => by rw [hsame.whole_eq h]⟩
  have hdata := Tree.toData_eq_of_toJson_eq (integral_header_merge_shown a context)
    (integral_header_merge_shown b context) htext
  intro name f v w hf hv hw
  have hvw : v.Alike w := h.slots.rel hv hw
  refine sameExtras_of_toData_eq hvw fun hempty => ?_
  have hget := Tree.get?_toData_eq hdata name
  rw [get?_header_merge_shown_of_lastShown hf hv hempty,
    get?_header_merge_shown_of_lastShown (h.schema ▸ hf) hw (hvw.isEmpty_eq ▸ hempty)] at hget
  exact Option.some.inj hget

end Record

namespace Composer

open FieldList

variable {r : Record} {view : View} {context : RenderContext} {name : String} {f : Field}
  {v : FieldValue}

/-- A field that is named like a property stays on every page. -/
theorem get?_pageFrom_of_isMetaKey (hkey : isMetaKey name = true)
    (hname : name ∉ view.fieldsets.map (·.name)) (start : Int32) :
    (pageFrom start r view context).get? name
      = ((header r context).merge (shown r)).get? name := by
  have hkeeps : keeps view r name = true := by rw [keeps, hkey, Bool.true_or, Bool.true_or]
  have hnone : (OrderedMap.ofList (containers r context start view.fieldsets)).get? name
      = none := by
    rw [OrderedMap.get?_eq_none_iff, OrderedMap.keys_ofList, List.mem_eraseDups,
      map_fst_containers]
    exact hname
  rw [pageFrom, OrderedMap.get?_filter_key, if_pos hkeeps,
    OrderedMap.get?_merge_of_nodup (OrderedMap.nodup_keys_ofList _), hnone, Option.none_or]

/-- Every other field is found in the container of a fieldset that lists it. -/
theorem get?_container_of_lastShown (hkey : isMetaKey name = false)
    (hf : lastShown r.schema name = some f) (hv : r.slots.get? name = some v)
    (hempty : v.isEmpty = false) {fieldset : Fieldset} (hlisted : name ∈ fieldset.fields)
    (weight : Int32) :
    (container fieldset weight (body r context fieldset)).get? name
      = some (.element (fieldElement f v)) := by
  have hvisible : (r.withOnly fieldset.fields).slots.get? name = some v := by
    rw [Record.withOnly, OrderedMap.get?_mapValues, hv, Option.map_some, if_pos hlisted]
  have hbody : (body r context fieldset).get? name = some (.element (fieldElement f v)) :=
    get?_header_merge_shown_of_lastShown (r := r.withOnly fieldset.fields) hf hvisible hempty
      context
  rw [get?_container, hbody]
  simp [hkey, Node.isElement]

/-- A fieldset that lists one field. -/
def fieldsetOf (name : String) : Fieldset := { name := "", title := "", fields := [name] }

/-- A view that shows one field. -/
def viewOf (name : String) : View where
  entityType := ""
  fieldsets := [fieldsetOf name]

/-- **The text of a page of one field** tells what stands in its element. -/
theorem toData_fieldElement_eq {a b : Record} {w : FieldValue} {start : Int32}
    (htext : (Tree.toData (pageFrom start a (viewOf name) context)).toJson
      = (Tree.toData (pageFrom start b (viewOf name) context)).toJson)
    (hf : lastShown a.schema name = some f) (hf' : lastShown b.schema name = some f)
    (hv : a.slots.get? name = some v) (hw : b.slots.get? name = some w)
    (hempty : v.isEmpty = false) (hempty' : w.isEmpty = false) :
    Tree.toData (fieldElement f v) = Tree.toData (fieldElement f w) := by
  have hdata := Tree.toData_eq_of_toJson_eq (integral_pageFrom start a (viewOf name) context)
    (integral_pageFrom start b (viewOf name) context) htext
  -- a metadata key stays on the page itself; any other name is shown inside the fieldset
  cases hkey : isMetaKey name with
  | true =>
    have hname : name ∉ (viewOf name).fieldsets.map (·.name) := by
      intro hmem
      rw [List.mem_singleton.1 hmem] at hkey
      cases hkey
    have hget := Tree.get?_toData_eq hdata name
    rw [get?_pageFrom_of_isMetaKey hkey hname, get?_pageFrom_of_isMetaKey hkey hname,
      get?_header_merge_shown_of_lastShown hf hv hempty,
      get?_header_merge_shown_of_lastShown hf' hw hempty'] at hget
    exact Option.some.inj hget
  | false =>
    have hnames : ((viewOf name).fieldsets.map (·.name)).Nodup := List.nodup_singleton ""
    have hcontainer (r : Record) : (pageFrom start r (viewOf name) context).get? ""
        = some (.element (container (fieldsetOf name) (start + .ofNat 0)
          (body r context (fieldsetOf name)))) :=
      get?_pageFrom_of_getElem? hnames start (f := fieldsetOf name) rfl
    have hget := Tree.get?_toData_eq hdata ""
    rw [hcontainer, hcontainer] at hget
    have hinner := Tree.get?_toData_eq (Option.some.inj hget) name
    rw [get?_container_of_lastShown hkey hf hv hempty (List.mem_singleton.2 rfl),
      get?_container_of_lastShown hkey hf' hw hempty' (List.mem_singleton.2 rfl)] at hinner
    exact Option.some.inj hinner

/-! ### What a cache serves -/

/-- After the page of the one record was composed and kept, a hit for the other serves it, and
it has the text of the page that is composed of the other. -/
def ServesFresh (c : Composer (Except ViewError)) (a b : Record) (view : View)
    (context : RenderContext) : Prop :=
  ∃ page fresh, c.compose b view context = .ok fresh
    ∧ (∀ cache : PageCache, cache.get? a view context = none →
      ∃ cache', c.renderDetail cache a view context = .ok (page, cache')
        ∧ c.renderDetail cache' b view context = .ok (page, cache'))
    ∧ (Tree.toData page).toJson = (Tree.toData fresh).toJson

/-- A hit for a record that is alike serves the page of the first. -/
theorem renderDetail_pair {c : Composer (Except ViewError)} {a b : Record} (h : a.Alike b)
    {page : Tree} (hpage : c.compose a view context = .ok page) {cache : PageCache}
    (hmiss : cache.get? a view context = none) :
    ∃ cache', c.renderDetail cache a view context = .ok (page, cache')
      ∧ c.renderDetail cache' b view context = .ok (page, cache') := by
  refine ⟨cache.insert a view context page, ?_, ?_⟩
  · rw [renderDetail, hmiss, hpage]
    rfl
  · rw [renderDetail, SharedCache.get?_insert_of_alike h]
    rfl

/-- What is kept serves for a fresh page when both have one text. -/
theorem servesFresh_iff {c : Composer (Except ViewError)} {a b : Record} (h : a.Alike b)
    {page fresh : Tree} (hpage : c.compose a view context = .ok page)
    (hfresh : c.compose b view context = .ok fresh) :
    c.ServesFresh a b view context ↔ (Tree.toData page).toJson = (Tree.toData fresh).toJson := by
  constructor
  · rintro ⟨page', fresh', hfresh', hserves, htext⟩
    have hmiss : PageCache.empty.get? a view context = none := rfl
    obtain ⟨cache, hfirst, -⟩ := hserves .empty hmiss
    obtain ⟨cache', hfirst', -⟩ := renderDetail_pair h hpage hmiss
    obtain ⟨rfl, -⟩ := Prod.mk.inj (Except.ok.inj (hfirst.symm.trans hfirst'))
    obtain rfl := Except.ok.inj (hfresh.symm.trans hfresh')
    exact htext
  · exact fun htext => ⟨page, fresh, hfresh, fun cache => renderDetail_pair h hpage, htext⟩

/-- With the same order of rows, a composer without resolvers serves what is fresh. -/
theorem servesFresh_of_sameRowOrder {c : Composer (Except ViewError)}
    (hrender : c.render = FieldList.renderer) (hresolvers : c.resolvers = []) {a b : Record}
    (ha : a.Filled) (hb : b.Filled) (h : a.Alike b) (hsame : a.SameRowOrder b) (view : View)
    (context : RenderContext) : c.ServesFresh a b view context := by
  have hresolve (r : Record) : resolveValues c.resolvers r = .ok r := by rw [hresolvers]; rfl
  refine (servesFresh_iff h (compose_eq_of_resolveValues hrender (hresolve a) ha view context)
    (compose_eq_of_resolveValues hrender (hresolve b) hb view context)).2 ?_
  rw [hsame.pageFrom_eq h]

/-- A page of one field that is served for another record tells the order of its rows. -/
theorem sameExtras_of_servesFresh {a b : Record} (ha : a.WellFormed) (hb : b.WellFormed)
    (h : a.Alike b) {start : Int32} (hfresh : (plainFrom start).ServesFresh a b (viewOf name) context)
    (hf : lastShown a.schema name = some f) (hv : a.slots.get? name = some v) {w : FieldValue}
    (hw : b.slots.get? name = some w) : v.SameExtras f.type.properties w := by
  have hvw : v.Alike w := h.slots.rel hv hw
  have htext := (servesFresh_iff h (compose_plainFrom ha start (viewOf name) context)
    (compose_plainFrom hb start (viewOf name) context)).1 hfresh
  exact sameExtras_of_toData_eq hvw fun hempty =>
    toData_fieldElement_eq htext hf (h.schema ▸ hf) hv hw hempty (hvw.isEmpty_eq ▸ hempty)

end Composer

namespace Record

open FieldList

/-- What the texts of equal records say. -/
structure TextsTellRowOrder (a b : Record) : Prop where
  /-- They are rendered to equal trees, which have one text exactly when the items hold the
  properties that the fields do not declare in the same order. -/
  rendered : ∀ context, ∃ t t', renderer a context = .ok t ∧ renderer b context = .ok t'
    ∧ (t == t') = true ∧ ((Tree.toData t).toJson = (Tree.toData t').toJson ↔ a.SameRowOrder b)
  /-- Exactly then a page that is kept for the one has, for every view, the text of the page
  of the other. -/
  kept : ∀ start context, (∀ view, (Composer.plainFrom start).ServesFresh a b view context)
    ↔ a.SameRowOrder b
  /-- Then this is so of every composer without resolvers. -/
  transformed : a.SameRowOrder b → ∀ c : Composer (Except ViewError), c.render = renderer →
    c.resolvers = [] → ∀ view context, c.ServesFresh a b view context

/-- **Equal records have one text** exactly when they have the same order of rows: equality does
not look at the order of the properties of an item, but the cells of a row follow it where the
field does not declare the property. A page that is kept for the one record is served for the
other in any case, and so with another text than its own where the orders differ. -/
theorem textsTellRowOrder {a b : Record} (ha : a.WellFormed) (hb : b.WellFormed)
    (hequal : (a == b) = true) : a.TextsTellRowOrder b := by
  have h : a.Alike b := alike_of_beq ha.toDistinct hb.toDistinct hequal
  have hserves (hsame : a.SameRowOrder b) {c : Composer (Except ViewError)}
      (hrender : c.render = renderer) (hresolvers : c.resolvers = []) (view : View)
      (context : RenderContext) : c.ServesFresh a b view context :=
    Composer.servesFresh_of_sameRowOrder hrender hresolvers ha.filled hb.filled h hsame view context
  constructor
  case rendered =>
    intro context
    have htrees : ((header a context).merge (shown a) == (header b context).merge (shown b))
        = true := by
      rcases (renderer_alike h context).cases with ⟨e, ht, -⟩ | ⟨t, t', ht, ht', halike⟩
      · cases (renderer_eq ha context).symm.trans ht
      · obtain rfl := Except.ok.inj ((renderer_eq ha context).symm.trans ht)
        obtain rfl := Except.ok.inj ((renderer_eq hb context).symm.trans ht')
        exact halike.beq
    exact ⟨_, _, renderer_eq ha context, renderer_eq hb context, htrees,
      toJson_whole_eq_iff h context⟩
  case kept =>
    intro start context
    constructor
    · intro hfresh name f v w hf hv hw
      exact Composer.sameExtras_of_servesFresh ha hb h (hfresh _) hf hv hw
    · exact fun hsame view => hserves hsame rfl rfl view context
  case transformed =>
    intro hsame c hrender hresolvers
    exact hserves hsame hrender hresolvers

/-- Security groups with rules that have a port. -/
def ruleSchema : Schema where
  name := "security_group"
  label := "Security group"
  labelField := "name"
  fields := [.string "name" "Name", .composite "rules" "Rules" ["port"]]

/-- A security group with one rule. -/
def ruleRecord (cells : List (String × String)) : Record where
  id := ⟨7⟩
  schema := ruleSchema
  slots := .ofList [("name", .absent), ("rules", .items [.ofList cells])]

theorem wellFormed_ruleRecord (cells : List (String × String)) : (ruleRecord cells).WellFormed := by
  have hset : (Record.new ⟨7⟩ ruleSchema).set "rules" (.items [.ofList cells])
      = .ok (ruleRecord cells) := rfl
  refine (wellFormed_new ⟨7⟩ ruleSchema).set (fun rows hrows row hrow => ?_) hset
  obtain rfl := FieldValue.items.inj hrows
  obtain rfl := List.mem_singleton.1 hrow
  exact OrderedMap.nodup_keys_ofList cells

/-- A security group with an owner and a note that are not declared. -/
def ownerFirst : Record := ruleRecord [("port", "22"), ("owner", "x"), ("note", "y")]

/-- The same with the declared port at the end. -/
def portLast : Record := ruleRecord [("owner", "x"), ("note", "y"), ("port", "22")]

/-- The same with the note before the owner. -/
def noteFirst : Record := ruleRecord [("port", "22"), ("note", "y"), ("owner", "x")]

/-- Two rules that hold their declared property in another place. -/
theorem textsTellRowOrder_portLast :
    ownerFirst.WellFormed ∧ portLast.WellFormed ∧ (ownerFirst == portLast) = true
      ∧ ownerFirst.TextsTellRowOrder portLast :=
  ⟨wellFormed_ruleRecord _, wellFormed_ruleRecord _, by decide,
    textsTellRowOrder (wellFormed_ruleRecord _) (wellFormed_ruleRecord _) (by decide)⟩

/-- Records that are equal have other texts, and a page that is kept for the one is served for
the other, where the text of its own page is another one. -/
theorem not_sameText_noteFirst :
    ownerFirst.WellFormed ∧ noteFirst.WellFormed ∧ (ownerFirst == noteFirst) = true
      ∧ (∃ t t', renderer ownerFirst {} = .ok t ∧ renderer noteFirst {} = .ok t'
        ∧ (Tree.toData t).toJson ≠ (Tree.toData t').toJson)
      ∧ ¬ Composer.plain.ServesFresh ownerFirst noteFirst (Composer.viewOf "rules") {} := by
  have ha : ownerFirst.WellFormed := wellFormed_ruleRecord _
  have hb : noteFirst.WellFormed := wellFormed_ruleRecord _
  have hequal : (ownerFirst == noteFirst) = true := by decide
  have h : ownerFirst.Alike noteFirst := alike_of_beq ha.toDistinct hb.toDistinct hequal
  have hlast : lastShown ruleSchema "rules" = some (.composite "rules" "Rules" ["port"]) :=
    lastShown_of_mem (s := ruleSchema) (by decide) (List.mem_cons_of_mem _ List.mem_cons_self)
  have hnot : ¬ FieldValue.SameExtras ["port"]
      (.items [.ofList [("port", "22"), ("owner", "x"), ("note", "y")]])
      (.items [.ofList [("port", "22"), ("note", "y"), ("owner", "x")]]) := fun hsame =>
    absurd (hsame _ _ rfl rfl) (by decide)
  refine ⟨ha, hb, hequal, ⟨_, _, renderer_eq ha {}, renderer_eq hb {}, fun htext => hnot ?_⟩,
    fun hfresh => hnot ?_⟩
  · exact (toJson_whole_eq_iff h {}).1 htext "rules" _ _ _ hlast rfl rfl
  · exact Composer.sameExtras_of_servesFresh ha hb h hfresh hlast rfl rfl

end Record
end Inventory
