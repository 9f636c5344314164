/-
# The plain rendering, part by part

`render` of `FieldListRenderer`, by the weights that `fields` of `ResourceSchema` gives.

On a valid schema whose fields are named unlike properties, the rendering of a record tells
what the record holds and nothing else (`renderer_shows`):

| part | in which order |
| --- | --- |
| a child for each field with something to show | by weight, fields of one weight as declared |
| in the child of a composite field a row for each item | as stored |
| in a row a cell for each declared property of the item | as declared, at the first mention |
| behind these a cell for each other property of the item | as the item has them |

A schema to which the fields are added without weights gives them their positions as weights,
so that they are shown as they were added (`pairwise_weight_addFields`). A position is cut to
the 32 bits of a weight, so this is said of up to 2147483648 fields.
-/

import Inventory.Proofs.Listing.Arrangement
import Inventory.Proofs.Page.ChildOrder
import Inventory.Proofs.Page.RowOrder

namespace Inventory

/-- A filter keeps an arrangement stable. -/
theorem StableArrangement.filter {α : Type} {order : α → α → Ordering} {xs ys : List α}
    (h : StableArrangement order xs ys) (q : α → Bool) :
    StableArrangement order (xs.filter q) (ys.filter q) where
  perm := h.perm.filter q
  sorted := h.sorted.filter q
  stable a ha := by
    rw [List.filter_comm, h.stable a (List.mem_of_mem_filter ha), List.filter_comm]

/-! ### Weights -/

namespace Schema

/-- A schema whose fields have ascending weights, all of them below the next position. -/
structure Counted (s : Schema) : Prop where
  sorted : s.fields.Pairwise fun f g => f.weight ≤ g.weight
  below : ∀ f ∈ s.fields, f.weight < s.fields.length

/-- **Step:** a field without a weight goes behind the others, while the position fits 32 bits. -/
theorem Counted.addField {s : Schema} (h : s.Counted) (hfits : s.fields.length < 2147483648)
    {f : Field} (hf : f.weight = 0) : (s.addField f).Counted := by
  have hposition : (Int32.ofNat s.fields.length).toInt = s.fields.length :=
    Int32.toInt_ofNat_of_lt hfits
  rw [Schema.addField, if_pos hf, hposition]
  refine ⟨List.pairwise_append.2 ⟨h.sorted, List.pairwise_singleton _ _, fun g hg g' hg' => ?_⟩,
    fun g hg => ?_⟩
  · rw [List.mem_singleton.1 hg']
    exact Int.le_of_lt (h.below g hg)
  · rw [List.length_append, List.length_singleton]
    rcases List.mem_append.1 hg with hg | hg
    · have := h.below g hg
      omega
    · rw [List.mem_singleton.1 hg]
      dsimp only
      omega

/-- **Run:** so do any fields without weights, while their positions fit. -/
theorem Counted.addFields {s : Schema} (h : s.Counted) {fs : List Field}
    (hfits : s.fields.length + fs.length ≤ 2147483648) (hfs : ∀ f ∈ fs, f.weight = 0) :
    (s.addFields fs).Counted := by
  induction fs generalizing s with
  | nil => exact h
  | cons f rest ih =>
    have hlength : (s.addField f).fields.length = s.fields.length + 1 := List.length_append
    rw [List.length_cons] at hfits
    exact ih (h.addField (by omega) (hfs f List.mem_cons_self)) (by omega)
      fun g hg => hfs g (List.mem_cons_of_mem _ hg)

/-- Fields that are added without weights stand in the order of their weights, as long as their
positions fit 32 bits. -/
theorem pairwise_weight_addFields (name label labelField : String) {fs : List Field}
    (hfits : fs.length ≤ 2147483648) (hfs : ∀ f ∈ fs, f.weight = 0) :
    ((Schema.mk name label labelField []).addFields fs).fields.Pairwise
      fun f g => f.weight ≤ g.weight := by
  have hempty : Counted (Schema.mk name label labelField []) := ⟨.nil, fun _ hf => by cases hf⟩
  refine (hempty.addFields ?_ hfs).sorted
  rwa [List.length_nil, Nat.zero_add]

end Schema

namespace FieldList

/-- The order of fields by weight. -/
def byWeight (f g : Field) : Ordering := compare f.weight g.weight

/-- Fields tie when they have one weight. -/
theorem byWeight_eq_iff {f g : Field} : byWeight f g = .eq ↔ f.weight = g.weight :=
  Std.compare_eq_iff_eq

/-- A field may stand before another one when it weighs no more. -/
theorem byWeight_ne_gt_iff {f g : Field} : byWeight f g ≠ .gt ↔ f.weight ≤ g.weight := by
  rw [Ne, byWeight, Std.compare_eq_gt, Int.not_lt]

/-- **The order of showing** is the stable arrangement by weight. -/
theorem stableArrangement_shownOrder (s : Schema) :
    StableArrangement byWeight s.fields (shownOrder s) := by
  have htrans (f g h : Field) (hfg : decide (f.weight ≤ g.weight) = true)
      (hgh : decide (g.weight ≤ h.weight) = true) : decide (f.weight ≤ h.weight) = true := by
    simp only [decide_eq_true_eq] at hfg hgh ⊢
    omega
  have htotal (f g : Field) :
      (decide (f.weight ≤ g.weight) || decide (g.weight ≤ f.weight)) = true := by
    simp only [Bool.or_eq_true, decide_eq_true_eq]
    omega
  have hperm : (shownOrder s).Perm s.fields := List.mergeSort_perm s.fields _
  refine ⟨hperm, ?_, fun f hf => ?_⟩
  · refine (List.pairwise_mergeSort htrans htotal s.fields).imp fun hle => ?_
    exact byWeight_ne_gt_iff.2 (of_decide_eq_true hle)
  · -- the fields that tie are in order as they stand, so sorting keeps them as a sublist
    have hties : (s.fields.filter (byWeight f · = .eq)).Pairwise
        fun g h => decide (g.weight ≤ h.weight) = true := by
      refine List.pairwise_of_forall_mem_list fun g hg h hh => decide_eq_true ?_
      have hfg := byWeight_eq_iff.1 (of_decide_eq_true (List.mem_filter.1 hg).2)
      have hfh := byWeight_eq_iff.1 (of_decide_eq_true (List.mem_filter.1 hh).2)
      omega
    have hsublist := (List.sublist_mergeSort htrans htotal hties List.filter_sublist).filter
      (byWeight f · = .eq)
    simp only [List.filter_filter, Bool.and_self] at hsublist
    exact (hsublist.eq_of_length (hperm.filter _).length_eq.symm).symm

/-! ### Rows -/

/-- What is asked of the row of an item: a cell for each of its properties, with the text of
the property, the declared ones first. -/
structure IsRow (properties : List String) (item : Item) (cells : OrderedMap String Data) :
    Prop where
  nodup : cells.keys.Nodup
  texts : ∀ key, cells.get? key = (item.get? key).map .str
  keys : cells.keys
    = (properties.filter (· ∈ item.keys)).eraseDups ++ item.keys.filter (· ∉ properties)

variable {properties : List String} {item : Item}

/-- The declared cells are in the order of the properties. -/
theorem keys_declared (properties : List String) (item : Item) :
    (declared properties item).keys = (properties.filter (· ∈ item.keys)).eraseDups := by
  rw [declared, OrderedMap.keys_ofList, List.map_filterMap, ← List.filterMap_eq_filter]
  refine congrArg List.eraseDups (List.filterMap_congr fun p _ => ?_)
  cases htext : item.get? p with
  | none => simp [Option.guard, OrderedMap.get?_eq_none_iff.1 htext]
  | some text =>
    have hmem : p ∈ item.keys := OrderedMap.isSome_get?_iff.1 (by rw [htext]; rfl)
    simp [Option.guard, hmem]

/-- A declared cell is that of the item. -/
theorem get?_declared (properties : List String) (item : Item) (key : String) :
    (declared properties item).get? key = if key ∈ properties then item.get? key else none := by
  have hlookup := OrderedMap.lookupIn_filterMap (fun p => p) item.get? properties.reverse key
  rw [declared, OrderedMap.get?_ofList, ← List.filterMap_reverse, hlookup]
  cases hfind : properties.reverse.find? fun p => decide (p = key) && (item.get? p).isSome with
  | none =>
    split
    · rename_i hmem
      have hnone := List.find?_eq_none.1 hfind key (List.mem_reverse.2 hmem)
      rw [decide_eq_true rfl, Bool.true_and, Option.not_isSome_iff_eq_none] at hnone
      rw [hnone]
      rfl
    · rfl
  | some p =>
    have hp := List.find?_some hfind
    rw [Bool.and_eq_true_iff, decide_eq_true_eq] at hp
    obtain ⟨rfl, -⟩ := hp
    rw [if_pos (List.mem_reverse.1 (List.mem_of_find?_eq_some hfind))]
    rfl

/-- **The row of an item** is as asked. -/
theorem isRow (h : item.keys.Nodup) (properties : List String) :
    IsRow properties item ((row properties item).mapValues fun _ text => .str text) := by
  have hextras : (extras properties item).keys.Nodup := OrderedMap.nodup_keys_filter h _
  have hkeys : (row properties item).keys
      = (properties.filter (· ∈ item.keys)).eraseDups ++ item.keys.filter (· ∉ properties) := by
    rw [OrderedMap.keys, entries_row h, List.map_append, ← keys_declared,
      ← OrderedMap.keys_filter_key]
    rfl
  refine ⟨?_, fun key => ?_, (OrderedMap.keys_mapValues _ _).trans hkeys⟩
  · rw [OrderedMap.keys_mapValues, row_eq]
    exact OrderedMap.nodup_keys_merge (OrderedMap.nodup_keys_ofList _) _
  · rw [OrderedMap.get?_mapValues, row_eq, OrderedMap.get?_merge_of_nodup hextras, get?_declared,
      extras, OrderedMap.get?_filter_key]
    by_cases hkey : key ∈ properties <;> simp [hkey]

/-- Each item has its row. -/
theorem forall₂_isRow {rows : List Item} (h : ∀ item ∈ rows, item.keys.Nodup)
    (properties : List String) :
    List.Forall₂ (IsRow properties) rows
      (rows.map fun item => (row properties item).mapValues fun _ text => .str text) := by
  rw [List.forall₂_map_right_iff, List.forall₂_same]
  exact fun item hitem => isRow (h item hitem) properties

/-! ### The whole rendering -/

/-- What is asked of the rendering of a record. -/
structure Shows (r : Record) (t : Tree) : Prop where
  /-- The children are the fields with something to show, by weight, ties as declared. -/
  children : ∃ fields, Tree.childKeys t = fields.map Field.name
    ∧ StableArrangement byWeight (r.schema.fields.filter fun f => r.shows f.name) fields
  /-- Each of them holds the value of its field. -/
  elements : ∀ f ∈ r.schema.fields, ∀ v, r.slots.get? f.name = some v → v.isEmpty = false →
    Tree.element? t f.name = some (fieldElement f v)
  /-- A composite field has a row for each of its items. -/
  rows : ∀ f ∈ r.schema.fields, ∀ properties, f.type = .composite properties →
    ∀ rows, r.slots.get? f.name = some (.items rows) → rows ≠ [] →
      ∃ element cells, Tree.element? t f.name = some element
        ∧ Tree.property? element "#items" = some (.list (cells.map .object))
        ∧ List.Forall₂ (IsRow properties) rows cells

/-- The children of a rendering are the fields that have something to show. -/
theorem childKeys_header_merge_shown {r : Record} (h : Plain r.schema) (context : RenderContext) :
    Tree.childKeys ((header r context).merge (shown r))
      = (shownNames r.schema).filter r.shows := by
  rw [Tree.childKeys, children_header_merge_shown h, ← Tree.childKeys, Tree.childKeys_eq,
    childNodes_shown h, keys_shown_eq_filter]

/-- **The plain rendering** shows what there is. -/
theorem shows_header_merge_shown {r : Record} (h : Plain r.schema) (hr : r.Distinct)
    (context : RenderContext) : Shows r ((header r context).merge (shown r)) := by
  have helement : ∀ f ∈ r.schema.fields, ∀ v, r.slots.get? f.name = some v → v.isEmpty = false →
      Tree.element? ((header r context).merge (shown r)) f.name = some (fieldElement f v) := by
    intro f hf v hv hempty
    rw [Tree.element?, get?_header_merge_shown_of_lastShown (lastShown_of_mem h.names hf) hv hempty]
  refine ⟨?_, helement, fun f hf properties htype rows hrows hne => ?_⟩
  · refine ⟨_, ?_, (stableArrangement_shownOrder r.schema).filter fun f => r.shows f.name⟩
    rw [childKeys_header_merge_shown h, shownNames, List.filter_map]
    rfl
  · have hempty : (FieldValue.items rows).isEmpty = false := by simpa [FieldValue.isEmpty] using hne
    refine ⟨_, _, helement f hf _ hrows hempty, ?_, forall₂_isRow (hr.rows _ _ hrows rows rfl) _⟩
    change some (Data.list (items f (.items rows))) = _
    rw [items, htype, List.map_map]
    rfl

/-- **The plain rendering loses and invents nothing:** every record on a valid schema whose
fields are named unlike properties is rendered, to one child for each field with something to
show, and in composite fields to one row for each item and one cell for each of its properties.
When the fields were added to the schema without weights, and are not more than 32 bits can
count, the children stand as declared. -/
theorem renderer_shows {s : Schema} {r : Record} (hvalid : s.validate = .ok ())
    (hfields : ∀ f ∈ s.fields, isMetaKey f.name = false) (hr : r.BuiltOn s)
    (context : RenderContext) :
    ∃ t, renderer r context = .ok t ∧ Shows r t
      ∧ ∀ name label labelField fs, s = (Schema.mk name label labelField []).addFields fs →
        fs.length ≤ 2147483648 → (∀ f ∈ fs, f.weight = 0) → Tree.childKeys t = s.fieldNames.filter r.shows := by
  have hschema := hr.schema_eq
  subst hschema
  have hplain : Plain r.schema := by
    refine ⟨Schema.nodup_of_validate hvalid, fun name hname => ?_⟩
    obtain ⟨f, hf, rfl⟩ := List.mem_map.1 hname
    exact hfields f hf
  refine ⟨_, renderer_eq hr.wellFormed context,
    shows_header_merge_shown hplain hr.wellFormed.toDistinct context, ?_⟩
  intro name label labelField fs hs hfits hfs
  have hsorted : r.schema.fields.Pairwise fun f g => f.weight ≤ g.weight :=
    hs ▸ Schema.pairwise_weight_addFields name label labelField hfits hfs
  rw [childKeys_header_merge_shown hplain, Composer.shownNames_of_pairwise hsorted]

/-- The fields of groups: a name, an owner, and rules that declare the port twice. -/
def groupFields : List Field :=
  [.string "name" "Name", .string "owner" "Owner",
    .composite "rules" "Rules" ["port", "protocol", "port"]]

/-- Groups with these fields, without weights of their own. -/
def groupSchema : Schema := (Schema.mk "group" "Group" "name" []).addFields groupFields

/-- A group without an owner, whose first rule has a note and whose second has no protocol. -/
def webGroup : Record where
  id := ⟨7⟩
  schema := groupSchema
  slots := .ofList [("name", .string "web"), ("owner", .absent), ("rules", .items
    [.ofList [("note", "open"), ("protocol", "tcp"), ("port", "443")], .ofList [("port", "22")]])]

theorem builtOn_webGroup : webGroup.BuiltOn groupSchema := by
  have hset : ((Record.new ⟨7⟩ groupSchema).set "name" (.string "web") >>= fun r =>
      r.set "rules" (.items [.ofList [("note", "open"), ("protocol", "tcp"), ("port", "443")],
        .ofList [("port", "22")]])) = .ok webGroup := rfl
  obtain ⟨r, hr, hset⟩ := bind_eq_ok_iff.1 hset
  refine .set (.set (.new ⟨7⟩) (fun _ h => by cases h) hr) (fun rows hrows item hitem => ?_) hset
  obtain rfl := FieldValue.items.inj hrows
  revert item
  decide

/-- The owner has no child, and in the row of the first rule the note is the last cell. -/
theorem renderer_shows_webGroup :
    ∃ t element, renderer webGroup {} = .ok t ∧ Shows webGroup t
      ∧ Tree.childKeys t = ["name", "rules"]
      ∧ Tree.element? t "rules" = some element
      ∧ Tree.property? element "#items" = some (.list [
        .object (.ofList [("port", .str "443"), ("protocol", .str "tcp"), ("note", .str "open")]),
        .object (.ofList [("port", .str "22")])]) := by
  obtain ⟨t, ht, hshows, hkeys⟩ := renderer_shows (by decide +kernel : groupSchema.validate = .ok ())
    (by decide +kernel) builtOn_webGroup {}
  have hrules := hshows.elements { Field.composite "rules" "Rules" ["port", "protocol", "port"] with
    weight := 2 } (by decide +kernel) _ rfl (by decide +kernel)
  exact ⟨t, _, ht, hshows, (hkeys "group" "Group" "name" groupFields rfl (by decide) (by decide +kernel)).trans
    (by decide +kernel), hrules, rfl⟩

end FieldList
end Inventory
