/-
# The order of the fields in a container

The containers of `compose`.

A fieldset lists its fields in an order. The record that is reduced to them is rendered like
any other, by weight, so the order of the listing does not reach the page:

| listed field | in the container |
| --- | --- |
| has something to show | a child, where the order of showing has it |
| is empty | no child |
| is named like a property | no child |

So the children of each container follow its listing on every record exactly when every listing
is in the order of showing and names no field like a property (`followsListings_iff`).
-/

import Inventory.Builtin.Defaults
import Inventory.Proofs.Page.Confinement
import Inventory.Proofs.Page.Repair

namespace Inventory

/-- A list that keeps the order of another has its members where the other has them. -/
theorem filter_mem_eq_of_sublist {α : Type} [DecidableEq α] {l names : List α}
    (h : l.Sublist names) (hnames : names.Nodup) : names.filter (· ∈ l) = l := by
  induction h with
  | slnil => rfl
  | @cons l names a hl ih =>
    obtain ⟨ha, hrest⟩ := List.nodup_cons.1 hnames
    have hnot : a ∉ l := fun hmem => ha (hl.mem hmem)
    rw [List.filter_cons_of_neg (by simpa using hnot), ih hrest]
  | @cons_cons l names a hl ih =>
    obtain ⟨ha, hrest⟩ := List.nodup_cons.1 hnames
    have hfilter : names.filter (fun name => decide (name ∈ a :: l))
        = names.filter fun name => decide (name ∈ l) := by
      refine List.filter_congr fun name hname => ?_
      have hne : name ≠ a := fun heq => ha (heq ▸ hname)
      simp [hne]
    rw [List.filter_cons_of_pos (by simp), hfilter, ih hrest]

namespace FieldList

/-- The names of the fields in the order in which they are shown. -/
def shownNames (s : Schema) : List String := (shownOrder s).map Field.name

theorem nodup_shownNames {s : Schema} (h : s.fieldNames.Nodup) : (shownNames s).Nodup :=
  ((List.mergeSort_perm s.fields _).map Field.name).nodup_iff.2 h

/-- What is shown stands in the order of showing. -/
theorem keys_shown_eq_filter (r : Record) :
    (shown r).keys = (shownNames r.schema).filter r.shows := by
  rw [keys_shown, shownNames, List.filter_map]
  refine congrArg (List.map Field.name) (List.filter_congr fun f _ => ?_)
  exact isSome_shownNode? r f

end FieldList

/-- Every listing is in the order of showing and names no field like a property. -/
def View.InShownOrder (view : View) (s : Schema) : Prop :=
  ∀ f ∈ view.fieldsets, f.fields.Sublist (FieldList.shownNames s)
    ∧ ∀ name ∈ f.fields, isMetaKey name = false

instance (view : View) (s : Schema) : Decidable (view.InShownOrder s) :=
  inferInstanceAs (Decidable (∀ f ∈ view.fieldsets, _ ∧ _))

namespace Composer

open FieldList (shownNames)

variable {s : Schema} {view : View} {r : Record} {context : RenderContext}

/-- The children of the container of a fieldset. -/
def childrenOf (r : Record) (f : Fieldset) : List String :=
  (shownNames r.schema).filter fun name =>
    decide (name ∈ f.fields) && r.shows name && !isMetaKey name

/-- **The children of a container** are the listed fields with something to show, in the
order of showing. -/
theorem childKeys_container (hnames : r.schema.fieldNames.Nodup) (context : RenderContext)
    (f : Fieldset) (weight : Int32) :
    Tree.childKeys (container f weight (body r context f)) = childrenOf r f := by
  have hnodup : (FieldList.shown (r.withOnly f.fields)).keys.Nodup :=
    FieldList.nodup_keys_shown (r := r.withOnly f.fields) hnames
  have hchildren : Tree.childNodes (FieldList.shown (r.withOnly f.fields))
      = (FieldList.shown r).filter fun key _ => decide (key ∈ f.fields) && !isMetaKey key := by
    rw [FieldList.shown_withOnly, Tree.childNodes, OrderedMap.filter, OrderedMap.filter,
      OrderedMap.filter, List.filter_filter]
    refine congrArg OrderedMap.mk (List.filter_congr fun e he => ?_)
    rw [FieldList.isElement_of_mem_shown he, Bool.and_true, Bool.and_comm]
  rw [Tree.childKeys, children_container_body f weight (nodup_keys_body r context f),
    ← Tree.childKeys, Tree.childKeys_eq, body, FieldList.childNodes_header_merge r context hnodup,
    hchildren, OrderedMap.keys_filter_key, FieldList.keys_shown_eq_filter, List.filter_filter,
    childrenOf]
  refine List.filter_congr fun name _ => ?_
  rw [Bool.and_right_comm]

/-- A record has a page, and on it each fieldset a container with the given children. -/
def HasChildren (r : Record) (view : View) (context : RenderContext)
    (children : Fieldset → List String) : Prop :=
  ∃ t, plain.compose r view context = .ok t
    ∧ ∀ f ∈ view.fieldsets, ∃ c, Tree.element? t f.name = some c ∧ Tree.childKeys c = children f

/-- Fieldsets with names of their own have the children that are shown. -/
theorem hasChildren_iff (hr : r.WellFormed) (hnames : r.schema.fieldNames.Nodup)
    (hfieldsets : (view.fieldsets.map (·.name)).Nodup) (context : RenderContext)
    {children : Fieldset → List String} :
    HasChildren r view context children ↔ ∀ f ∈ view.fieldsets, childrenOf r f = children f := by
  have hcontainer : ∀ f ∈ view.fieldsets, ∃ c,
      Tree.element? (page r view context) f.name = some c ∧ Tree.childKeys c = childrenOf r f := by
    intro f hf
    obtain ⟨i, hi⟩ := List.mem_iff_getElem?.1 hf
    have hget : (page r view context).get? f.name
        = some (.element (container f (0 + .ofNat i) (body r context f))) :=
      get?_pageFrom_of_getElem? hfieldsets 0 hi
    exact ⟨_, by rw [Tree.element?, hget], childKeys_container hnames context f _⟩
  constructor
  · rintro ⟨t, ht, hall⟩ f hf
    rw [compose_plain hr] at ht
    obtain rfl := Except.ok.inj ht
    obtain ⟨c, hc, hkeys⟩ := hcontainer f hf
    obtain ⟨c', hc', hkeys'⟩ := hall f hf
    obtain rfl := Option.some.inj (hc.symm.trans hc')
    exact hkeys.symm.trans hkeys'
  · intro h
    refine ⟨_, compose_plain hr view context, fun f hf => ?_⟩
    obtain ⟨c, hc, hkeys⟩ := hcontainer f hf
    exact ⟨c, hc, hkeys.trans (h f hf)⟩

/-! ### Listings and the order of showing -/

/-- In the order of showing the children are the listed fields with something to show. -/
theorem childrenOf_of_inShownOrder {f : Fieldset} (hnames : r.schema.fieldNames.Nodup)
    (hsublist : f.fields.Sublist (shownNames r.schema))
    (hunlike : ∀ name ∈ f.fields, isMetaKey name = false) :
    childrenOf r f = f.fields.filter r.shows := by
  have hlisted : (shownNames r.schema).filter (· ∈ f.fields) = f.fields :=
    filter_mem_eq_of_sublist hsublist (FieldList.nodup_shownNames hnames)
  rw [childrenOf]
  conv_rhs => rw [← hlisted, List.filter_filter]
  refine List.filter_congr fun name _ => ?_
  by_cases hname : name ∈ f.fields
  · simp [hname, hunlike name hname]
  · simp [hname]

/-- Some record has something to show in all of the given fields. -/
theorem exists_builtOn_shows (hnames : s.fieldNames.Nodup) {fields : List Field}
    (hfields : ∀ f ∈ fields, f ∈ s.fields) :
    ∃ r : Record, r.BuiltOn s ∧ ∀ f ∈ fields, r.shows f.name = true := by
  induction fields with
  | nil => exact ⟨_, .new ⟨0⟩, nofun⟩
  | cons f rest ih =>
    obtain ⟨hf, hrest⟩ := List.forall_mem_cons.1 hfields
    obtain ⟨r, hr, hshows⟩ := ih hrest
    have hfield : r.schema.field? f.name = some f := by
      rw [hr.schema_eq]
      exact Schema.field?_of_mem hnames hf
    have hset : r.set f.name (sample f.type) = .ok _ :=
      Record.set_eq_ok_iff.2 ⟨f, hfield, conformsTo_sample f.type, rfl⟩
    refine ⟨_, .set hr (distinct_sample f.type) hset, fun g hg => ?_⟩
    rw [Record.shows, OrderedMap.get?_insert]
    split
    · simp [isEmpty_sample]
    · rename_i hne
      rcases List.mem_cons.1 hg with rfl | hg
      · exact absurd rfl hne
      · exact hshows g hg

/-- The children of each container follow its listing, on every record. -/
def FollowsListings (s : Schema) (view : View) (context : RenderContext) : Prop :=
  ∀ r : Record, r.BuiltOn s → HasChildren r view context fun f => f.fields.filter r.shows

/-- **When containers follow their listings.** Under a view without problems with a valid schema
every record has a page, and its containers hold the listed fields with something to show in the
order of showing. So they follow the listings on every record exactly when these are in the
order of showing and name no field like a property. -/
theorem followsListings_iff (hvalid : s.validate = .ok ()) (hview : view.problems s = [])
    (context : RenderContext) :
    (∀ r : Record, r.BuiltOn s → HasChildren r view context (childrenOf r))
      ∧ (FollowsListings s view context ↔ view.InShownOrder s) := by
  have hnames := Schema.nodup_of_validate hvalid
  have hagrees := View.problems_eq_nil_iff.1 hview
  have hchildren {r : Record} (hr : r.BuiltOn s) {children : Fieldset → List String} :
      HasChildren r view context children ↔ ∀ f ∈ view.fieldsets, childrenOf r f = children f :=
    hasChildren_iff hr.wellFormed (hr.schema_eq ▸ hnames) hagrees.names context
  refine ⟨fun r hr => (hchildren hr).2 fun f _ => rfl, fun hfollows f hf => ?_, fun horder r hr => ?_⟩
  · obtain ⟨r, hr, hshows⟩ :=
      exists_builtOn_shows hnames (fun _ hf => hf : ∀ f ∈ s.fields, f ∈ s.fields)
    have hall : f.fields.filter r.shows = f.fields := by
      refine List.filter_eq_self.2 fun name hname => ?_
      obtain ⟨g, hg, rfl⟩ := List.mem_map.1 (hagrees.declared f hf name hname)
      exact hshows g hg
    have heq : childrenOf r f = f.fields := ((hchildren hr).1 (hfollows r hr) f hf).trans hall
    rw [← heq]
    refine ⟨hr.schema_eq ▸ List.filter_sublist, fun name hname => ?_⟩
    have hkept := (List.mem_filter.1 hname).2
    simpa using (Bool.and_eq_true_iff.1 hkept).2
  · refine (hchildren hr).2 fun f hf => ?_
    obtain ⟨hsublist, hunlike⟩ := horder f hf
    exact childrenOf_of_inShownOrder (hr.schema_eq ▸ hnames) (hr.schema_eq ▸ hsublist) hunlike

/-! ### The views that come with the program -/

/-- Fields that stand in the order of their weights are shown as they stand. -/
theorem shownNames_of_pairwise (h : s.fields.Pairwise fun a b => a.weight ≤ b.weight) :
    shownNames s = s.fieldNames := by
  rw [shownNames, FieldList.shownOrder, List.mergeSort_of_pairwise (by simpa using h)]
  rfl

/-- The types whose views list fields in another order than they are shown in. -/
def reordered : List String :=
  [Builtin.machineImage, Builtin.volume, Builtin.networkInterface].map (·.schema.name)

/-- Which built-in views list their fields in the order in which they are shown. -/
theorem inShownOrder_builtin :
    ∀ t ∈ Builtin.resourceTypes, t.view.InShownOrder t.schema ↔ t.schema.name ∉ reordered := by
  have hweights : ∀ t ∈ Builtin.resourceTypes,
      t.schema.fields.Pairwise fun a b => a.weight ≤ b.weight := by decide +kernel
  have horder : ∀ t ∈ Builtin.resourceTypes,
      (∀ f ∈ t.view.fieldsets, f.fields.Sublist t.schema.fieldNames
        ∧ ∀ name ∈ f.fields, isMetaKey name = false) ↔ t.schema.name ∉ reordered := by decide +kernel
  intro t ht
  rw [View.InShownOrder, shownNames_of_pairwise (hweights t ht)]
  exact horder t ht

/-- The page of a snapshot follows its listings, the page of a volume does not. -/
theorem followsListings_iff_builtin :
    FollowsListings Builtin.snapshot.schema Builtin.snapshot.view {}
      ∧ ¬ FollowsListings Builtin.volume.schema Builtin.volume.view {} := by
  have hsnapshot := followsListings_iff (s := Builtin.snapshot.schema)
    (by decide +kernel) (by decide +kernel : Builtin.snapshot.view.problems _ = []) {}
  have hvolume := followsListings_iff (s := Builtin.volume.schema)
    (by decide +kernel) (by decide +kernel : Builtin.volume.view.problems _ = []) {}
  refine ⟨hsnapshot.2.2 ((inShownOrder_builtin _ (by decide +kernel)).2 (by decide +kernel)),
    fun h => ?_⟩
  exact (inShownOrder_builtin _ (by decide +kernel)).1 (hvolume.2.1 h) (by decide +kernel)

/-- A volume with an attachment. -/
def attachedVolume : Record :=
  let r := Record.new ⟨7⟩ Builtin.volume.schema
  let slots := r.slots.insert "volume_id" (.string "vol-1")
  { r with slots := slots.insert "attachment_information" (.string "i-1") }

theorem builtOn_attachedVolume : attachedVolume.BuiltOn Builtin.volume.schema := by
  have hset : ((Record.new ⟨7⟩ Builtin.volume.schema).set "volume_id" (.string "vol-1")).bind
      (fun r => r.set "attachment_information" (.string "i-1")) = .ok attachedVolume := rfl
  obtain ⟨r, hr, hset⟩ := bind_eq_ok_iff.1 hset
  exact .set (.set (.new ⟨7⟩) (fun _ h => by cases h) hr) (fun _ h => by cases h) hset

/-- The fieldset of the volume lists the attachment before the id. Its container has the id
before the attachment. -/
theorem not_followsListings_volume :
    Builtin.volume.schema.validate = .ok ()
      ∧ Builtin.volume.view.problems Builtin.volume.schema = []
      ∧ attachedVolume.BuiltOn Builtin.volume.schema
      ∧ ∃ f ∈ Builtin.volume.view.fieldsets, ∃ t c,
        plain.compose attachedVolume Builtin.volume.view {} = .ok t
          ∧ Tree.element? t f.name = some c
          ∧ f.fields.filter attachedVolume.shows = ["attachment_information", "volume_id"]
          ∧ Tree.childKeys c = ["volume_id", "attachment_information"] := by
  have hvalid : Builtin.volume.schema.validate = .ok () := by decide +kernel
  have hview : Builtin.volume.view.problems Builtin.volume.schema = [] := by decide +kernel
  have hnames := Schema.nodup_of_validate hvalid
  have hchildren : HasChildren attachedVolume Builtin.volume.view {} (childrenOf attachedVolume) :=
    (hasChildren_iff builtOn_attachedVolume.wellFormed hnames
      (View.problems_eq_nil_iff.1 hview).names {}).2 fun _ _ => rfl
  obtain ⟨t, ht, hall⟩ := hchildren
  obtain ⟨f, hf, hlisted, hshown⟩ : ∃ f ∈ Builtin.volume.view.fieldsets,
      f.fields.filter attachedVolume.shows = ["attachment_information", "volume_id"]
        ∧ (Builtin.volume.schema.fieldNames.filter fun name =>
          decide (name ∈ f.fields) && attachedVolume.shows name && !isMetaKey name)
            = ["volume_id", "attachment_information"] := by decide +kernel
  obtain ⟨c, hc, hkeys⟩ := hall f hf
  have hweights : attachedVolume.schema.fields.Pairwise fun a b => a.weight ≤ b.weight := by
    decide +kernel
  rw [childrenOf, shownNames_of_pairwise hweights] at hkeys
  exact ⟨hvalid, hview, builtOn_attachedVolume, f, hf, t, c, ht, hc, hlisted, hkeys.trans hshown⟩

end Composer
end Inventory
