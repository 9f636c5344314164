/-
# Fields that no fieldset lists

The keys that `compose` retains.

What is asked of a page is met on a guarded schema only (`confined_iff`). A field
that is named like a property and not guarded stays on the page whatever the view
claims: a new record and the record that has a value there besides agree on what
may be shown, and only the page of the second one renders the field.
-/

import Inventory.Proofs.Page.Visible

namespace Inventory
namespace Composer

variable {s : Schema} {v : View} {context : RenderContext}

/-- A value of a type that is not empty. -/
def sample : FieldType → FieldValue
  | .primitive .string => .string ""
  | .primitive .boolean => .boolean true
  | .primitive .integer => .integer 0
  | .primitive .timestamp => .timestamp .epoch
  | .composite _ => .items [.empty]

/-- A new record on which one field has a value. -/
def sampleRecord (s : Schema) (f : Field) : Record :=
  let r := Record.new ⟨0⟩ s
  { r with slots := r.slots.insert f.name (sample f.type) }

theorem conformsTo_sample (t : FieldType) : (sample t).conformsTo t = true := by
  rcases t with t | properties
  · cases t <;> rfl
  · rfl

theorem isEmpty_sample (t : FieldType) : (sample t).isEmpty = false := by
  rcases t with t | properties
  · cases t <;> rfl
  · rfl

theorem distinct_sample (t : FieldType) : (sample t).Distinct := by
  intro rows hrows row hrow
  rcases t with t | properties
  · cases t <;> cases hrows
  · obtain rfl := FieldValue.items.inj hrows
    rw [List.mem_singleton.1 hrow]
    exact List.nodup_nil

theorem builtOn_sampleRecord {f : Field} (hf : s.field? f.name = some f) :
    (sampleRecord s f).BuiltOn s :=
  .set (.new ⟨0⟩) (distinct_sample f.type)
    (Record.set_eq_ok_iff.2 ⟨f, hf, conformsTo_sample f.type, rfl⟩)

theorem wellFormed_sampleRecord {f : Field} (hf : s.field? f.name = some f) :
    (sampleRecord s f).WellFormed :=
  (builtOn_sampleRecord hf).wellFormed

/-- The field of the sample has something to show. -/
theorem get?_shown_sampleRecord (hnames : s.fieldNames.Nodup) {f : Field} (hf : f ∈ s.fields) :
    (FieldList.shown (sampleRecord s f)).get? f.name
      = some (.element (FieldList.fieldElement f (sample f.type))) := by
  have hslot : (sampleRecord s f).slots.get? f.name = some (sample f.type) :=
    OrderedMap.get?_insert_self _ _ _
  refine (FieldList.get?_shown_eq_some_iff hnames).2 ⟨f, hf, rfl, ?_⟩
  simp [FieldList.shownNode?, hslot, isEmpty_sample]

/-- The field of the sample stays on the page when it is named like a property
and no fieldset is named like it. -/
theorem get?_page_sampleRecord (hnames : s.fieldNames.Nodup) {f : Field} (hf : f ∈ s.fields)
    (hmeta : isMetaKey f.name = true) (hcontainer : f.name ∉ v.fieldsets.map (·.name)) :
    (page (sampleRecord s f) v context).get? f.name
      = some (.element (FieldList.fieldElement f (sample f.type))) := by
  have hkeeps : keeps v (sampleRecord s f) f.name = true := by simp [keeps, hmeta]
  rw [get?_page hnames, if_pos hkeeps,
    (get?_containers_eq_none_iff (sampleRecord s f) context).2 hcontainer,
    get?_shown_sampleRecord hnames hf]
  rfl

/-- A new record has no element to show but containers. -/
theorem get?_page_new (hnames : s.fieldNames.Nodup) {key : String}
    (hcontainer : key ∉ v.fieldsets.map (·.name)) {c : Tree} :
    (page (Record.new ⟨0⟩ s) v context).get? key ≠ some (.element c) := by
  intro h
  rw [get?_page hnames] at h
  split at h
  · rw [(get?_containers_eq_none_iff (Record.new ⟨0⟩ s) context).2 hcontainer, Option.none_or,
      Option.or_eq_some_iff] at h
    rcases h with hshown | ⟨-, hheader⟩
    · obtain ⟨f, -, -, value, hslot, hempty, -⟩ := FieldList.get?_shown_element hnames hshown
      rw [(Record.get?_new_eq_some hslot).1] at hempty
      cases hempty
    · obtain ⟨d, -, hd⟩ := Tree.get?_ofProperties hheader
      cases hd
  · cases h

/-- The sample agrees with a new record on every other field. -/
theorem agreeOn_sampleRecord {f : Field} {names : List String} (h : f.name ∉ names) :
    (sampleRecord s f).AgreeOn names (Record.new ⟨0⟩ s) where
  id := rfl
  schema := rfl
  values name hname := by
    have hne : name ≠ f.name := fun e => h (e ▸ hname)
    have hslot : (sampleRecord s f).slots.get? name = (Record.new ⟨0⟩ s).slots.get? name :=
      OrderedMap.get?_insert_of_ne hne _ _
    rw [hslot]
    cases hget : (Record.new ⟨0⟩ s).slots.get? name with
    | none => exact .none
    | some value =>
      rw [(Record.get?_new_eq_some hget).1]
      exact .some rfl

/-- A field that is named like a property and not guarded. -/
theorem exists_unguarded (hnames : s.fieldNames.Nodup) (h : ¬ View.Guarded s v) :
    ∃ f ∈ s.fields, s.field? f.name = some f ∧ isMetaKey f.name = true ∧ f.name ∉ v.visible s
      ∧ f.name ∉ v.fieldsets.map (·.name) := by
  simp only [View.Guarded, not_forall, not_or] at h
  obtain ⟨f, hf, hmeta, hvisible, hcontainer⟩ := h
  exact ⟨f, hf, Schema.field?_of_mem hnames hf, hmeta, hvisible, hcontainer⟩

/-- Equal pages of agreeing records need a guarded schema. -/
theorem guarded_of_showsSame (hnames : s.fieldNames.Nodup) (hsame : ShowsSame s v context) :
    View.Guarded s v := by
  by_contra hguarded
  obtain ⟨f, hf, hfield, hmeta, hvisible, hcontainer⟩ := exists_unguarded hnames hguarded
  -- A record with a value for the field and a new one agree on all that the view shows, and
  -- their pages differ.
  have hr := wellFormed_sampleRecord hfield
  have hr' := Record.wellFormed_new ⟨0⟩ s
  obtain ⟨t, t', ht, ht', hequal⟩ := hsame _ _ hr hr' rfl (agreeOn_sampleRecord hvisible)
  rw [compose_plain hr] at ht
  rw [compose_plain hr'] at ht'
  obtain rfl := Except.ok.inj ht
  obtain rfl := Except.ok.inj ht'
  have hlookup := (OrderedMap.beq_iff_get? (nodup_keys_page _ v context)
    (nodup_keys_page _ v context)).1 hequal f.name
  rw [get?_page_sampleRecord hnames hf hmeta hcontainer] at hlookup
  cases hget : (page (Record.new ⟨0⟩ s) v context).get? f.name with
  | none =>
    rw [hget] at hlookup
    cases hlookup
  | some node =>
    cases node with
    | property d =>
      rw [hget] at hlookup
      cases hlookup with
      | some h => cases h
    | element c => exact get?_page_new hnames hcontainer hget

/-- Pages without other renderings need a guarded schema. -/
theorem guarded_of_showsOnly (hnames : s.fieldNames.Nodup) (honly : ShowsOnly s v context) :
    View.Guarded s v := by
  by_contra hguarded
  obtain ⟨f, hf, hfield, hmeta, hvisible, hcontainer⟩ := exists_unguarded hnames hguarded
  have hr := wellFormed_sampleRecord hfield
  obtain ⟨t, ht, hfree⟩ := honly _ hr rfl
  rw [compose_plain hr] at ht
  obtain rfl := Except.ok.inj ht
  have hget : (page (sampleRecord s f) v context).get? f.name = some _ :=
    get?_page_sampleRecord hnames hf hmeta hcontainer
  exact hfree _ (.child (OrderedMap.mem_entries_of_get? hget) .self) f hf hvisible rfl

/-- **What a page shows.** A page shows nothing of the fields that it may not show
exactly when every field that is named like a property is guarded: only then are
the pages of records that agree on the other fields equal, and only then is no
element of a page the rendering of such a field. -/
theorem confined_iff (hvalid : s.validate = .ok ()) (v : View) (context : RenderContext) :
    (ShowsSame s v context ↔ View.Guarded s v) ∧ (ShowsOnly s v context ↔ View.Guarded s v) := by
  have hnames := Schema.nodup_of_validate hvalid
  exact ⟨⟨guarded_of_showsSame hnames, showsSame_of_guarded hnames⟩,
    ⟨guarded_of_showsOnly hnames, showsOnly_of_guarded hnames⟩⟩

/-- Machines with a field that is named like a property. -/
def taggedSchema : Schema where
  name := "vm"
  label := "VM"
  labelField := "name"
  fields := [.string "name" "Name", .string "#secret" "Secret"]

/-- A view that claims the name only. -/
def taggedView : View where
  entityType := "vm"
  fieldsets := [{ name := "main", title := "Main", fields := ["name"] }]

/-- On a schema with a field named like a property, both conditions come down to the guard. -/
theorem confined_iff_tagged :
    taggedSchema.validate = .ok () ∧
      (ShowsSame taggedSchema taggedView {} ↔ View.Guarded taggedSchema taggedView) ∧
        (ShowsOnly taggedSchema taggedView {} ↔ View.Guarded taggedSchema taggedView) :=
  ⟨rfl, confined_iff rfl taggedView {}⟩

/-- The field that is named like a property stays on the page. -/
theorem not_confined_tagged :
    taggedSchema.validate = .ok () ∧ ¬ ShowsSame taggedSchema taggedView {}
      ∧ ¬ ShowsOnly taggedSchema taggedView {} := by
  have hnames : taggedSchema.fieldNames.Nodup := by decide
  have hguarded : ¬ View.Guarded taggedSchema taggedView := by decide +kernel
  exact ⟨rfl, fun h => hguarded (guarded_of_showsSame hnames h),
    fun h => hguarded (guarded_of_showsOnly hnames h)⟩

end Composer
end Inventory
