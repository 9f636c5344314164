/-
# Views without problems

`problems` of `ViewDef`.

A view has no problems with a schema exactly when it agrees with it
(`problems_eq_nil_iff`): it is for the schema's resource type, its fieldsets have
names of their own, together they list declared fields and none twice, and its
selectable columns are fields that can be filtered.

The fieldsets are surveyed one after another, and a problem that was found stays.
So the survey of a list asks the same of its first member and of the rest, for
listings (`Survey.problems_listings_eq_nil_iff`) as for fieldsets
(`Survey.problems_fieldsets_eq_nil_iff`).
-/

import Inventory.Page.View
import Inventory.Proofs.OrderedMap
import Mathlib.Data.List.Pairwise

namespace Inventory
namespace View

variable {s : Schema} {v : View}

/-- What the absence of problems says. -/
structure Agrees (v : View) (s : Schema) : Prop where
  entityType : v.entityType = s.name
  names : (v.fieldsets.map (·.name)).Nodup
  apart : ∀ f ∈ v.fieldsets, f.name ∉ s.fieldNames
  declared : ∀ f ∈ v.fieldsets, ∀ name ∈ f.fields, name ∈ s.fieldNames
  once : (v.fieldsets.flatMap (·.fields)).Nodup
  selectable : ∀ name ∈ v.selectable, ∃ f, s.field? name = some f ∧ f.isFilterable = true

namespace Survey

variable {survey : Survey} {fieldset field : String}

/-! ### Listings -/

/-- A listing is no problem when the field is declared and not listed yet. -/
theorem problems_listing_eq_nil_iff :
    (survey.listing s fieldset field).problems = [] ↔
      survey.problems = [] ∧ field ∈ s.fieldNames ∧ survey.listedBy.get? field = none := by
  unfold listing
  rw [← Schema.declares_iff]
  by_cases hdeclared : s.declares field = true
  · rw [if_pos hdeclared]
    cases survey.listedBy.get? field with
    | none => simp [hdeclared]
    | some first => simp
  · rw [if_neg hdeclared]
    simp [hdeclared]

/-- A declared field that is listed is known to be listed by this fieldset. -/
theorem listedBy_listing (h : field ∈ s.fieldNames) (name : String) :
    (survey.listing s fieldset field).listedBy.get? name
      = if name = field then some fieldset else survey.listedBy.get? name := by
  have hlisted : (survey.listing s fieldset field).listedBy
      = survey.listedBy.insert field fieldset := by
    rw [listing, if_pos (Schema.declares_iff.2 h)]
  rw [hlisted]
  by_cases hname : name = field
  · rw [if_pos hname, hname, OrderedMap.get?_insert_self]
  · rw [if_neg hname, OrderedMap.get?_insert_of_ne hname]

theorem names_listing : (survey.listing s fieldset field).names = survey.names := by
  unfold listing
  split <;> rfl

theorem names_listings (fields : List String) :
    (fields.foldl (listing s fieldset) survey).names = survey.names := by
  induction fields generalizing survey with
  | nil => rfl
  | cons field rest ih => rw [List.foldl_cons, ih, names_listing]

/-- **Listings without problems** name declared fields that no fieldset listed before. -/
theorem problems_listings_eq_nil_iff (fields : List String) :
    (fields.foldl (listing s fieldset) survey).problems = [] ↔
      survey.problems = [] ∧ (∀ name ∈ fields, name ∈ s.fieldNames) ∧ fields.Nodup
        ∧ ∀ name ∈ fields, survey.listedBy.get? name = none := by
  induction fields generalizing survey with
  | nil => simp
  | cons field rest ih =>
    rw [List.foldl_cons, ih, problems_listing_eq_nil_iff]
    by_cases hfield : field ∈ s.fieldNames
    · have hrest : (∀ name ∈ rest, (survey.listing s fieldset field).listedBy.get? name = none)
          ↔ field ∉ rest ∧ ∀ name ∈ rest, survey.listedBy.get? name = none := by
        simp only [listedBy_listing hfield]
        constructor
        · intro h
          refine ⟨fun hmem => by simpa using h field hmem, fun name hname => ?_⟩
          have hnone := h name hname
          split at hnone
          · cases hnone
          · exact hnone
        · rintro ⟨hnot, h⟩ name hname
          have hne : name ≠ field := fun heq => hnot (heq ▸ hname)
          rw [if_neg hne, h name hname]
      rw [hrest]
      simp only [List.forall_mem_cons, List.nodup_cons, hfield, true_and]
      tauto
    · simp [hfield]

/-- What is listed after listings without problems. -/
theorem listedBy_listings {fields : List String} (h : ∀ name ∈ fields, name ∈ s.fieldNames)
    (name : String) :
    (fields.foldl (listing s fieldset) survey).listedBy.get? name = none ↔
      name ∉ fields ∧ survey.listedBy.get? name = none := by
  induction fields generalizing survey with
  | nil => simp
  | cons field rest ih =>
    obtain ⟨hfield, hrest⟩ := List.forall_mem_cons.1 h
    rw [List.foldl_cons, ih hrest, listedBy_listing hfield, List.mem_cons, not_or]
    by_cases hname : name = field
    · simp [hname]
    · simp [hname]

/-! ### Fieldsets -/

/-- A fieldset is no problem when its name is new and unlike a field's, and so is no listing of
it. -/
theorem problems_fieldset_eq_nil_iff {f : Fieldset} :
    (survey.fieldset s f).problems = [] ↔
      survey.problems = [] ∧ f.name ∉ survey.names ∧ f.name ∉ s.fieldNames
        ∧ (∀ name ∈ f.fields, name ∈ s.fieldNames) ∧ f.fields.Nodup
        ∧ ∀ name ∈ f.fields, survey.listedBy.get? name = none := by
  unfold Survey.fieldset
  rw [problems_listings_eq_nil_iff, ← Schema.declares_iff]
  by_cases hname : f.name ∈ survey.names
  · simp [hname]
  · by_cases hfield : s.declares f.name = true
    · simp [hfield]
    · simp [hname, hfield]

/-- A fieldset adds its name. -/
theorem names_fieldset (f : Fieldset) : (survey.fieldset s f).names = f.name :: survey.names :=
  names_listings f.fields

/-- **Fieldsets without problems** have names of their own and list declared fields,
none of them twice. -/
theorem problems_fieldsets_eq_nil_iff (fieldsets : List Fieldset) :
    (fieldsets.foldl (Survey.fieldset s) survey).problems = [] ↔
      survey.problems = []
        ∧ ((fieldsets.map (·.name)).Nodup ∧ ∀ f ∈ fieldsets, f.name ∉ survey.names)
        ∧ (∀ f ∈ fieldsets, f.name ∉ s.fieldNames)
        ∧ (∀ f ∈ fieldsets, ∀ name ∈ f.fields, name ∈ s.fieldNames)
        ∧ (fieldsets.flatMap (·.fields)).Nodup
        ∧ ∀ name ∈ fieldsets.flatMap (·.fields), survey.listedBy.get? name = none := by
  induction fieldsets generalizing survey with
  | nil => simp
  | cons f rest ih =>
    rw [List.foldl_cons, ih, problems_fieldset_eq_nil_iff, names_fieldset]
    by_cases hdeclared : ∀ name ∈ f.fields, name ∈ s.fieldNames
    · have hlisted (name : String) : (survey.fieldset s f).listedBy.get? name = none ↔
          name ∉ f.fields ∧ survey.listedBy.get? name = none := listedBy_listings hdeclared name
      simp only [hlisted, List.flatMap_cons, List.nodup_append', List.disjoint_right, List.map_cons,
        List.nodup_cons, List.forall_mem_append, List.mem_cons, forall_eq_or_imp, not_or,
        List.mem_map, not_exists, not_and, forall₂_and]
      tauto
    · simp [hdeclared]

end Survey

/-- No two fieldsets of a view that agrees with a schema claim one field. -/
theorem Agrees.eq_of_mem_fields (h : v.Agrees s) {f g : Fieldset} (hf : f ∈ v.fieldsets)
    (hg : g ∈ v.fieldsets) {name : String} (hnf : name ∈ f.fields) (hng : name ∈ g.fields) :
    f = g := by
  by_contra hne
  have hpairs := (List.nodup_flatMap.1 h.once).2
  have hsymm : Std.Symm (Function.onFun List.Disjoint fun f : Fieldset => f.fields) :=
    ⟨fun _ _ hdisjoint => List.disjoint_comm.1 hdisjoint⟩
  exact hpairs.forall hf hg hne hnf hng

/-- **A view has no problems exactly when it agrees** with the schema. -/
theorem problems_eq_nil_iff : v.problems s = [] ↔ v.Agrees s := by
  have hmismatch : (if v.entityType = s.name then [] else
      [ViewProblem.entityTypeMismatch s.name v.entityType]) = [] ↔ v.entityType = s.name := by
    split <;> simp_all
  have hselectable : v.selectable.filterMap (selectableProblem? s) = [] ↔
      ∀ name ∈ v.selectable, ∃ f, s.field? name = some f ∧ f.isFilterable = true := by
    rw [List.filterMap_eq_nil_iff]
    refine forall₂_congr fun name _ => ?_
    unfold selectableProblem?
    cases s.field? name with
    | none => simp
    | some f => cases f.isFilterable <;> simp
  unfold problems
  rw [List.append_eq_nil_iff, List.append_eq_nil_iff, hmismatch, hselectable,
    Survey.problems_fieldsets_eq_nil_iff]
  constructor
  · rintro ⟨⟨htype, -, ⟨hnames, -⟩, hapart, hdeclared, honce, -⟩, hselect⟩
    exact ⟨htype, hnames, hapart, hdeclared, honce, hselect⟩
  · intro h
    exact ⟨⟨h.entityType, rfl, ⟨h.names, by simp⟩, h.apart, h.declared, h.once, by simp⟩,
      h.selectable⟩

end View
end Inventory
