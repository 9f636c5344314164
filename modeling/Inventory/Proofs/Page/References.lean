/-
# Views with offending references

The names in a view that `check` lets through in lenient mode.

A fieldset offends with a field that it lists though it is not declared, or though it
is listed already; a selectable column offends when it is no field that can be
filtered. Such references can be left out (`View.repaired`).

| problem | |
| --- | --- |
| `danglingField`, `duplicateField` | a reference of a fieldset |
| `unknownSelectable`, `unfilterableSelectable` | a reference of a selectable column |
| `nameCollision`, `duplicateFieldset`, `entityTypeMismatch` | not a reference |

A view whose problems are references agrees with its schema once it is repaired
(`View.agrees_repaired`). Its fieldsets then list what they listed before, if none of
them lists a declared field that another one listed (`View.forall₂_repairFieldsets`).
-/

import Inventory.Proofs.Page.Agreement

namespace Inventory

/-- Whether a problem is an offending reference. -/
def ViewProblem.isReference : ViewProblem → Bool
  | .danglingField .. => true
  | .duplicateField .. => true
  | .unknownSelectable .. => true
  | .unfilterableSelectable .. => true
  | .nameCollision .. => false
  | .duplicateFieldset .. => false
  | .entityTypeMismatch .. => false

namespace View

variable {s : Schema} {v : View}

/-- All problems are offending references. -/
def OnlyReferences (problems : List ViewProblem) : Prop :=
  ∀ p ∈ problems, p.isReference = true

instance (problems : List ViewProblem) : Decidable (OnlyReferences problems) :=
  inferInstanceAs (Decidable (∀ p ∈ problems, p.isReference = true))

/-- Problems are references when both parts are. -/
theorem onlyReferences_append {ps qs : List ViewProblem} :
    OnlyReferences (ps ++ qs) ↔ OnlyReferences ps ∧ OnlyReferences qs :=
  List.forall_mem_append

namespace Survey

variable {survey : Survey} {fieldset field : String}

/-- A listing has no problem but an offending reference. -/
theorem onlyReferences_listing :
    OnlyReferences (survey.listing s fieldset field).problems ↔ OnlyReferences survey.problems := by
  have hone (p : ViewProblem) (hp : p.isReference = true) :
      OnlyReferences (survey.problems ++ [p]) ↔ OnlyReferences survey.problems := by
    rw [onlyReferences_append]
    exact and_iff_left fun q hq => List.mem_singleton.1 hq ▸ hp
  unfold listing
  split
  · cases survey.listedBy.get? field with
    | none => rfl
    | some first => exact hone _ rfl
  · exact hone _ rfl

/-- A listing is a problem with a reference, if any. -/
theorem onlyReferences_listings (fields : List String) :
    OnlyReferences (fields.foldl (listing s fieldset) survey).problems
      ↔ OnlyReferences survey.problems := by
  induction fields generalizing survey with
  | nil => rfl
  | cons field rest ih => rw [List.foldl_cons, ih, onlyReferences_listing]

/-- A fieldset has problems with references only when its name is new and unlike a field's. -/
theorem onlyReferences_fieldset {f : Fieldset} :
    OnlyReferences (survey.fieldset s f).problems ↔
      OnlyReferences survey.problems ∧ f.name ∉ survey.names ∧ f.name ∉ s.fieldNames := by
  unfold Survey.fieldset
  rw [onlyReferences_listings, ← Schema.declares_iff, onlyReferences_append,
    onlyReferences_append, and_assoc]
  refine and_congr_right fun _ => and_congr ?_ ?_
  · by_cases hname : f.name ∈ survey.names <;> simp [OnlyReferences, ViewProblem.isReference, hname]
  · by_cases hfield : s.declares f.name = true <;>
      simp [OnlyReferences, ViewProblem.isReference, hfield]

/-- **Fieldsets whose problems are references** have names of their own. -/
theorem onlyReferences_fieldsets (fieldsets : List Fieldset) :
    OnlyReferences (fieldsets.foldl (Survey.fieldset s) survey).problems ↔
      OnlyReferences survey.problems
        ∧ ((fieldsets.map (·.name)).Nodup ∧ ∀ f ∈ fieldsets, f.name ∉ survey.names)
        ∧ ∀ f ∈ fieldsets, f.name ∉ s.fieldNames := by
  induction fieldsets generalizing survey with
  | nil => simp
  | cons f rest ih =>
    rw [List.foldl_cons, ih, onlyReferences_fieldset, names_fieldset]
    simp only [List.map_cons, List.nodup_cons, List.mem_cons, forall_eq_or_imp, not_or,
      List.mem_map, not_exists, not_and, forall₂_and]
    tauto

end Survey

/-- **Problems that are references** leave a view for the schema's resource type, with
fieldsets that have names of their own. -/
theorem onlyReferences_problems_iff :
    OnlyReferences (v.problems s) ↔
      v.entityType = s.name ∧ (v.fieldsets.map (·.name)).Nodup
        ∧ ∀ f ∈ v.fieldsets, f.name ∉ s.fieldNames := by
  have hmismatch : OnlyReferences (if v.entityType = s.name then [] else
      [ViewProblem.entityTypeMismatch s.name v.entityType]) ↔ v.entityType = s.name := by
    split <;> simp_all [OnlyReferences, ViewProblem.isReference]
  have hselectable : OnlyReferences (v.selectable.filterMap (selectableProblem? s)) := by
    intro p hp
    obtain ⟨name, -, hname⟩ := List.mem_filterMap.1 hp
    unfold selectableProblem? at hname
    split at hname
    · obtain rfl := Option.some.inj hname
      rfl
    · split at hname
      · cases hname
      · obtain rfl := Option.some.inj hname
        rfl
  unfold problems
  rw [onlyReferences_append, onlyReferences_append, hmismatch, Survey.onlyReferences_fieldsets]
  constructor
  · rintro ⟨⟨htype, -, ⟨hnames, -⟩, hapart⟩, -⟩
    exact ⟨htype, hnames, hapart⟩
  · rintro ⟨htype, hnames, hapart⟩
    exact ⟨⟨htype, by simp [OnlyReferences], ⟨hnames, by simp⟩, hapart⟩, hselectable⟩

/-! ### The repaired view -/

/-- The listings that do not offend: of declared fields that were not seen, each once. -/
def kept (s : Schema) (seen fields : List String) : List String :=
  (fields.filter fun name => decide (name ∈ s.fieldNames ∧ name ∉ seen)).eraseDups

/-- The fieldsets without the listings that offend, after some that were seen. -/
def repairFieldsets (s : Schema) (seen : List String) : List Fieldset → List Fieldset
  | [] => []
  | f :: rest =>
    { f with fields := kept s seen f.fields } :: repairFieldsets s (seen ++ f.fields) rest

/-- The view without the references that offend. -/
def repaired (v : View) (s : Schema) : View :=
  { v with
    fieldsets := repairFieldsets s [] v.fieldsets
    selectable := v.selectable.filter fun name => (selectableProblem? s name).isNone }

/-- A reference is kept when it is declared and was not seen before. -/
theorem mem_kept_iff {seen fields : List String} {name : String} :
    name ∈ kept s seen fields ↔ name ∈ fields ∧ name ∈ s.fieldNames ∧ name ∉ seen := by
  rw [kept, List.mem_eraseDups, List.mem_filter, decide_eq_true_eq]

/-- Repairing renames no fieldset. -/
theorem map_name_repairFieldsets (seen : List String) (fieldsets : List Fieldset) :
    (repairFieldsets s seen fieldsets).map (·.name) = fieldsets.map (·.name) := by
  induction fieldsets generalizing seen with
  | nil => rfl
  | cons f rest ih => rw [repairFieldsets, List.map_cons, ih, List.map_cons]

/-- Repairing changes what a fieldset lists, and nothing else of it. -/
theorem getElem?_repairFieldsets (seen : List String) (fieldsets : List Fieldset) (i : Nat) :
    (repairFieldsets s seen fieldsets)[i]? = fieldsets[i]?.map fun f =>
      { f with fields := kept s (seen ++ (fieldsets.take i).flatMap (·.fields)) f.fields } := by
  induction fieldsets generalizing seen i with
  | nil => rfl
  | cons f rest ih =>
    cases i with
    | zero => simp [repairFieldsets]
    | succ i =>
      rw [repairFieldsets, List.getElem?_cons_succ, List.getElem?_cons_succ, ih,
        List.take_succ_cons, List.flatMap_cons, List.append_assoc]

/-- Fields that are still listed are declared and were not seen before. -/
theorem mem_fields_repairFieldsets {seen : List String} {fieldsets : List Fieldset} {name : String}
    (h : name ∈ (repairFieldsets s seen fieldsets).flatMap (·.fields)) :
    name ∈ s.fieldNames ∧ name ∉ seen := by
  induction fieldsets generalizing seen with
  | nil => cases h
  | cons f rest ih =>
    rw [repairFieldsets, List.flatMap_cons, List.mem_append] at h
    rcases h with hfirst | hrest
    · exact (mem_kept_iff.1 hfirst).2
    · obtain ⟨hdeclared, hseen⟩ := ih hrest
      exact ⟨hdeclared, fun hname => hseen (List.mem_append_left _ hname)⟩

/-- Of the listings of one field the first stays. -/
theorem nodup_fields_repairFieldsets (seen : List String) (fieldsets : List Fieldset) :
    ((repairFieldsets s seen fieldsets).flatMap (·.fields)).Nodup := by
  induction fieldsets generalizing seen with
  | nil => exact List.nodup_nil
  | cons f rest ih =>
    rw [repairFieldsets, List.flatMap_cons, List.nodup_append']
    refine ⟨OrderedMap.nodup_eraseDups _, ih _, fun name hfirst hrest => ?_⟩
    exact (mem_fields_repairFieldsets hrest).2 (List.mem_append_right _ (mem_kept_iff.1 hfirst).1)

/-- Columns that can be filtered stay selectable. -/
theorem mem_selectable_repaired_iff {name : String} :
    name ∈ (v.repaired s).selectable ↔
      name ∈ v.selectable ∧ ∃ f, s.field? name = some f ∧ f.isFilterable = true := by
  rw [repaired, List.mem_filter]
  refine and_congr_right fun _ => ?_
  unfold selectableProblem?
  cases s.field? name with
  | none => simp
  | some f => cases f.isFilterable <;> simp

/-- **A view whose problems are references** agrees with its schema once it is repaired. -/
theorem agrees_repaired (h : OnlyReferences (v.problems s)) : (v.repaired s).Agrees s := by
  obtain ⟨htype, hnames, hapart⟩ := onlyReferences_problems_iff.1 h
  have hsame : (v.repaired s).fieldsets.map (·.name) = v.fieldsets.map (·.name) :=
    map_name_repairFieldsets [] v.fieldsets
  refine ⟨htype, hsame ▸ hnames, fun f hf => ?_, fun f hf name hname => ?_,
    nodup_fields_repairFieldsets [] v.fieldsets, fun name hname => ?_⟩
  · have hname : f.name ∈ v.fieldsets.map (·.name) := hsame ▸ List.mem_map_of_mem hf
    obtain ⟨g, hg, hfg⟩ := List.mem_map.1 hname
    exact hfg ▸ hapart g hg
  · exact (mem_fields_repairFieldsets (List.mem_flatMap.2 ⟨f, hf, hname⟩)).1
  · exact (mem_selectable_repaired_iff.1 hname).2

/-! ### Fields that two fieldsets list -/

/-- No declared field that passes a test is listed by two fieldsets. -/
def ListsOnce (s : Schema) (test : String → Bool) (fieldsets : List Fieldset) : Prop :=
  fieldsets.Pairwise fun f g =>
    ∀ name ∈ f.fields, name ∈ s.fieldNames → test name = true → name ∉ g.fields

instance (s : Schema) (test : String → Bool) (fieldsets : List Fieldset) :
    Decidable (ListsOnce s test fieldsets) :=
  inferInstanceAs (Decidable (fieldsets.Pairwise fun f g =>
    ∀ name ∈ f.fields, name ∈ s.fieldNames → test name = true → name ∉ g.fields))

/-- The fieldset with other listings, which are the same for declared fields that pass
a test. -/
structure Relisted (s : Schema) (test : String → Bool) (f g : Fieldset) : Prop where
  eq : g = { f with fields := g.fields }
  fields : ∀ name ∈ s.fieldNames, test name = true → (name ∈ g.fields ↔ name ∈ f.fields)

variable {test : String → Bool}

/-- **Fieldsets that list no field twice** among them keep their listings. -/
theorem forall₂_repairFieldsets {seen : List String} {fieldsets : List Fieldset}
    (honce : ListsOnce s test fieldsets)
    (hseen : ∀ f ∈ fieldsets, ∀ name ∈ seen, name ∈ s.fieldNames → test name = true →
      name ∉ f.fields) :
    List.Forall₂ (Relisted s test) fieldsets (repairFieldsets s seen fieldsets) := by
  induction fieldsets generalizing seen with
  | nil => exact .nil
  | cons f rest ih =>
    obtain ⟨hfirst, hrest⟩ := List.pairwise_cons.1 honce
    refine .cons ⟨rfl, fun name hname htest => ?_⟩ (ih hrest fun g hg name hlisted => ?_)
    · rw [mem_kept_iff]
      exact ⟨And.left, fun hlisted => ⟨hlisted, hname, fun hmem =>
        hseen f List.mem_cons_self name hmem hname htest hlisted⟩⟩
    · rcases List.mem_append.1 hlisted with hbefore | hhere
      · exact hseen g (List.mem_cons_of_mem _ hg) name hbefore
      · exact hfirst g hg name hhere

/-- A field that an earlier fieldset lists is left out of a later one. -/
theorem exists_left_out (h : ¬ ListsOnce s test v.fieldsets) :
    ∃ (i : Nat) (f g : Fieldset) (name : String),
      v.fieldsets[i]? = some f ∧ (v.repaired s).fieldsets[i]? = some g
      ∧ g.name = f.name ∧ name ∈ s.fieldNames ∧ test name = true
      ∧ name ∈ f.fields ∧ name ∉ g.fields := by
  rw [ListsOnce, List.pairwise_iff_getElem] at h
  push Not at h
  obtain ⟨i, j, hi, hj, hij, name, hbefore, hdeclared, htest, hlisted⟩ := h
  have hrepaired := getElem?_repairFieldsets (s := s) [] v.fieldsets j
  rw [List.getElem?_eq_getElem hj, Option.map_some] at hrepaired
  refine ⟨j, v.fieldsets[j], _, name, List.getElem?_eq_getElem hj, hrepaired, rfl, hdeclared, htest,
    hlisted, fun hkept => (mem_kept_iff.1 hkept).2.2 ?_⟩
  exact List.mem_flatMap.2 ⟨v.fieldsets[i], List.mem_take_iff_getElem.2 ⟨i, by omega, rfl⟩, hbefore⟩

end View
end Inventory
