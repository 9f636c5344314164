/-
# What the problems of a view say

`problems`, `check` and `check_all`.

A problem is reported exactly when it is true of the view (`View.mem_problems_iff`):

| problem | says that |
| --- | --- |
| `entityTypeMismatch` | the view is for another resource type |
| `duplicateFieldset` | a fieldset has the name of an earlier one |
| `nameCollision` | a fieldset is named like a declared field |
| `danglingField` | a fieldset lists a field that is not declared |
| `duplicateField` | a declared field is listed by `second`, and before that last by `first` |
| `unknownSelectable` | a selectable column is not declared |
| `unfilterableSelectable` | a selectable column holds items |

A survey *knows* the names and listings before a place when it has exactly the problems
that are true of them (`Survey.Knows`); one listing more keeps this, and so does one
fieldset. A strict check refuses a view with all its problems, a lenient one none, and the
check of a folder refuses it at its first view that has no schema or is refused by its own
check (`ViewFolder.checkEach_eq_error_iff`).
-/

import Inventory.Page.ViewFolder
import Inventory.Proofs.Except
import Inventory.Proofs.Page.Agreement

namespace Inventory

/-- The listings of a fieldset: each field that it lists, with its name. -/
def Fieldset.listings (f : Fieldset) : List (String × String) := f.fields.map (f.name, ·)

/-- The listings of all fieldsets, in order. -/
def View.listings (v : View) : List (String × String) := v.fieldsets.flatMap Fieldset.listings

/-! ### Places in a list -/

/-- A name stands somewhere behind itself. -/
def NamedAgain (names : List String) (name : String) : Prop :=
  ∃ before after, names = before ++ name :: after ∧ name ∈ before

/-- The last listing of a field is by a fieldset of that name. -/
def LastListed (listings : List (String × String)) (field fieldset : String) : Prop :=
  ∃ before after, listings = before ++ (fieldset, field) :: after ∧ field ∉ after.map Prod.snd

/-- A field is listed at two places, by `first` at the earlier and by `second` at the later
one, and not in between. -/
def ListedAgain (listings : List (String × String)) (field first second : String) : Prop :=
  ∃ before between after,
    listings = before ++ (first, field) :: (between ++ (second, field) :: after)
      ∧ field ∉ between.map Prod.snd

/-- A place in a list is one before its last element, or that of its last element. -/
theorem exists_place_concat {α : Type} {P : List α → Prop} {l : List α} {a x : α} :
    (∃ before after, l ++ [a] = before ++ x :: after ∧ P before)
      ↔ (∃ before after, l = before ++ x :: after ∧ P before) ∨ x = a ∧ P l := by
  constructor
  · rintro ⟨before, after, hl, hbefore⟩
    rcases List.eq_nil_or_concat after with rfl | ⟨rest, b, rfl⟩
    · obtain ⟨rfl, hlast⟩ := List.append_inj' hl rfl
      exact .inr ⟨(List.cons.inj hlast).1.symm, hbefore⟩
    · have hsplit : l ++ [a] = (before ++ x :: rest) ++ [b] := by simpa using hl
      obtain ⟨rfl, -⟩ := List.append_inj' hsplit rfl
      exact .inl ⟨before, rest, rfl, hbefore⟩
  · rintro (⟨before, after, rfl, hbefore⟩ | ⟨rfl, hl⟩)
    · exact ⟨before, after ++ [a], by simp, hbefore⟩
    · exact ⟨l, [], rfl, hl⟩

/-- A further fieldset is named again when its name was there. -/
theorem namedAgain_concat {names : List String} {name name' : String} :
    NamedAgain (names ++ [name]) name' ↔ NamedAgain names name' ∨ name' = name ∧ name ∈ names := by
  unfold NamedAgain
  rw [exists_place_concat]
  refine or_congr_right (and_congr_right fun hname => ?_)
  rw [hname]

section Listings

variable {listings : List (String × String)} {field fieldset field' first second : String}

/-- A further listing is the last one of its field. -/
theorem lastListed_concat :
    LastListed (listings ++ [(fieldset, field)]) field' first
      ↔ if field' = field then first = fieldset else LastListed listings field' first := by
  constructor
  · rintro ⟨before, after, hl, hafter⟩
    rcases List.eq_nil_or_concat after with rfl | ⟨rest, last, rfl⟩
    · obtain ⟨-, hlast⟩ := List.append_inj' hl rfl
      obtain ⟨rfl, rfl⟩ := Prod.mk.inj (List.cons.inj hlast).1
      rw [if_pos rfl]
    · have hsplit : listings ++ [(fieldset, field)]
          = (before ++ (first, field') :: rest) ++ [last] := by simpa using hl
      obtain ⟨rfl, hlast⟩ := List.append_inj' hsplit rfl
      obtain rfl := (List.cons.inj hlast).1
      simp only [List.concat_eq_append, List.map_append, List.map_cons, List.map_nil,
        List.mem_append, List.mem_singleton, not_or] at hafter
      rw [if_neg hafter.2]
      exact ⟨before, rest, rfl, hafter.1⟩
  · intro h
    split at h
    · rename_i hfield
      exact ⟨listings, [], by rw [hfield, h], by simp⟩
    · rename_i hfield
      obtain ⟨before, after, rfl, hafter⟩ := h
      refine ⟨before, after ++ [(fieldset, field)], by simp, ?_⟩
      rw [List.map_append, List.mem_append, not_or]
      exact ⟨hafter, by simpa using hfield⟩

/-- A field is listed again behind a listing that was the last one of it. -/
theorem listedAgain_iff :
    ListedAgain listings field first second
      ↔ ∃ before after, listings = before ++ (second, field) :: after
        ∧ LastListed before field first := by
  constructor
  · rintro ⟨before, between, after, rfl, hbetween⟩
    exact ⟨before ++ (first, field) :: between, after, by simp, before, between, rfl, hbetween⟩
  · rintro ⟨-, after, rfl, before, between, rfl, hbetween⟩
    exact ⟨before, between, after, by simp, hbetween⟩

/-- A further listing lists again when its field was listed. -/
theorem listedAgain_concat :
    ListedAgain (listings ++ [(fieldset, field)]) field' first second
      ↔ ListedAgain listings field' first second
        ∨ second = fieldset ∧ field' = field ∧ LastListed listings field' first := by
  rw [listedAgain_iff, listedAgain_iff, exists_place_concat, Prod.mk.injEq, and_assoc]

end Listings

/-! ### What is true of fieldsets -/

/-- What a problem says of the names of fieldsets and their listings. -/
def ViewProblem.Among (s : Schema) (names : List String) (listings : List (String × String)) :
    ViewProblem → Prop
  | .danglingField fieldset field => (fieldset, field) ∈ listings ∧ field ∉ s.fieldNames
  | .duplicateField field first second =>
    field ∈ s.fieldNames ∧ ListedAgain listings field first second
  | .nameCollision fieldset => fieldset ∈ names ∧ fieldset ∈ s.fieldNames
  | .duplicateFieldset fieldset => NamedAgain names fieldset
  | .unknownSelectable _ => False
  | .unfilterableSelectable _ => False
  | .entityTypeMismatch _ _ => False

/-- What a problem says of a view. -/
def ViewProblem.TrueOf (v : View) (s : Schema) : ViewProblem → Prop
  | .entityTypeMismatch expected actual =>
    expected = s.name ∧ actual = v.entityType ∧ actual ≠ expected
  | .unknownSelectable field => field ∈ v.selectable ∧ field ∉ s.fieldNames
  | .unfilterableSelectable field =>
    field ∈ v.selectable ∧ ∃ f, s.field? field = some f ∧ f.isFilterable = false
  | p => p.Among s (v.fieldsets.map (·.name)) v.listings

namespace ViewProblem

variable {s : Schema} {names : List String} {listings : List (String × String)} {p : ViewProblem}

/-- A view without fieldsets has no such problems. -/
theorem not_among_nil : ¬ p.Among s [] [] := by
  cases p <;> simp [Among, NamedAgain, ListedAgain]

/-- A further name says more when it is there already, or a field. -/
theorem among_concat_name {name : String} :
    p.Among s (names ++ [name]) listings ↔ p.Among s names listings
      ∨ (name ∈ names ∧ p = .duplicateFieldset name)
      ∨ name ∈ s.fieldNames ∧ p = .nameCollision name := by
  cases p with
  | duplicateFieldset name' => simp [Among, namedAgain_concat, and_comm]
  | nameCollision name' =>
    simp only [Among, List.mem_append, List.mem_singleton, or_and_right, nameCollision.injEq,
      reduceCtorEq, and_false, false_or]
    exact or_congr_right ⟨fun h => ⟨h.1 ▸ h.2, h.1⟩, fun h => ⟨h.2, h.2 ▸ h.1⟩⟩
  | _ => simp [Among]

/-- A further listing says more when its field is not declared, or listed already. -/
theorem among_concat_listing {fieldset field : String} :
    p.Among s names (listings ++ [(fieldset, field)]) ↔ p.Among s names listings
      ∨ (field ∉ s.fieldNames ∧ p = .danglingField fieldset field)
      ∨ field ∈ s.fieldNames ∧ ∃ first, LastListed listings field first
        ∧ p = .duplicateField field first fieldset := by
  cases p with
  | danglingField fieldset' field' =>
    simp only [Among, List.mem_append, List.mem_singleton, or_and_right, danglingField.injEq,
      Prod.mk.injEq, reduceCtorEq, and_false, exists_false, or_false]
    refine or_congr_right ⟨?_, ?_⟩
    · rintro ⟨⟨rfl, rfl⟩, hfield⟩
      exact ⟨hfield, rfl, rfl⟩
    · rintro ⟨hfield, rfl, rfl⟩
      exact ⟨⟨rfl, rfl⟩, hfield⟩
  | duplicateField field' first second =>
    simp only [Among, listedAgain_concat, duplicateField.injEq, reduceCtorEq, and_false, false_or]
    rw [and_or_left]
    refine or_congr_right ⟨?_, ?_⟩
    · rintro ⟨hfield, rfl, rfl, hlast⟩
      exact ⟨hfield, first, hlast, rfl, rfl, rfl⟩
    · rintro ⟨hfield, first, hlast, rfl, rfl, rfl⟩
      exact ⟨hfield, rfl, rfl, hlast⟩
  | _ => simp [Among]

end ViewProblem

namespace View

variable {s : Schema} {v : View}

namespace Survey

variable {survey : Survey} {names : List String} {listings : List (String × String)}

/-- A survey has the names, of each declared field the last listing, and the problems. -/
structure Knows (s : Schema) (names : List String) (listings : List (String × String))
    (survey : Survey) : Prop where
  named : ∀ name, name ∈ survey.names ↔ name ∈ names
  listed : ∀ field fieldset, survey.listedBy.get? field = some fieldset ↔
    field ∈ s.fieldNames ∧ LastListed listings field fieldset
  found : ∀ p, p ∈ survey.problems ↔ p.Among s names listings

theorem knows_nil : Knows s [] [] {} where
  named name := by simp
  listed field fieldset := by simp [LastListed]
  found p := by simp [ViewProblem.not_among_nil]

/-- **Step:** one listing more. -/
theorem Knows.listing (h : survey.Knows s names listings) (fieldset field : String) :
    (survey.listing s fieldset field).Knows s names (listings ++ [(fieldset, field)]) := by
  by_cases hfield : field ∈ s.fieldNames
  · refine ⟨fun name => ?_, fun field' fieldset' => ?_, fun p => ?_⟩
    · rw [names_listing, h.named]
    · rw [listedBy_listing hfield, lastListed_concat]
      by_cases hsame : field' = field
      · rw [if_pos hsame, if_pos hsame, hsame, Option.some.injEq, eq_comm]
        exact (and_iff_right hfield).symm
      · rw [if_neg hsame, if_neg hsame, h.listed]
    · have hlast (first : String) : LastListed listings field first ↔
          survey.listedBy.get? field = some first := by
        rw [h.listed, and_iff_right hfield]
      simp only [ViewProblem.among_concat_listing, ← h.found, hfield, not_true_eq_false,
        false_and, false_or, true_and, hlast]
      rw [Survey.listing, if_pos (Schema.declares_iff.2 hfield)]
      cases survey.listedBy.get? field with
      | none => simp
      | some first => simp
  · -- an undeclared field is reported, and does not count as listed
    have hdeclared : ¬ s.declares field = true := fun hd => hfield (Schema.declares_iff.1 hd)
    have hlisted : survey.listing s fieldset field
        = { survey with problems := survey.problems ++ [.danglingField fieldset field] } := by
      rw [Survey.listing, if_neg hdeclared]
    rw [hlisted]
    refine ⟨h.named, fun field' fieldset' => ?_, fun p => ?_⟩
    · rw [h.listed, lastListed_concat]
      refine and_congr_right fun hfield' => ?_
      have hne : field' ≠ field := fun hsame => hfield (hsame ▸ hfield')
      rw [if_neg hne]
    · rw [ViewProblem.among_concat_listing, ← h.found, List.mem_append, List.mem_singleton]
      simp [hfield]

/-- **Run:** the listings of a fieldset. -/
theorem Knows.allListings (h : survey.Knows s names listings) (fieldset : String)
    (fields : List String) :
    (fields.foldl (Survey.listing s fieldset) survey).Knows s names
      (listings ++ fields.map (fieldset, ·)) := by
  induction fields generalizing survey listings with
  | nil => simpa using h
  | cons field rest ih => simpa using ih (h.listing fieldset field)

/-- **Step:** the name of one fieldset more. -/
theorem Knows.name (h : survey.Knows s names listings) (name : String) :
    Knows s (names ++ [name]) listings { survey with
      names := name :: survey.names
      problems := survey.problems
        ++ (if name ∈ survey.names then [.duplicateFieldset name] else [])
        ++ if s.declares name then [.nameCollision name] else [] } where
  named name' := by
    rw [List.mem_cons, h.named, List.mem_append, List.mem_singleton, or_comm]
  listed := h.listed
  found p := by
    rw [ViewProblem.among_concat_name, ← h.found, ← h.named, ← Schema.declares_iff]
    by_cases hname : name ∈ survey.names <;> by_cases hfield : s.declares name = true <;>
      simp [hname, hfield]

/-- **Step:** one fieldset more. -/
theorem Knows.fieldset (h : survey.Knows s names listings) (f : Fieldset) :
    (survey.fieldset s f).Knows s (names ++ [f.name]) (listings ++ f.listings) :=
  (h.name f.name).allListings f.name f.fields

/-- **Run:** all fieldsets. -/
theorem Knows.allFieldsets (h : survey.Knows s names listings) (fieldsets : List Fieldset) :
    (fieldsets.foldl (Survey.fieldset s) survey).Knows s (names ++ fieldsets.map (·.name))
      (listings ++ fieldsets.flatMap Fieldset.listings) := by
  induction fieldsets generalizing survey names listings with
  | nil => simpa using h
  | cons f rest ih => simpa using ih (h.fieldset f)

end Survey

/-- A survey has exactly the problems that are true of the fieldsets. -/
theorem mem_survey_problems_iff {p : ViewProblem} :
    p ∈ (v.fieldsets.foldl (Survey.fieldset s) {}).problems
      ↔ p.Among s (v.fieldsets.map (·.name)) v.listings :=
  (Survey.knows_nil.allFieldsets v.fieldsets).found p

/-- A selectable column is a problem when it is not declared or cannot be filtered. -/
theorem selectableProblem?_eq_some_iff {name : String} {p : ViewProblem} :
    selectableProblem? s name = some p ↔
      name ∉ s.fieldNames ∧ p = .unknownSelectable name
        ∨ (∃ f, s.field? name = some f ∧ f.isFilterable = false)
          ∧ p = .unfilterableSelectable name := by
  have hdeclared : name ∈ s.fieldNames ↔ ∃ f, s.field? name = some f := by
    rw [← Schema.declares_iff, Schema.declares, Option.isSome_iff_exists]
  rw [hdeclared, selectableProblem?]
  cases s.field? name with
  | none => simp [@eq_comm _ p]
  | some f => cases f.isFilterable <;> simp [@eq_comm _ p]

/-- **A problem is reported exactly when it is true of the view.** -/
theorem mem_problems_iff {p : ViewProblem} : p ∈ v.problems s ↔ p.TrueOf v s := by
  have hmismatch : p ∈ (if v.entityType = s.name then [] else
      [ViewProblem.entityTypeMismatch s.name v.entityType]) ↔
        v.entityType ≠ s.name ∧ p = .entityTypeMismatch s.name v.entityType := by
    by_cases htype : v.entityType = s.name <;> simp [htype]
  rw [problems, List.mem_append, List.mem_append, hmismatch, mem_survey_problems_iff,
    List.mem_filterMap]
  simp only [selectableProblem?_eq_some_iff]
  cases p with
  | entityTypeMismatch expected actual =>
    change _ ↔ expected = s.name ∧ actual = v.entityType ∧ actual ≠ expected
    simp only [ViewProblem.Among, ViewProblem.entityTypeMismatch.injEq, reduceCtorEq, and_false,
      or_false, exists_false]
    constructor
    · rintro ⟨hne, rfl, rfl⟩
      exact ⟨rfl, rfl, hne⟩
    · rintro ⟨rfl, rfl, hne⟩
      exact ⟨hne, rfl, rfl⟩
  | unknownSelectable field =>
    change _ ↔ field ∈ v.selectable ∧ field ∉ s.fieldNames
    simp [ViewProblem.Among]
  | unfilterableSelectable field =>
    change _ ↔ field ∈ v.selectable ∧ ∃ f, s.field? field = some f ∧ f.isFilterable = false
    simp [ViewProblem.Among]
  | danglingField fieldset field => simp [ViewProblem.TrueOf]
  | duplicateField field first second => simp [ViewProblem.TrueOf]
  | nameCollision fieldset => simp [ViewProblem.TrueOf]
  | duplicateFieldset fieldset => simp [ViewProblem.TrueOf]

/-! ### Checks -/

/-- **A strict check** refuses a view that has problems, with all of them. -/
theorem check_strict_eq_error_iff {e : ViewError} :
    v.check s .strict = .error e ↔
      v.problems s ≠ [] ∧ e = .invalidView v.entityType (v.problems s) := by
  rw [check]
  by_cases h : v.problems s = [] <;> simp [h, @eq_comm _ e]

/-- **A lenient check** refuses nothing. -/
theorem check_lenient (v : View) (s : Schema) : v.check s .lenient = .ok () := by
  simp [check]

end View

namespace ViewFolder

variable {schemas : SchemaRegistry} {mode : ValidationMode} {v : View} {e : ViewError}

/-- The error of a view that has no schema, or that has problems in the strict mode. -/
def Refuses (schemas : SchemaRegistry) (mode : ValidationMode) (v : View) (e : ViewError) : Prop :=
  (schemas.get? v.entityType = none ∧ e = .schema (.schemaNotFound v.entityType))
    ∨ mode = .strict ∧ ∃ s, schemas.get? v.entityType = some s ∧ v.problems s ≠ []
      ∧ e = .invalidView v.entityType (v.problems s)

/-- The check ends at a view that is refused, or goes on with the rest. -/
theorem checkEach_cons_eq_error_iff {rest : List View} :
    checkEach schemas mode (v :: rest) = .error e ↔
      Refuses schemas mode v e
        ∨ (∀ e', ¬ Refuses schemas mode v e') ∧ checkEach schemas mode rest = .error e := by
  rw [checkEach, SchemaRegistry.require]
  cases hs : schemas.get? v.entityType with
  | none => simp [Refuses, hs, @eq_comm _ e]
  | some s =>
    cases mode with
    | lenient => simp [Refuses, hs, View.check_lenient]
    | strict =>
      cases hcheck : v.check s .strict with
      | error e' =>
        obtain ⟨hproblems, rfl⟩ := View.check_strict_eq_error_iff.1 hcheck
        simp [Refuses, hs, hproblems, hcheck, @eq_comm _ e]
      | ok =>
        have hproblems : v.problems s = [] := by
          by_contra hne
          rw [View.check_strict_eq_error_iff.2 ⟨hne, rfl⟩] at hcheck
          cases hcheck
        simp [Refuses, hs, hproblems, hcheck]

/-- **The check of views** fails at the first that is refused, with its error. -/
theorem checkEach_eq_error_iff {views : List View} :
    checkEach schemas mode views = .error e ↔ FirstRefused (Refuses schemas mode) views e := by
  induction views with
  | nil => simp [checkEach, not_firstRefused_nil]
  | cons v rest ih => rw [checkEach_cons_eq_error_iff, firstRefused_cons, ih]

end ViewFolder

/-- **The check of views is sound and complete.** A view has no problems with a schema
exactly when it agrees with it, and has exactly the problems that are true of it. A strict
check refuses it exactly when there are problems, and reports all of them; a lenient check
refuses nothing. The check of a folder fails exactly at its first view that has no schema or,
in the strict mode, has problems. -/
theorem View.reports_exactly :
    (∀ (v : View) (s : Schema),
      (v.problems s = [] ↔ v.Agrees s)
        ∧ (∀ p, p ∈ v.problems s ↔ p.TrueOf v s)
        ∧ (∀ e, v.check s .strict = .error e ↔
          v.problems s ≠ [] ∧ e = .invalidView v.entityType (v.problems s))
        ∧ v.check s .lenient = .ok ())
      ∧ ∀ (f : ViewFolder) (schemas : SchemaRegistry) (mode : ValidationMode) (e : ViewError),
        f.checkAll schemas mode = .error e ↔
          FirstRefused (ViewFolder.Refuses schemas mode) f.byName.values e :=
  ⟨fun v s => ⟨problems_eq_nil_iff, fun _ => mem_problems_iff, fun _ => check_strict_eq_error_iff,
    check_lenient v s⟩, fun _ _ _ _ => ViewFolder.checkEach_eq_error_iff⟩

end Inventory
