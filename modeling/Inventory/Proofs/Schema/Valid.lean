/-
# Which schemas are valid

`validate` of `ResourceSchema`.

| of the names of the fields | the label field | `validate` |
| --- | --- | --- |
| distinct | is one of them | accepts |
| distinct | is not | `labelFieldMissing` |
| not distinct | whatever it is | `duplicateField`, with the first name that was there before |
-/

import Inventory.Schema.Basic
import Mathlib.Data.List.Nodup

namespace Inventory
namespace Schema

/-- No field name occurs twice, and the label field is among them. -/
structure Valid (s : Schema) : Prop where
  nodup : s.fieldNames.Nodup
  label : s.labelField ∈ s.fieldNames

/-- A schema is valid when its names are distinct and its label field is among them. -/
theorem valid_iff {s : Schema} : s.Valid ↔ s.fieldNames.Nodup ∧ s.labelField ∈ s.fieldNames :=
  ⟨fun h => ⟨h.nodup, h.label⟩, fun h => ⟨h.1, h.2⟩⟩

instance (s : Schema) : Decidable s.Valid := decidable_of_iff' _ valid_iff

/-- `name` stands somewhere in the list, is among the names before that place, and none of
those repeats an earlier one. -/
def FirstRepeat (names : List String) (name : String) : Prop :=
  ∃ before after, names = before ++ name :: after ∧ before.Nodup ∧ name ∈ before

/-- The first repeat is the first name that was seen before. -/
theorem firstRepeat_eq_some_iff {seen names : List String} {name : String} :
    firstRepeat seen names = some name
      ↔ ∃ before after, names = before ++ name :: after ∧ before.Nodup
        ∧ (∀ n ∈ before, n ∉ seen) ∧ (name ∈ before ∨ name ∈ seen) := by
  induction names generalizing seen with
  | nil => simp [firstRepeat]
  | cons n rest ih =>
    by_cases hn : n ∈ seen
    · rw [firstRepeat, if_pos hn]
      constructor
      · rintro ⟨⟩
        exact ⟨[], rest, rfl, .nil, fun m hm => absurd hm List.not_mem_nil, .inr hn⟩
      · rintro ⟨before, after, heq, -, hfresh, -⟩
        rcases List.cons_eq_append_iff.1 heq with ⟨rfl, hname⟩ | ⟨before', rfl, -⟩
        · rw [(List.cons.inj hname).1]
        · exact absurd hn (hfresh n List.mem_cons_self)
    · -- the name moves from the rest to the names seen, so the split of the rest gains it in front
      rw [firstRepeat, if_neg hn, ih]
      constructor
      · rintro ⟨before, after, rfl, hnodup, hfresh, hname⟩
        refine ⟨n :: before, after, rfl, List.nodup_cons.2 ⟨fun hmem => ?_, hnodup⟩,
          List.forall_mem_cons.2 ⟨hn, fun m hm hseen => ?_⟩, ?_⟩
        · exact hfresh n hmem List.mem_cons_self
        · exact hfresh m hm (List.mem_cons_of_mem _ hseen)
        · simpa [or_assoc, or_left_comm] using hname
      · rintro ⟨before, after, heq, hnodup, hfresh, hname⟩
        rcases List.cons_eq_append_iff.1 heq with ⟨rfl, hcons⟩ | ⟨before', rfl, hrest⟩
        · obtain rfl : name = n := (List.cons.inj hcons).1
          exact absurd (hname.resolve_left List.not_mem_nil) hn
        · obtain ⟨hn', hnodup'⟩ := List.nodup_cons.1 hnodup
          refine ⟨before', after, hrest, hnodup', fun m hm hseen => ?_, ?_⟩
          · rcases List.mem_cons.1 hseen with rfl | hseen
            · exact hn' hm
            · exact hfresh m (List.mem_cons_of_mem _ hm) hseen
          · simpa [or_assoc, or_left_comm] using hname

/-- From the start on, it is the first name that occurs again. -/
theorem firstRepeat_nil_eq_some_iff {names : List String} {name : String} :
    firstRepeat [] names = some name ↔ FirstRepeat names name := by
  simp [firstRepeat_eq_some_iff, FirstRepeat]

/-- Nothing is repeated when the names are distinct. -/
theorem firstRepeat_nil_eq_none_iff {names : List String} :
    firstRepeat [] names = none ↔ names.Nodup := by
  simp [firstRepeat_eq_none_iff]

/-- **A schema is accepted exactly when it is valid.** -/
theorem validate_eq_ok_iff {s : Schema} : s.validate = .ok () ↔ s.Valid := by
  rw [valid_iff, ← declares_iff, ← firstRepeat_nil_eq_none_iff, validate]
  cases firstRepeat [] s.fieldNames with
  | some name => simp
  | none => by_cases hlabel : s.declares s.labelField <;> simp [hlabel]

/-- **The fault that is reported** is the first repeated name, and the label field only where
no name is repeated. -/
theorem validate_eq_error_iff {s : Schema} {e : SchemaError} :
    s.validate = .error e
      ↔ (∃ name, FirstRepeat s.fieldNames name ∧ e = .duplicateField s.name name)
        ∨ s.fieldNames.Nodup ∧ s.labelField ∉ s.fieldNames
          ∧ e = .labelFieldMissing s.name s.labelField := by
  simp only [← firstRepeat_nil_eq_some_iff, ← firstRepeat_nil_eq_none_iff, ← declares_iff, validate]
  cases firstRepeat [] s.fieldNames with
  | some name => simpa using eq_comm
  | none =>
    by_cases hlabel : s.declares s.labelField
    · simp [hlabel]
    · simpa [hlabel] using eq_comm

/-- The names of a valid schema are distinct. -/
theorem nodup_of_validate {s : Schema} (h : s.validate = .ok ()) : s.fieldNames.Nodup :=
  (validate_eq_ok_iff.1 h).nodup

/-- A valid schema declares its label field. -/
theorem labelField_of_validate {s : Schema} (h : s.validate = .ok ()) :
    s.labelField ∈ s.fieldNames :=
  (validate_eq_ok_iff.1 h).label

/-- Where no name is repeated, a field is found by its name. -/
theorem field?_of_mem {s : Schema} (hnames : s.fieldNames.Nodup) {f : Field}
    (hf : f ∈ s.fields) : s.field? f.name = some f := by
  obtain ⟨f', hf'⟩ := Option.isSome_iff_exists.1
    (declares_iff.2 (List.mem_map_of_mem hf) : s.declares f.name = true)
  have hmem := List.mem_of_find?_eq_some hf'
  have hname : f'.name = f.name := by simpa using List.find?_some hf'
  have heq : f' = f := List.inj_on_of_nodup_map hnames hmem hf hname
  exact heq ▸ hf'

/-- **A field is found** exactly when it is declared under the name. -/
theorem requireField_eq_ok_iff {s : Schema} (hnames : s.fieldNames.Nodup) {name : String}
    {f : Field} : s.requireField name = .ok f ↔ f ∈ s.fields ∧ f.name = name := by
  constructor
  · intro h
    rw [requireField] at h
    split at h
    · rename_i f' hf'
      obtain rfl := Except.ok.inj h
      exact ⟨List.mem_of_find?_eq_some hf', by simpa using List.find?_some hf'⟩
    · cases h
  · rintro ⟨hf, rfl⟩
    rw [requireField, field?_of_mem hnames hf]

end Schema
end Inventory
