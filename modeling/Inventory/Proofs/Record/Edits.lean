/-
# Records under edits

`Record` under `with_id`, `set`, `with_only` and `with_overrides`.

Whatever is done to a new record, and whether it succeeds or fails, the record has one
slot for each field that its schema declares, in the order in which the names are first
declared, and each slot holds a value that fits the first declaration of its name
(`Record.filled_edited`). This needs nothing of the schema, which may declare a name
twice. So there is nothing left that can go wrong when the record is read
(`Record.slots_of_edits`):

| | fails |
| --- | --- |
| the value of a field | only when the schema does not declare it |
| reading a value as what the field holds | never |
| the page of the record | never |

An edit that sets several fields sets all of them or none. Whether a value is accepted
depends on the schema alone, and not on what was set before
(`Record.setAll_eq_error_iff`).
-/

import Inventory.Proofs.Page.ClosedForm

namespace Inventory

/-! ### Reading values -/

namespace FieldValue.Accessor

/-- The accessors that read what fields of a type hold. -/
inductive Reads : {α : Type} → Accessor α → FieldType → Prop where
  | string : Reads asString (.primitive .string)
  | boolean : Reads asBoolean (.primitive .boolean)
  | integer : Reads asInteger (.primitive .integer)
  | timestamp : Reads asTimestamp (.primitive .timestamp)
  | items (properties : List String) : Reads asItems (.composite properties)

/-- A value that fits a type is read as what fields of the type hold. -/
theorem Reads.exists_read {α : Type} {kind : Accessor α} {t : FieldType} (h : kind.Reads t)
    {v : FieldValue} (hfits : v.conformsTo t = true) (hv : v ≠ .absent) :
    ∃ a, kind.read? v = some a := by
  cases h <;> cases v <;> first
    | exact ⟨_, rfl⟩
    | exact absurd rfl hv
    | cases hfits

end FieldValue.Accessor

namespace Record

/-! ### Edits -/

/-- What can be done to a record: to give it another identifier, to set one field or
several, to hide all fields but some. -/
inductive Edit where
  | withId (id : Ulid)
  | set (name : String) (value : FieldValue)
  | withOnly (names : List String)
  | setAll (values : List (String × FieldValue))

/-- An edit of the record that is held. One field is set in place; several are set on a
copy, which is held once all are set. -/
def Edit.attempt : Edit → Attempt Record RecordError Unit
  | .withId id => modify fun r => r.withId id
  | .set name value => setting name value
  | .withOnly names => modify fun r => r.withOnly names
  | .setAll values => .replacing fun r => r.setAll values

/-- What an edit makes of a record. -/
def Edit.apply (r : Record) (e : Edit) : Except RecordError Record := e.attempt.next r

/-- The record that is held after an edit, whether it succeeds or fails. -/
def Edit.next (r : Record) (e : Edit) : Record := e.attempt.after r

/-- The record after edits, one after another. -/
def edited (r : Record) (edits : List Edit) : Record := edits.foldl Edit.next r

variable {r r' : Record}

/-- Edits are made one after another. -/
theorem edited_append (edits rest : List Edit) :
    r.edited (edits ++ rest) = (r.edited edits).edited rest := List.foldl_append

/-- **Step:** an edit that fails leaves the record that is held alone. -/
theorem Edit.atomic_attempt (e : Edit) : e.attempt.Atomic := by
  cases e with
  | withId id => exact Attempt.atomic_modify _
  | set name value => exact atomic_setting name value
  | withOnly names => exact Attempt.atomic_modify _
  | setAll values => exact Attempt.atomic_replacing _

/-- **Step:** an edit that succeeds keeps the schema and a record filled. -/
theorem Filled.apply (h : r.Filled) {e : Edit} (hedit : e.apply r = .ok r') :
    r'.schema = r.schema ∧ r'.Filled := by
  cases e with
  | withId id =>
    obtain rfl := Except.ok.inj hedit
    exact ⟨rfl, h.withId id⟩
  | set name value => exact ⟨schema_of_set hedit, h.set hedit⟩
  | withOnly names =>
    obtain rfl := Except.ok.inj hedit
    exact ⟨rfl, h.withOnly names⟩
  | setAll values => exact h.setAll ((Attempt.next_replacing _ r).symm.trans hedit)

/-- **Step:** an edit keeps the schema and a record filled, whether it succeeds or not. -/
theorem Filled.next (h : r.Filled) (e : Edit) :
    (e.next r).schema = r.schema ∧ (e.next r).Filled := by
  rw [Edit.next, e.atomic_attempt.after_eq, ← Edit.apply]
  cases hedit : e.apply r with
  | ok r' => exact h.apply hedit
  | error err => exact ⟨rfl, h⟩

/-- **Run:** edits keep the schema and a record filled. -/
theorem Filled.edited (h : r.Filled) (edits : List Edit) :
    (r.edited edits).schema = r.schema ∧ (r.edited edits).Filled := by
  induction edits generalizing r with
  | nil => exact ⟨rfl, h⟩
  | cons e rest ih =>
    obtain ⟨hschema, hnext⟩ := h.next e
    obtain ⟨hrest, hfilled⟩ := ih hnext
    exact ⟨hrest.trans hschema, hfilled⟩

/-- **After any edits** a record has its schema, and is filled. -/
theorem filled_edited (id : Ulid) (s : Schema) (edits : List Edit) :
    ((new id s).edited edits).schema = s ∧ ((new id s).edited edits).Filled :=
  (filled_new id s).edited edits

/-! ### What fails -/

/-- An edit that fails can be struck out. -/
theorem edited_cons_of_error {e : Edit} {err : RecordError} (h : e.apply r = .error err)
    (rest : List Edit) : r.edited (e :: rest) = r.edited rest := by
  have hnext : e.next r = r := e.atomic_attempt.after_of_error h
  rw [edited, List.foldl_cons, hnext]
  rfl

/-- Setting a field fails when the schema does not declare it or the value does not fit. -/
theorem set_eq_error_iff {name : String} {v : FieldValue} :
    (∃ err, r.set name v = .error err) ↔
      ∀ f, r.schema.field? name = some f → v.conformsTo f.type = false := by
  rw [set_eq]
  cases r.schema.field? name with
  | none => simp
  | some f => by_cases hv : v.conformsTo f.type <;> simp [hv]

/-- What is set before does not decide whether a value is accepted, nor with which error
it is refused. -/
theorem set_eq_error_congr (hschema : r'.schema = r.schema) {name : String} {v : FieldValue}
    {err : RecordError} : r'.set name v = .error err ↔ r.set name v = .error err := by
  simp only [set_eq, entityType, hschema]
  cases r.schema.field? name with
  | none => rfl
  | some f => by_cases hv : v.conformsTo f.type <;> simp [hv]

/-- Whether a value is accepted does not depend on what was set before. -/
theorem set_isOk_congr (hschema : r'.schema = r.schema) {name : String} {v : FieldValue} :
    (∃ r₁, r'.set name v = .ok r₁) ↔ ∃ r₁, r.set name v = .ok r₁ := by
  simp only [set_eq_ok_iff, hschema]
  constructor <;>
    · rintro ⟨-, f, hf, hv, -⟩
      exact ⟨_, f, hf, hv, rfl⟩

/-- **Setting several fields** fails with the error of the first value that the record, as
it was before, does not accept. -/
theorem setAll_eq_error_iff {values : List (String × FieldValue)} {err : RecordError} :
    r.setAll values = .error err ↔
      ∃ done name v rest, values = done ++ (name, v) :: rest
        ∧ (∀ e ∈ done, ∃ r', r.set e.1 e.2 = .ok r') ∧ r.set name v = .error err := by
  induction values generalizing r with
  | nil => simp [setAll]
  | cons e values ih =>
    obtain ⟨name, v⟩ := e
    rw [setAll]
    cases hset : r.set name v with
    | error first =>
      constructor
      · intro h
        exact ⟨[], name, v, values, rfl, by simp, hset.trans h⟩
      · rintro ⟨done, name', v', rest, hvalues, hdone, herror⟩
        cases done with
        | nil =>
          obtain ⟨hfirst, -⟩ := List.cons.inj hvalues
          obtain ⟨rfl, rfl⟩ := Prod.mk.inj hfirst
          exact hset.symm.trans herror
        | cons e done =>
          obtain ⟨rfl, -⟩ := List.cons.inj hvalues
          obtain ⟨r', hr'⟩ := hdone _ List.mem_cons_self
          cases hset.symm.trans hr'
    | ok r₁ =>
      -- an accepted edit leaves the schema, on which alone it depends which edits are accepted
      have hschema := schema_of_set hset
      refine Iff.trans ih ?_
      constructor
      · rintro ⟨done, name', v', rest, rfl, hdone, herror⟩
        refine ⟨(name, v) :: done, name', v', rest, rfl, ?_, (set_eq_error_congr hschema).1 herror⟩
        rw [List.forall_mem_cons]
        exact ⟨⟨r₁, hset⟩, fun e he => (set_isOk_congr hschema).1 (hdone e he)⟩
      · rintro ⟨done, name', v', rest, hvalues, hdone, herror⟩
        cases done with
        | nil =>
          obtain ⟨hfirst, -⟩ := List.cons.inj hvalues
          obtain ⟨rfl, rfl⟩ := Prod.mk.inj hfirst
          cases hset.symm.trans herror
        | cons e done =>
          obtain ⟨-, rfl⟩ := List.cons.inj hvalues
          refine ⟨done, name', v', rest, rfl, fun e he => ?_, (set_eq_error_congr hschema).2 herror⟩
          exact (set_isOk_congr hschema).2 (hdone e (List.mem_cons_of_mem _ he))

/-! ### What does not fail -/

/-- The value of a field is found exactly when the schema declares it. -/
theorem Filled.value_eq_error_iff (h : r.Filled) {name : String} :
    (∃ err, r.value name = .error err) ↔ name ∉ r.schema.fieldNames := by
  rw [← List.mem_eraseDups, ← h.keys, ← OrderedMap.get?_eq_none_iff, value]
  cases r.slots.get? name <;> simp

/-- A value is always read as what its field holds. -/
theorem Filled.exists_get (h : r.Filled) {name : String} {f : Field}
    (hf : r.schema.field? name = some f) {α : Type} {kind : FieldValue.Accessor α}
    (hkind : kind.Reads f.type) : ∃ found, r.get name kind = .ok found := by
  have hname : name ∈ r.slots.keys := by
    rw [h.keys, List.mem_eraseDups]
    exact mem_fieldNames_of_field? hf
  obtain ⟨v, hv⟩ := Option.isSome_iff_exists.1 (OrderedMap.isSome_get?_iff.2 hname)
  obtain ⟨f', hf', hfits⟩ := h.fits name v hv
  obtain rfl := Option.some.inj (hf.symm.trans hf')
  have hvalue : r.value name = .ok v := by rw [value, hv]
  rw [get, hvalue]
  by_cases habsent : v = .absent
  · exact ⟨none, by rw [habsent]⟩
  · obtain ⟨a, ha⟩ := hkind.exists_read hfits habsent
    refine ⟨some a, ?_⟩
    cases v <;> first
      | exact absurd rfl habsent
      | simp only [ha]

/-- **The slots of a record that is edited in any way** are the fields that its schema
declares, each name once, in the order of the first declarations, and hold values that fit
them. So the value of a field fails only for a name that is not declared, a value is
always read as what its field holds, and the record is always rendered. An edit that fails
might as well not have been tried: setting a field fails when it is not declared or the
value does not fit, and setting several when one of them is refused, with the error of the
first such. -/
theorem slots_of_edits (id : Ulid) (s : Schema) (edits : List Edit) :
    ((new id s).edited edits).slots.keys = s.fieldNames.eraseDups
      ∧ (∀ name v, ((new id s).edited edits).slots.get? name = some v →
        ∃ f, s.field? name = some f ∧ v.conformsTo f.type = true)
      ∧ (∀ name, (∃ err, ((new id s).edited edits).value name = .error err)
        ↔ name ∉ s.fieldNames)
      ∧ (∀ name f, s.field? name = some f → ∀ (α : Type) (kind : FieldValue.Accessor α),
        kind.Reads f.type → ∃ found, ((new id s).edited edits).get name kind = .ok found)
      ∧ (∀ e err, Edit.apply ((new id s).edited edits) e = .error err →
        ∀ rest, (new id s).edited (edits ++ e :: rest) = (new id s).edited (edits ++ rest))
      ∧ (∀ name v, (∃ err, ((new id s).edited edits).set name v = .error err) ↔
        ∀ f, s.field? name = some f → v.conformsTo f.type = false)
      ∧ (∀ values err, ((new id s).edited edits).setAll values = .error err ↔
        ∃ done name v rest, values = done ++ (name, v) :: rest
          ∧ (∀ e ∈ done, ∃ r', ((new id s).edited edits).set e.1 e.2 = .ok r')
          ∧ ((new id s).edited edits).set name v = .error err)
      ∧ ∀ context, ∃ page, FieldList.render ((new id s).edited edits) context = .ok page := by
  obtain ⟨hschema, hfilled⟩ := filled_edited id s edits
  simp only [edited_append]
  generalize (new id s).edited edits = r at hschema hfilled
  subst hschema
  refine ⟨hfilled.keys, hfilled.fits, fun name => hfilled.value_eq_error_iff, ?_, ?_,
    fun name v => set_eq_error_iff, fun values err => setAll_eq_error_iff, fun context => ?_⟩
  · exact fun name f hf α kind hkind => hfilled.exists_get hf hkind
  · exact fun e err he rest => edited_cons_of_error he rest
  · exact ⟨_, FieldList.render_eq_of_keys hfilled.keys context⟩

end Record
end Inventory
