/-
# The slots of a record

`new`, `set`, `with_only` and `with_overrides` of `Record`.

A field is set exactly when the schema declares it and the value fits the type
(`set_eq_ok_iff`); no other slot moves. A record is *filled* when it has one slot for
each declared field, in schema order, and every slot holds a value that fits, and
*well formed* when moreover no row of an item list repeats a property. A new record is
well formed, and setting, renaming and hiding fields keep a record filled and well
formed; so every record that is built on a schema in these ways is well formed
(`BuiltOn.wellFormed`).
-/

import Inventory.Proofs.OrderedMap
import Inventory.Record.Basic

namespace Inventory

/-- No row of an item list repeats a property. -/
def FieldValue.Distinct (v : FieldValue) : Prop :=
  ∀ rows, v = .items rows → ∀ row ∈ rows, row.keys.Nodup

namespace Record

/-- **A field is set** when it is declared and the value fits its type. -/
theorem set_eq_ok_iff {r r' : Record} {name : String} {v : FieldValue} :
    r.set name v = .ok r' ↔
      ∃ f, r.schema.field? name = some f ∧ v.conformsTo f.type
        ∧ r' = { r with slots := r.slots.insert name v } := by
  rw [set_eq]
  cases r.schema.field? name with
  | none => simp
  | some f =>
    by_cases hv : v.conformsTo f.type
    · simp only [hv, if_true, Except.ok.injEq, Option.some.injEq, exists_eq_left', true_and]
      exact eq_comm
    · simp [hv]

/-! ### Well-formed records -/

/-- No slot is repeated, and no property of an item. -/
structure Distinct (r : Record) : Prop where
  nodup : r.slots.keys.Nodup
  rows : ∀ name v, r.slots.get? name = some v → v.Distinct

/-- One slot for each declared field, in schema order, with a value that fits. -/
structure WellFormed (r : Record) : Prop extends Distinct r where
  keys : r.slots.keys = r.schema.fieldNames.eraseDups
  fits : ∀ name v, r.slots.get? name = some v →
    ∃ f, r.schema.field? name = some f ∧ v.conformsTo f.type

/-- A field that is found is declared. -/
theorem mem_fieldNames_of_field? {s : Schema} {name : String} {f : Field}
    (h : s.field? name = some f) : name ∈ s.fieldNames := by
  rw [← Schema.declares_iff, Schema.declares, h]
  rfl

/-! ### Filled records -/

/-- One slot for each declared field, in schema order, with a value that fits. -/
structure Filled (r : Record) : Prop where
  keys : r.slots.keys = r.schema.fieldNames.eraseDups
  fits : ∀ name v, r.slots.get? name = some v →
    ∃ f, r.schema.field? name = some f ∧ v.conformsTo f.type

/-- A well-formed record is filled. -/
theorem WellFormed.filled {r : Record} (h : r.WellFormed) : r.Filled := ⟨h.keys, h.fits⟩

/-- On a new record every slot is absent. -/
theorem get?_new_eq_some {id : Ulid} {schema : Schema} {name : String} {v : FieldValue}
    (h : (new id schema).slots.get? name = some v) : v = .absent ∧ name ∈ schema.fieldNames := by
  rw [new, OrderedMap.get?_ofList] at h
  have hmem := List.mem_reverse.1 (OrderedMap.mem_of_lookupIn_eq_some h)
  obtain ⟨f, hf, he⟩ := List.mem_map.1 hmem
  obtain ⟨rfl, rfl⟩ := Prod.mk.inj he
  exact ⟨rfl, List.mem_map_of_mem hf⟩

/-- A record that was just made is filled. -/
theorem filled_new (id : Ulid) (schema : Schema) : (new id schema).Filled where
  keys := by
    rw [new, OrderedMap.keys_ofList, List.map_map]
    rfl
  fits name v hv := by
    obtain ⟨rfl, hname⟩ := get?_new_eq_some hv
    obtain ⟨f, hf⟩ := Option.isSome_iff_exists.1 (Schema.declares_iff.2 hname)
    exact ⟨f, hf, rfl⟩

/-- Setting a field keeps the schema. -/
theorem schema_of_set {r r' : Record} {name : String} {v : FieldValue}
    (hset : r.set name v = .ok r') : r'.schema = r.schema := by
  obtain ⟨f, -, -, rfl⟩ := set_eq_ok_iff.1 hset
  rfl

/-- What is found in a slot after fields were hidden. -/
theorem get?_withOnly_eq_some {r : Record} {names : List String} {name : String} {v : FieldValue}
    (h : (r.withOnly names).slots.get? name = some v) :
    v = .absent ∧ (r.slots.get? name).isSome ∨ r.slots.get? name = some v := by
  rw [withOnly, OrderedMap.get?_mapValues, Option.map_eq_some_iff] at h
  obtain ⟨v', hv', hv⟩ := h
  split at hv
  · exact .inr (hv ▸ hv')
  · exact .inl ⟨hv.symm, by rw [hv']; rfl⟩

namespace Filled

variable {r r' : Record}

/-- A filled record has no slot twice. -/
theorem nodup (h : r.Filled) : r.slots.keys.Nodup := h.keys ▸ OrderedMap.nodup_eraseDups _

/-- There is a slot for a field when the schema declares it. -/
theorem isSome_slot_eq (h : r.Filled) (name : String) :
    (r.slots.get? name).isSome = r.schema.declares name := by
  rw [Bool.eq_iff_iff, OrderedMap.isSome_get?_iff, h.keys, List.mem_eraseDups,
    Schema.declares_iff]

/-- A filled record has no slot for what is not declared. -/
theorem get?_eq_none (h : r.Filled) {name : String} (hname : r.schema.declares name = false) :
    r.slots.get? name = none := by
  rw [← Option.not_isSome_iff_eq_none, h.isSome_slot_eq, hname]
  exact Bool.false_ne_true

/-- **Setting a field** keeps a record filled. -/
theorem set (h : r.Filled) {name : String} {v : FieldValue} (hset : r.set name v = .ok r') :
    r'.Filled := by
  obtain ⟨f, hf, hfits, rfl⟩ := set_eq_ok_iff.1 hset
  have hmem : name ∈ r.slots.keys := by
    rw [h.keys, List.mem_eraseDups]
    exact mem_fieldNames_of_field? hf
  refine ⟨?_, fun name' v' hv' => ?_⟩
  · rw [OrderedMap.keys_insert, if_pos hmem]
    exact h.keys
  · rw [OrderedMap.get?_insert] at hv'
    split at hv'
    · rename_i hname
      rw [hname, ← Option.some.inj hv']
      exact ⟨f, hf, hfits⟩
    · exact h.fits name' v' hv'

/-- **Setting fields** one after another keeps the schema and a record filled. -/
theorem setAll (h : r.Filled) {values : List (String × FieldValue)}
    (hset : r.setAll values = .ok r') : r'.schema = r.schema ∧ r'.Filled := by
  induction values generalizing r with
  | nil =>
    obtain rfl := Except.ok.inj hset
    exact ⟨rfl, h⟩
  | cons e rest ih =>
    obtain ⟨name, v⟩ := e
    rw [Record.setAll] at hset
    cases hr : r.set name v with
    | error e => simp [hr] at hset
    | ok r₁ =>
      rw [hr] at hset
      obtain ⟨hschema, hfilled⟩ := ih (h.set hr) hset
      exact ⟨hschema.trans (schema_of_set hr), hfilled⟩

/-- Another identifier changes no slot. -/
theorem withId (h : r.Filled) (id : Ulid) : (r.withId id).Filled := ⟨h.keys, h.fits⟩

/-- **Hiding fields** keeps a record filled. -/
theorem withOnly (h : r.Filled) (names : List String) : (r.withOnly names).Filled where
  keys := (OrderedMap.keys_mapValues _ _).trans h.keys
  fits name v hv := by
    rcases get?_withOnly_eq_some hv with ⟨rfl, hsome⟩ | hv
    · obtain ⟨v', hv'⟩ := Option.isSome_iff_exists.1 hsome
      obtain ⟨f, hf, -⟩ := h.fits name v' hv'
      exact ⟨f, hf, rfl⟩
    · exact h.fits name v hv

end Filled

/-! ### Rows of items -/

/-- A record that was just made is well formed. -/
theorem wellFormed_new (id : Ulid) (schema : Schema) : (new id schema).WellFormed := by
  have hfilled := filled_new id schema
  refine ⟨⟨hfilled.nodup, fun name v hv => ?_⟩, hfilled.keys, hfilled.fits⟩
  rw [(get?_new_eq_some hv).1]
  exact fun _ h => by cases h

namespace WellFormed

variable {r r' : Record}

/-- **Setting a field** keeps a record well formed. -/
theorem set (h : r.WellFormed) {name : String} {v : FieldValue} (hv : v.Distinct)
    (hset : r.set name v = .ok r') : r'.WellFormed := by
  have hfilled := h.filled.set hset
  obtain ⟨f, -, -, rfl⟩ := set_eq_ok_iff.1 hset
  refine ⟨⟨hfilled.nodup, fun name' v' hv' => ?_⟩, hfilled.keys, hfilled.fits⟩
  rw [OrderedMap.get?_insert] at hv'
  split at hv'
  · rwa [← Option.some.inj hv']
  · exact h.rows name' v' hv'

/-- Setting values that repeat no property keeps a record well formed. -/
theorem setAll (h : r.WellFormed) {values : List (String × FieldValue)}
    (hvalues : ∀ e ∈ values, e.2.Distinct) (hset : r.setAll values = .ok r') : r'.WellFormed := by
  induction values generalizing r with
  | nil =>
    obtain rfl := Except.ok.inj hset
    exact h
  | cons e rest ih =>
    obtain ⟨name, v⟩ := e
    rw [Record.setAll] at hset
    cases hr : r.set name v with
    | error e => simp [hr] at hset
    | ok r₁ =>
      rw [hr] at hset
      refine ih (h.set (hvalues _ List.mem_cons_self) hr) (fun e he => ?_) hset
      exact hvalues e (List.mem_cons_of_mem _ he)

/-- Another identifier keeps a record well formed. -/
theorem withId (h : r.WellFormed) (id : Ulid) : (r.withId id).WellFormed :=
  ⟨⟨h.nodup, h.rows⟩, h.keys, h.fits⟩

/-- **Hiding fields** keeps a record well formed. -/
theorem withOnly (h : r.WellFormed) (names : List String) : (r.withOnly names).WellFormed := by
  have hfilled := h.filled.withOnly names
  refine ⟨⟨hfilled.nodup, fun name v hv => ?_⟩, hfilled.keys, hfilled.fits⟩
  rcases get?_withOnly_eq_some hv with ⟨rfl, -⟩ | hv
  · exact fun _ h => by cases h
  · exact h.rows name v hv

end WellFormed

/-! ### Built records -/

/-- The records that are built on a schema: new ones, and what setting, renaming and
hiding fields make of a built one. Rows of items come in as maps, which repeat no key. -/
inductive BuiltOn (s : Schema) : Record → Prop where
  | new (id : Ulid) : BuiltOn s (.new id s)
  | set {r r' : Record} {name : String} {v : FieldValue} (h : BuiltOn s r) (hv : v.Distinct)
      (hset : r.set name v = .ok r') : BuiltOn s r'
  | withId {r : Record} (h : BuiltOn s r) (id : Ulid) : BuiltOn s (r.withId id)
  | withOnly {r : Record} (h : BuiltOn s r) (names : List String) : BuiltOn s (r.withOnly names)

namespace BuiltOn

variable {s : Schema} {r : Record}

/-- A record is built on its schema. -/
theorem schema_eq (h : r.BuiltOn s) : r.schema = s := by
  induction h with
  | new id => rfl
  | set _ _ hset ih => exact (schema_of_set hset).trans ih
  | withId _ id ih => exact ih
  | withOnly _ names ih => exact ih

/-- **Every built record is well formed.** -/
theorem wellFormed (h : r.BuiltOn s) : r.WellFormed := by
  induction h with
  | new id => exact wellFormed_new id s
  | set _ hv hset ih => exact ih.set hv hset
  | withId _ id ih => exact ih.withId id
  | withOnly _ names ih => exact ih.withOnly names

/-- A built record has no slot that the schema does not declare. -/
theorem get?_eq_none (h : r.BuiltOn s) {name : String} (hname : s.declares name = false) :
    r.slots.get? name = none :=
  h.wellFormed.filled.get?_eq_none (h.schema_eq ▸ hname)

end BuiltOn

end Record
end Inventory
