/-
# The comparison of records of several versions of a schema

`same_values_except` of `Record`.

`sameValuesExcept` goes through the fields of the first record and looks each of them up
in the second. The *compared names* of a schema are those of its fields that are not
ignored. Of well-formed records:

| law | holds |
| --- | --- |
| reflexivity | always |
| transitivity | always |
| symmetry | unless the second record has a compared name that the first has not |

On records of one schema the comparison is an equivalence. When the schemas of one
entity type differ, it is one exactly when none of them has the compared names of
another and more besides (`Schema.NoneOutgrown`): a record of the shorter version has
the values of one of the longer version, and not the other way round
(`equivalence_iff_noneOutgrown`).
-/

import Inventory.Proofs.Record.Equality
import Mathlib.Data.Set.CoeSort

namespace Inventory

namespace Schema

/-- The names of the fields that a comparison looks at. -/
def comparedNames (s : Schema) (ignored : List String) : List String :=
  s.fieldNames.filter (· ∉ ignored)

/-- A name is compared when it is declared and not ignored. -/
theorem mem_comparedNames_iff {s : Schema} {ignored : List String} {name : String} :
    name ∈ s.comparedNames ignored ↔ s.declares name = true ∧ name ∉ ignored := by
  rw [comparedNames, List.mem_filter, declares_iff, decide_eq_true_eq]

/-- No version has the compared names of another of its entity type and more besides. -/
def NoneOutgrown (ignored : List String) (versions : Set Schema) : Prop :=
  ∀ s ∈ versions, ∀ t ∈ versions, s.name = t.name →
    s.comparedNames ignored ⊆ t.comparedNames ignored →
      t.comparedNames ignored ⊆ s.comparedNames ignored

end Schema

namespace Record

variable {ignored : List String} {a b c : Record} {s t : Schema}

/-- On slots that repeat no name, values are the same when each field has an equal one. -/
theorem sameValuesExcept_iff (ha : a.slots.keys.Nodup) :
    a.sameValuesExcept ignored b = true ↔ a.entityType = b.entityType ∧
      ∀ name ∉ ignored, ∀ v, a.slots.get? name = some v →
        ∃ w, b.slots.get? name = some w ∧ (w == v) = true := by
  simp only [sameValuesExcept, Bool.and_eq_true, decide_eq_true_eq, List.all_eq_true,
    Bool.or_eq_true, Option.any_eq_true]
  refine and_congr_right fun _ => ?_
  constructor
  · intro h name hname v hv
    exact (h (name, v) (OrderedMap.mem_entries_of_get? hv)).resolve_left hname
  · rintro h ⟨name, v⟩ he
    by_cases hname : name ∈ ignored
    · exact .inl hname
    · exact .inr (h name hname v ((OrderedMap.get?_eq_some_iff ha).2 he))

/-- The values that are looked up are alike. -/
theorem sameValuesExcept_iff_alike (ha : a.Distinct) (hb : b.Distinct) :
    a.sameValuesExcept ignored b = true ↔ a.entityType = b.entityType ∧
      ∀ name ∉ ignored, ∀ v, a.slots.get? name = some v →
        ∃ w, b.slots.get? name = some w ∧ v.Alike w := by
  rw [sameValuesExcept_iff ha.nodup]
  refine and_congr_right fun _ => forall₂_congr fun name _ => forall₂_congr fun v hv => ?_
  refine exists_congr fun w => and_congr_right fun hw => ?_
  rw [FieldValue.beq_iff_alike (hb.rows name w hw) (ha.rows name v hv)]
  exact ⟨FieldValue.Alike.symm, FieldValue.Alike.symm⟩

/-! ### The three laws -/

/-- **A record** has the same values as itself. -/
theorem sameValuesExcept_refl (ha : a.Distinct) : a.sameValuesExcept ignored a = true := by
  refine (sameValuesExcept_iff_alike ha ha).2 ⟨rfl, fun name _ v hv => ⟨v, hv, ?_⟩⟩
  exact (ha.rows name v hv).alike_self

/-- **The comparison** holds from the first to the third record, through the second. -/
theorem sameValuesExcept_trans (ha : a.Distinct) (hb : b.Distinct) (hc : c.Distinct)
    (hab : a.sameValuesExcept ignored b = true) (hbc : b.sameValuesExcept ignored c = true) :
    a.sameValuesExcept ignored c = true := by
  obtain ⟨htype, hsame⟩ := (sameValuesExcept_iff_alike ha hb).1 hab
  obtain ⟨htype', hsame'⟩ := (sameValuesExcept_iff_alike hb hc).1 hbc
  refine (sameValuesExcept_iff_alike ha hc).2 ⟨htype.trans htype', fun name hname u hu => ?_⟩
  obtain ⟨v, hv, huv⟩ := hsame name hname u hu
  obtain ⟨w, hw, hvw⟩ := hsame' name hname v hv
  exact ⟨w, hw, huv.trans hvw⟩

/-- A record that has the values of the first has its compared names. -/
theorem comparedNames_subset (ha : a.Filled) (hb : b.Filled)
    (h : a.sameValuesExcept ignored b = true) :
    a.schema.comparedNames ignored ⊆ b.schema.comparedNames ignored := by
  intro name hname
  rw [Schema.mem_comparedNames_iff, ← ha.isSome_slot_eq] at hname
  obtain ⟨v, hv⟩ := Option.isSome_iff_exists.1 hname.1
  obtain ⟨w, hw, -⟩ := ((sameValuesExcept_iff ha.nodup).1 h).2 name hname.2 v hv
  rw [Schema.mem_comparedNames_iff, ← hb.isSome_slot_eq, hw]
  exact ⟨rfl, hname.2⟩

/-- **Symmetry** is a matter of the compared names alone. -/
theorem sameValuesExcept_symm_iff (ha : a.WellFormed) (hb : b.WellFormed)
    (h : a.sameValuesExcept ignored b = true) :
    b.sameValuesExcept ignored a = true ↔
      b.schema.comparedNames ignored ⊆ a.schema.comparedNames ignored := by
  refine ⟨comparedNames_subset hb.filled ha.filled, fun hsubset => ?_⟩
  obtain ⟨htype, hsame⟩ := (sameValuesExcept_iff_alike ha.toDistinct hb.toDistinct).1 h
  refine (sameValuesExcept_iff_alike hb.toDistinct ha.toDistinct).2 ⟨htype.symm, ?_⟩
  intro name hname w hw
  have hdeclares : b.schema.declares name = true := by
    rw [← hb.filled.isSome_slot_eq, hw]
    rfl
  have hmem := hsubset (Schema.mem_comparedNames_iff.2 ⟨hdeclares, hname⟩)
  rw [Schema.mem_comparedNames_iff, ← ha.filled.isSome_slot_eq] at hmem
  obtain ⟨v, hv⟩ := Option.isSome_iff_exists.1 hmem.1
  obtain ⟨w', hw', halike⟩ := hsame name hname v hv
  obtain rfl := Option.some.inj (hw.symm.trans hw')
  exact ⟨v, hv, halike.symm⟩

/-! ### Versions of a schema -/

/-- New records have the same values when the second has the compared names of the first. -/
theorem sameValuesExcept_new (id id' : Ulid) (hname : s.name = t.name)
    (hsubset : s.comparedNames ignored ⊆ t.comparedNames ignored) :
    (new id s).sameValuesExcept ignored (new id' t) = true := by
  refine (sameValuesExcept_iff (filled_new id s).nodup).2 ⟨hname, fun name hignored v hv => ?_⟩
  obtain ⟨rfl, hdeclared⟩ := get?_new_eq_some hv
  have hmem := hsubset (Schema.mem_comparedNames_iff.2
    ⟨Schema.declares_iff.2 hdeclared, hignored⟩)
  obtain ⟨w, hw⟩ : ∃ w, (new id' t).slots.get? name = some w := by
    rw [← Option.isSome_iff_exists, (filled_new id' t).isSome_slot_eq]
    exact (Schema.mem_comparedNames_iff.1 hmem).1
  obtain ⟨rfl, -⟩ := get?_new_eq_some hw
  exact ⟨.absent, hw, rfl⟩

/-- The records that are built on a schema of a set. -/
def ofVersions (versions : Set Schema) : Set Record := {r | ∃ s ∈ versions, r.BuiltOn s}

/-- Whether the second of two records has the values of the first. -/
def HasValues (ignored : List String) (versions : Set Schema) (a b : ofVersions versions) : Prop :=
  a.1.sameValuesExcept ignored b.1 = true

/-- Records of whatever versions are well formed. -/
theorem wellFormed_of_mem_ofVersions {versions : Set Schema} (h : a ∈ ofVersions versions) :
    a.WellFormed := by
  obtain ⟨s, -, hs⟩ := h
  exact hs.wellFormed

/-- **The comparison of records, by its laws:** it is reflexive and transitive on the
records of any versions of any schemas. It can be turned round exactly when the second
record has no compared name that the first has not; so it is an equivalence exactly when
no version outgrows another of its entity type. -/
theorem equivalence_iff_noneOutgrown (ignored : List String) (versions : Set Schema) :
    (∀ a, HasValues ignored versions a a)
      ∧ (∀ a b c, HasValues ignored versions a b → HasValues ignored versions b c →
        HasValues ignored versions a c)
      ∧ (∀ a b, HasValues ignored versions a b →
        (HasValues ignored versions b a ↔
          b.1.schema.comparedNames ignored ⊆ a.1.schema.comparedNames ignored))
      ∧ (Equivalence (HasValues ignored versions) ↔ Schema.NoneOutgrown ignored versions) := by
  have hwf (a : ofVersions versions) : a.1.WellFormed := wellFormed_of_mem_ofVersions a.2
  have hrefl (a) : HasValues ignored versions a a := sameValuesExcept_refl (hwf a).toDistinct
  have htrans (a b c) (hab : HasValues ignored versions a b)
      (hbc : HasValues ignored versions b c) : HasValues ignored versions a c :=
    sameValuesExcept_trans (hwf a).toDistinct (hwf b).toDistinct (hwf c).toDistinct hab hbc
  have hsymm (a b) (h : HasValues ignored versions a b) : HasValues ignored versions b a ↔
      b.1.schema.comparedNames ignored ⊆ a.1.schema.comparedNames ignored :=
    sameValuesExcept_symm_iff (hwf a) (hwf b) h
  refine ⟨hrefl, htrans, hsymm, ⟨fun heq s hs t ht hname hsubset => ?_, fun hnone => ?_⟩⟩
  · -- The records with no value at all tell the versions apart.
    let blank (s : Schema) (hs : s ∈ versions) : ofVersions versions :=
      ⟨new ⟨0⟩ s, s, hs, .new ⟨0⟩⟩
    have hsame : HasValues ignored versions (blank s hs) (blank t ht) :=
      sameValuesExcept_new ⟨0⟩ ⟨0⟩ hname hsubset
    exact (hsymm _ _ hsame).1 (heq.symm hsame)
  · -- Only symmetry is in question, and it is a matter of the names that are compared.
    refine ⟨hrefl, fun {a b} h => (hsymm a b h).2 ?_, fun {a b c} => htrans a b c⟩
    obtain ⟨s, hs, ha⟩ := a.2
    obtain ⟨t, ht, hb⟩ := b.2
    have hsubset := comparedNames_subset (hwf a).filled (hwf b).filled h
    have htype : a.1.entityType = b.1.entityType := ((sameValuesExcept_iff (hwf a).nodup).1 h).1
    rw [entityType, entityType, ha.schema_eq, hb.schema_eq] at htype
    rw [ha.schema_eq, hb.schema_eq] at hsubset ⊢
    exact hnone s hs t ht htype hsubset

/-! ### A field that came later -/

/-- A schema of machines that have a name. -/
def namedSchema : Schema where
  name := "machine"
  label := "Machine"
  labelField := "name"
  fields := [.string "name" "Name"]

/-- A later version, on which machines have a zone as well. -/
def zonedSchema : Schema := namedSchema.addField (.string "zone" "Zone")

/-- The machine `web` under the earlier version. -/
def namedWeb : Record where
  id := ⟨1⟩
  schema := namedSchema
  slots := ⟨[("name", .string "web")]⟩

/-- The machine `web` in the zone `a` under the later version. -/
def zonedWeb : Record where
  id := ⟨2⟩
  schema := zonedSchema
  slots := ⟨[("name", .string "web"), ("zone", .string "a")]⟩

theorem namedWeb_mem : namedWeb ∈ ofVersions {namedSchema, zonedSchema} := by
  have hset : (new ⟨1⟩ namedSchema).set "name" (.string "web") = .ok namedWeb := rfl
  exact ⟨namedSchema, .inl rfl, .set (.new ⟨1⟩) (fun _ h => by cases h) hset⟩

theorem zonedWeb_mem : zonedWeb ∈ ofVersions {namedSchema, zonedSchema} := by
  have hset : ((new ⟨2⟩ zonedSchema).set "name" (.string "web") >>=
      fun r => r.set "zone" (.string "a")) = .ok zonedWeb := rfl
  obtain ⟨r, hr, hset⟩ := bind_eq_ok_iff.1 hset
  exact ⟨zonedSchema, .inr rfl,
    .set (.set (.new ⟨2⟩) (fun _ h => by cases h) hr) (fun _ h => by cases h) hset⟩

/-- **The comparison is no equivalence:** the machine with a zone has the values of the
one without, which does not have those of the machine with a zone. -/
theorem not_equivalence_zoned :
    namedWeb.sameValuesExcept [] zonedWeb = true ∧ zonedWeb.sameValuesExcept [] namedWeb = false
      ∧ ¬ Equivalence (HasValues [] {namedSchema, zonedSchema}) := by
  have hback : zonedWeb.sameValuesExcept [] namedWeb = false := by decide
  refine ⟨by decide, hback, fun heq => ?_⟩
  have hturned : zonedWeb.sameValuesExcept [] namedWeb = true :=
    heq.symm (show HasValues [] _ ⟨namedWeb, namedWeb_mem⟩ ⟨zonedWeb, zonedWeb_mem⟩ by
      change namedWeb.sameValuesExcept [] zonedWeb = true
      decide)
  rw [hback] at hturned
  cases hturned

end Record
end Inventory
