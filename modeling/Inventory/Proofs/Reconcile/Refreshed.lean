/-
# Records apart from their refreshed stamp

The stamp `refreshed` of `reconcile`.

A reconciliation gives every record that it saves a new refreshed stamp, so this stamp alone
says nothing about a change (`SameButRefreshed`). A record whose key is stored is counted as
unchanged exactly when what is saved for it is the stored record apart from that stamp
(`unchanged_iff_of_matched_eq_ok`):

| slot | what is saved |
| --- | --- |
| `created` | the stored value |
| `changed` | the stored value, if the record counts as unchanged |
| `refreshed` | the time |
| any other | the reported value, which equals the stored one if the record counts as unchanged |

Both records are filled on one schema, so they have the same slots.
-/

import Inventory.Proofs.Reconcile.Stamps
import Inventory.Proofs.Record.Equality

namespace Inventory
namespace Reconcile

variable {now : Timestamp} {r r' existing u : Record} {field : String} {v : FieldValue}
  {o : Outcome}

/-! ### What stamping keeps -/

/-- Stamping one field leaves the others. -/
theorem get?_stamp_of_ne (h : stamp r field v = .ok r') {name : String} (hname : name ≠ field) :
    r'.slots.get? name = r.slots.get? name := by
  unfold stamp at h
  split at h
  · obtain ⟨f, -, -, rfl⟩ := Record.set_eq_ok_iff.1 h
    exact OrderedMap.get?_insert_of_ne hname r.slots v
  · rw [← Except.ok.inj h]

/-- Copying a stamp leaves the other fields. -/
theorem get?_copyStamp_of_ne (h : copyStamp r existing field = .ok r') {name : String}
    (hname : name ≠ field) : r'.slots.get? name = r.slots.get? name := by
  unfold copyStamp at h
  split at h
  · exact get?_stamp_of_ne h hname
  · rw [← Except.ok.inj h]

/-- A stamped record is well formed. -/
theorem wellFormed_stamp (hr : r.WellFormed) (hv : v.Distinct) (h : stamp r field v = .ok r') :
    r'.WellFormed := by
  unfold stamp at h
  split at h
  · exact hr.set hv h
  · exact Except.ok.inj h ▸ hr

theorem wellFormed_copyStamp (hr : r.WellFormed) (hexisting : existing.WellFormed)
    (h : copyStamp r existing field = .ok r') : r'.WellFormed := by
  unfold copyStamp at h
  split at h
  · rename_i v hv
    exact wellFormed_stamp hr (hexisting.rows field v hv) h
  · exact Except.ok.inj h ▸ hr

theorem distinct_timestamp (now : Timestamp) : (FieldValue.timestamp now).Distinct :=
  fun _ h => by cases h

/-- A stamp is copied together with whether it is declared. -/
theorem get?_copyStamp (hr : r.Filled) (hexisting : existing.Filled)
    (hschema : r.schema = existing.schema) (h : copyStamp r existing field = .ok r') :
    r'.slots.get? field = existing.slots.get? field := by
  unfold copyStamp at h
  split at h
  · rename_i v hv
    have hdeclares : r.schema.declares field = true := by
      rw [hschema, ← hexisting.isSome_slot_eq, hv]
      rfl
    rw [get?_stamp hdeclares h, if_pos rfl, hv]
  · rename_i hnone
    have hdeclares : r.schema.declares field = false := by
      rw [hschema, ← hexisting.isSome_slot_eq, hnone]
      rfl
    rw [← Except.ok.inj h, hr.get?_eq_none hdeclares, hnone]

/-- **What is saved for a stored key** is well formed. -/
theorem wellFormed_of_matched_eq_ok (hr : r.WellFormed) (hexisting : existing.WellFormed)
    (h : matched now existing r = .ok (u, o)) : u.WellFormed := by
  obtain ⟨r₁, r₂, h₁, h₂, h₃⟩ := matched_cases h
  have hr₁ := wellFormed_copyStamp (hr.withId existing.id) hexisting h₁
  have hr₂ : r₂.WellFormed := by
    rcases h₂ with ⟨-, h₂⟩ | ⟨-, h₂⟩
    · exact wellFormed_copyStamp hr₁ hexisting h₂
    · exact wellFormed_stamp hr₁ (distinct_timestamp now) h₂
  exact wellFormed_stamp hr₂ (distinct_timestamp now) h₃

/-- **What is saved for a new key** is well formed. -/
theorem wellFormed_of_fresh_eq_ok (hr : r.WellFormed) (h : fresh now r = .ok (u, o)) :
    u.WellFormed := by
  obtain ⟨r₁, r₂, h₁, h₂, h₃⟩ := fresh_cases h
  have hr₁ : r₁.WellFormed := by
    rcases h₁ with ⟨-, h₁⟩ | ⟨-, rfl⟩
    · exact wellFormed_stamp hr (distinct_timestamp now) h₁
    · exact hr
  have hr₂ := wellFormed_stamp hr₁ (distinct_timestamp now) h₂
  exact wellFormed_stamp hr₂ (distinct_timestamp now) h₃

/-- What is stored for a well-formed record is well formed. -/
theorem Settles.wellFormed {stored : Option Record} (h : Settles now stored r u)
    (hr : r.WellFormed) (hstored : ∀ existing, stored = some existing → existing.WellFormed) :
    u.WellFormed := by
  cases h with
  | matched h => exact wellFormed_of_matched_eq_ok hr (hstored _ rfl) h
  | fresh h => exact wellFormed_of_fresh_eq_ok hr h

/-! ### Records that are the same but for the stamp -/

/-- A record without its refreshed stamp. -/
def unrefreshed (r : Record) : Record := { r with slots := r.slots.erase refreshedField }

/-- Whether two records are equal apart from their refreshed stamps. -/
def SameButRefreshed (r r' : Record) : Prop := (unrefreshed r == unrefreshed r') = true

instance (r r' : Record) : Decidable (SameButRefreshed r r') :=
  inferInstanceAs (Decidable (_ = true))

/-- Apart from the refreshed stamp, equal records have equal slots. -/
theorem sameButRefreshed_iff (hr : r.slots.keys.Nodup) (hr' : r'.slots.keys.Nodup) :
    SameButRefreshed r r' ↔ r.id = r'.id ∧ r.schema = r'.schema
      ∧ ∀ name, name ≠ refreshedField →
        OrderedMap.SameLookup (r.slots.get? name) (r'.slots.get? name) := by
  have herase (m : OrderedMap String FieldValue) (hm : m.keys.Nodup) :
      (m.erase refreshedField).keys.Nodup := OrderedMap.nodup_keys_filter hm _
  change Record.sameAs (unrefreshed r) (unrefreshed r') = true ↔ _
  simp only [Record.sameAs, unrefreshed, Bool.and_eq_true, and_assoc,
    OrderedMap.beq_iff_get? (herase _ hr) (herase _ hr'), OrderedMap.get?_erase]
  refine and_congr decide_eq_true_iff (and_congr decide_eq_true_iff ?_)
  constructor
  · intro h name hname
    have := h name
    rwa [if_neg hname, if_neg hname] at this
  · intro h name
    by_cases hname : name = refreshedField
    · rw [if_pos hname, if_pos hname]
      exact .none
    · rw [if_neg hname, if_neg hname]
      exact h name hname

/-- What a record holds is equal to itself. -/
theorem sameLookup_self (h : r.Distinct) (name : String) :
    OrderedMap.SameLookup (r.slots.get? name) (r.slots.get? name) := by
  cases hv : r.slots.get? name with
  | none => exact .none
  | some v => exact .some ((h.rows name v hv).alike_self.beq)

theorem SameButRefreshed.refl (h : r.Distinct) : SameButRefreshed r r :=
  (sameButRefreshed_iff h.nodup h.nodup).2 ⟨rfl, rfl, fun name _ => sameLookup_self h name⟩

/-- Records apart from their refreshed stamp have one identifier. -/
theorem SameButRefreshed.id_eq (h : SameButRefreshed r r') : r.id = r'.id := by
  change Record.sameAs (unrefreshed r) (unrefreshed r') = true at h
  simp only [Record.sameAs, Bool.and_eq_true, decide_eq_true_eq] at h
  exact h.1.1

/-! ### When a record counts as unchanged -/

/-- On records that are filled on one schema, values are the same when all lookups are. -/
theorem sameValuesExcept_iff_sameLookup {ignored : List String} (hr : r.Filled)
    (hexisting : existing.Filled) (hschema : r.schema = existing.schema) :
    r.sameValuesExcept ignored existing = true ↔ ∀ name ∉ ignored,
      OrderedMap.SameLookup (existing.slots.get? name) (r.slots.get? name) := by
  have htype : r.entityType = existing.entityType := congrArg Schema.name hschema
  have hsome (name : String) :
      (existing.slots.get? name).isSome = (r.slots.get? name).isSome := by
    rw [hexisting.isSome_slot_eq, hr.isSome_slot_eq, hschema]
  rw [Record.sameValuesExcept_iff hr.nodup]
  simp only [htype, true_and]
  refine forall_congr' fun name => forall_congr' fun _ => ?_
  constructor
  · intro h
    refine OrderedMap.rel_of_isSome_eq (hsome name) fun w v hw hv => ?_
    obtain ⟨w', hw', hequal⟩ := h v hv
    rwa [Option.some.inj (hw.symm.trans hw')]
  · intro h v hv
    rw [hv] at h
    obtain ⟨w, hw, hequal⟩ := OrderedMap.exists_of_rel_some h
    exact ⟨w, hw, hequal⟩

/-- **A record counts as unchanged** when what is saved is the stored record apart from the
refreshed stamp. -/
theorem unchanged_iff_of_matched_eq_ok (hr : r.WellFormed) (hexisting : existing.WellFormed)
    (hschema : r.schema = existing.schema) (h : matched now existing r = .ok (u, o)) :
    o = .unchanged ↔ SameButRefreshed existing u := by
  have hu := wellFormed_of_matched_eq_ok hr hexisting h
  obtain ⟨hrestamped, hid⟩ := matched_eq_ok h
  obtain ⟨r₁, r₂, h₁, h₂, h₃⟩ := matched_eq_ok_iff.1 h
  have hr₁ := wellFormed_copyStamp (hr.withId existing.id) hexisting h₁
  have hschema₁ : r₁.schema = existing.schema :=
    (copyStamp_eq_ok (by decide) h₁).1.schema.trans hschema
  have hother : ∀ name ∉ stampFields, u.slots.get? name = r₁.slots.get? name := by
    intro name hname
    have hmoved : Restamped r₁ (r.withId existing.id) := (copyStamp_eq_ok (by decide) h₁).1
    exact (hrestamped.slots name hname).trans (hmoved.slots name hname).symm
  have hsameValues : r₁.sameValuesExcept stampFields existing = true ↔ ∀ name ∉ stampFields,
      OrderedMap.SameLookup (existing.slots.get? name) (u.slots.get? name) := by
    rw [sameValuesExcept_iff_sameLookup hr₁.filled hexisting.filled hschema₁]
    exact forall_congr' fun name => forall_congr' fun hname => by rw [hother name hname]
  rw [sameButRefreshed_iff hexisting.nodup hu.nodup]
  rcases h₂ with ⟨hsame, h₂, rfl⟩ | ⟨hsame, -, rfl⟩
  · -- all stamps but the last are copied
    have hcreated : u.slots.get? createdField = existing.slots.get? createdField := by
      rw [get?_stamp_of_ne h₃ (by decide), get?_copyStamp_of_ne h₂ (by decide),
        get?_copyStamp (hr.withId existing.id).filled hexisting.filled hschema h₁]
    have hchanged : u.slots.get? changedField = existing.slots.get? changedField := by
      rw [get?_stamp_of_ne h₃ (by decide),
        get?_copyStamp hr₁.filled hexisting.filled hschema₁ h₂]
    refine iff_of_true rfl ⟨hid.symm, hschema.symm.trans hrestamped.schema.symm, ?_⟩
    intro name hname
    by_cases hstamp : name ∈ stampFields
    · have hcases : name = createdField ∨ name = changedField := by
        simpa [stampFields, hname] using hstamp
      rcases hcases with rfl | rfl
      · exact hcreated ▸ sameLookup_self hexisting.toDistinct _
      · exact hchanged ▸ sameLookup_self hexisting.toDistinct _
    · exact hsameValues.1 hsame name hstamp
  · -- the comparison found a slot that differs, and no stamp
    refine iff_of_false nofun fun ⟨_, _, hlookups⟩ => ?_
    have hequal := hsameValues.2 fun name hname =>
      hlookups name fun hrefreshed => hname (hrefreshed ▸ by decide)
    rw [hsame] at hequal
    cases hequal

end Reconcile
end Inventory
