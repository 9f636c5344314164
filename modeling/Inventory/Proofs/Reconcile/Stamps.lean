/-
# Stamps

`stamp`, for `created`, `changed` and `refreshed`.

On a schema that declares the three stamps, what is stored for a reported record has
all of them (`fresh_stamps`, `matched_stamps`):

| stamp | key is new | key is stored |
| --- | --- | --- |
| `created` | that of the record, else the time | that of the stored record |
| `changed` | the time | the time if a value differs, else that of the stored record |
| `refreshed` | the time | the time |

A value differs when the record and the stored one do not have equal values in some
field that is no stamp. That does not depend on the stamps of either
(`sameValuesExcept_eq_false_iff`).
-/

import Inventory.Proofs.Reconcile.Settled
import Inventory.Proofs.Record.Comparison

namespace Inventory

namespace Reconcile

/-- Two records that have different values in a field that is no stamp. -/
def Differ (earlier later : Record) : Prop :=
  ∃ name ∉ stampFields, ∃ v w, earlier.slots.get? name = some v
    ∧ later.slots.get? name = some w ∧ (v == w) = false

/-- The schema declares the three stamps. -/
def DeclaresStamps (s : Schema) : Prop := ∀ field ∈ stampFields, s.declares field = true

instance (s : Schema) : Decidable (DeclaresStamps s) :=
  inferInstanceAs (Decidable (∀ field ∈ stampFields, s.declares field = true))

variable {now : Timestamp} {r r' existing : Record} {field : String} {v : FieldValue}

/-! ### Setting a stamp -/

/-- A declared field that is stamped holds the stamp, and the others what they held. -/
theorem get?_stamp (hdeclares : r.schema.declares field = true) (h : stamp r field v = .ok r')
    (name : String) :
    r'.slots.get? name = if name = field then some v else r.slots.get? name := by
  rw [stamp, if_pos hdeclares] at h
  obtain ⟨f, -, -, rfl⟩ := Record.set_eq_ok_iff.1 h
  split
  · rename_i hname
    rw [hname, OrderedMap.get?_insert_self]
  · rename_i hname
    exact OrderedMap.get?_insert_of_ne hname r.slots v

/-- Stamping adds no slot. -/
theorem nodup_stamp (hr : r.slots.keys.Nodup) (h : stamp r field v = .ok r') :
    r'.slots.keys.Nodup := by
  unfold stamp at h
  split at h
  · obtain ⟨f, -, -, rfl⟩ := Record.set_eq_ok_iff.1 h
    exact OrderedMap.nodup_keys_insert hr field v
  · exact Except.ok.inj h ▸ hr

/-- Copying a stamp stamps with what the other record holds. -/
theorem copyStamp_eq_stamp (hv : existing.slots.get? field = some v) :
    copyStamp r existing field = stamp r field v := by
  rw [copyStamp, hv]

/-! ### Differences -/

/-- **Stamps make no difference:** a record with other stamps differs from a stored one
exactly when the reported records that they come from differ. -/
theorem sameValuesExcept_eq_false_iff {earlier later : Record}
    (hschema : earlier.schema = later.schema) (hkeys : earlier.slots.keys = later.slots.keys)
    (hexisting : Restamped existing earlier) (hr : Restamped r later)
    (hnodup : r.slots.keys.Nodup) :
    r.sameValuesExcept stampFields existing = false ↔ Differ earlier later := by
  have htype : r.entityType = existing.entityType := by
    rw [Record.entityType, Record.entityType, hr.schema, hexisting.schema, hschema]
  rw [← Bool.not_eq_true, Record.sameValuesExcept_iff hnodup]
  constructor
  · intro h
    simp only [htype, true_and, not_forall, not_exists, not_and, Bool.not_eq_true] at h
    obtain ⟨name, hname, w, hw, hdiffer⟩ := h
    rw [hr.slots name hname] at hw
    obtain ⟨v, hv⟩ : ∃ v, earlier.slots.get? name = some v := by
      rw [← Option.isSome_iff_exists, OrderedMap.isSome_get?_iff, hkeys,
        ← OrderedMap.isSome_get?_iff, hw]
      rfl
    exact ⟨name, hname, v, w, hv, hw, hdiffer v (by rw [hexisting.slots name hname, hv])⟩
  · rintro ⟨name, hname, v, w, hv, hw, hdiffer⟩ ⟨-, hsame⟩
    rw [← hr.slots name hname] at hw
    obtain ⟨v', hv', hequal⟩ := hsame name hname w hw
    rw [hexisting.slots name hname, hv] at hv'
    rw [← Option.some.inj hv', hdiffer] at hequal
    cases hequal

/-! ### All three stamps -/

/-- The stamps of a record. -/
structure HasStamps (r : Record) (created changed refreshed : FieldValue) : Prop where
  created : r.slots.get? createdField = some created
  changed : r.slots.get? changedField = some changed
  refreshed : r.slots.get? refreshedField = some refreshed

/-- The last two stamps of a record leave its creation stamp alone. -/
theorem hasStamps_of_stamp {r₁ r₂ : Record} {created changed refreshed : FieldValue}
    (hschema : DeclaresStamps r₁.schema) (h₁ : r₁.slots.get? createdField = some created)
    (h₂ : stamp r₁ changedField changed = .ok r₂)
    (h₃ : stamp r₂ refreshedField refreshed = .ok r') :
    HasStamps r' created changed refreshed := by
  have hschema₂ : r₂.schema = r₁.schema := (stamp_eq_ok (by decide) h₂).1.schema
  have hget₂ := get?_stamp (hschema changedField (by decide)) h₂
  have hget₃ := get?_stamp (hschema₂ ▸ hschema refreshedField (by decide)) h₃
  refine ⟨?_, ?_, ?_⟩
  · rw [hget₃, if_neg (by decide), hget₂, if_neg (by decide), h₁]
  · rw [hget₃, if_neg (by decide), hget₂, if_pos rfl]
  · rw [hget₃, if_pos rfl]

/-- **The stamps of a record whose key is new.** -/
theorem fresh_stamps {o : Outcome} (hschema : DeclaresStamps r.schema)
    (h : fresh now r = .ok (r', o)) :
    HasStamps r' (createdOr now r) (.timestamp now) (.timestamp now) := by
  obtain ⟨r₁, r₂, h₁, h₂, h₃⟩ := fresh_cases h
  obtain ⟨hschema₁, hcreated⟩ : r₁.schema = r.schema
      ∧ r₁.slots.get? createdField = some (createdOr now r) := by
    rcases h₁ with ⟨hcreated, h₁⟩ | ⟨hcreated, rfl⟩
    · refine ⟨(stamp_eq_ok (by decide) h₁).1.schema, ?_⟩
      rw [get?_stamp (hschema createdField (by decide)) h₁, if_pos rfl, hcreated]
    · exact ⟨rfl, hcreated⟩
  exact hasStamps_of_stamp (hschema₁ ▸ hschema) hcreated h₂ h₃

/-- **The stamps of a record whose key is stored**, where `earlier` was reported for the
stored record. -/
theorem matched_stamps {o : Outcome} {earlier : Record} {created changed refreshed : FieldValue}
    (hschema : DeclaresStamps r.schema) (hr : r.slots.keys.Nodup)
    (hsame : earlier.schema = r.schema) (hkeys : earlier.slots.keys = r.slots.keys)
    (hexisting : Restamped existing earlier)
    (hstamps : HasStamps existing created changed refreshed)
    (h : matched now existing r = .ok (r', o)) :
    (Differ earlier r → HasStamps r' created (.timestamp now) (.timestamp now))
      ∧ (¬ Differ earlier r → HasStamps r' created changed (.timestamp now)) := by
  obtain ⟨r₁, r₂, h₁, h₂, h₃⟩ := matched_cases h
  rw [copyStamp_eq_stamp hstamps.created] at h₁
  have hmoved : Restamped (r.withId existing.id) r := ⟨rfl, fun _ _ => rfl⟩
  have hr₁ : Restamped r₁ r := (stamp_eq_ok (by decide) h₁).1.trans hmoved
  have hnodup : r₁.slots.keys.Nodup := nodup_stamp (r := r.withId existing.id) hr h₁
  have hschema₁ : DeclaresStamps r₁.schema := hr₁.schema ▸ hschema
  have hdiffer := sameValuesExcept_eq_false_iff hsame hkeys hexisting hr₁ hnodup
  have hcreated : r₁.slots.get? createdField = some created := by
    rw [get?_stamp (r := r.withId existing.id) (hschema createdField (by decide)) h₁, if_pos rfl]
  rcases h₂ with ⟨hequal, h₂⟩ | ⟨hequal, h₂⟩
  · rw [copyStamp_eq_stamp hstamps.changed] at h₂
    refine ⟨fun hd => ?_, fun _ => hasStamps_of_stamp hschema₁ hcreated h₂ h₃⟩
    rw [hdiffer.2 hd] at hequal
    cases hequal
  · exact ⟨fun _ => hasStamps_of_stamp hschema₁ hcreated h₂ h₃,
      fun hd => absurd (hdiffer.1 hequal) hd⟩

end Reconcile
end Inventory
