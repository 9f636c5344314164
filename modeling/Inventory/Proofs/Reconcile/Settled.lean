/-
# The record that is stored for a reported key

What `reconcile` stores for a reported record, by `same_values_except` and `stamp`.

A record whose key is stored is given stamps in one way (`matched_eq_ok_iff`), a record
whose key is new in another (`fresh_eq_ok_iff`). Whichever stamps it is given, its other
values stay, and so does its schema (`Settles.restamped`). It takes the identifier of
the stored record of its key, when there is one.
-/

import Inventory.Proofs.Except
import Inventory.Proofs.Reconcile.Scope
import Inventory.Proofs.Record.Slots

namespace Inventory
namespace Reconcile

namespace Restamped

theorem refl (r : Record) : Restamped r r := ⟨rfl, fun _ _ => rfl⟩

/-- Restamping twice is restamping. -/
theorem trans {r₁ r₂ r₃ : Record} (h : Restamped r₁ r₂) (h' : Restamped r₂ r₃) :
    Restamped r₁ r₃ where
  schema := h.schema.trans h'.schema
  slots name hname := (h.slots name hname).trans (h'.slots name hname)

/-- Restamping keeps the entity type. -/
theorem entityType_eq {r' r : Record} (h : Restamped r' r) : r'.entityType = r.entityType := by
  rw [Record.entityType, h.schema]
  rfl

/-- Restamping keeps the cloud context. -/
theorem cloudContext?_eq {r' r : Record} (h : Restamped r' r) :
    r'.cloudContext? = r.cloudContext? := by
  have hslot := h.slots Record.contextField (by decide)
  simp only [Record.cloudContext?, Record.get, Record.value, hslot, h.entityType_eq]

/-- A scope covers a record whatever its stamps. -/
theorem covers_iff {r' r : Record} (h : Restamped r' r) {scope : Scope} :
    scope.Covers r' ↔ scope.Covers r := by
  rw [Scope.Covers, h.entityType_eq, h.cloudContext?_eq, Scope.Covers]

/-- Outside the stamps the text of a field does not depend on the stamps. -/
theorem text?_eq {r' r : Record} (h : Restamped r' r) {field : String}
    (hfield : field ∉ stampFields) : r'.text? field = r.text? field := by
  rw [Record.text?, h.slots _ hfield]
  rfl

/-- The key of a record does not depend on its stamps. -/
theorem key?_eq {r' r : Record} (h : Restamped r' r) {scope : Scope}
    (hkey : scope.keyField ∉ stampFields) : scope.key? r' = scope.key? r := by
  simp only [Scope.key?, h.entityType_eq, h.text?_eq hkey, h.cloudContext?_eq]

end Restamped

/-- Stamping restamps, and keeps the identifier. -/
theorem stamp_eq_ok {r r' : Record} {field : String} {v : FieldValue}
    (hfield : field ∈ stampFields) (h : stamp r field v = .ok r') :
    Restamped r' r ∧ r'.id = r.id := by
  unfold stamp at h
  split at h
  · obtain ⟨f, -, -, rfl⟩ := Record.set_eq_ok_iff.1 h
    refine ⟨⟨rfl, fun name hname => ?_⟩, rfl⟩
    have hne : name ≠ field := fun e => hname (e ▸ hfield)
    exact OrderedMap.get?_insert_of_ne hne r.slots v
  · obtain rfl := Except.ok.inj h
    exact ⟨.refl r, rfl⟩

/-- So does copying a stamp. -/
theorem copyStamp_eq_ok {r r' source : Record} {field : String}
    (hfield : field ∈ stampFields) (h : copyStamp r source field = .ok r') :
    Restamped r' r ∧ r'.id = r.id := by
  unfold copyStamp at h
  split at h
  · exact stamp_eq_ok hfield h
  · obtain rfl := Except.ok.inj h
    exact ⟨.refl r, rfl⟩

/-- What is done to a record whose key is stored, and what has become of it: the change stamp
is the only one that depends on the values. -/
theorem matched_eq_ok_iff {now : Timestamp} {existing r r' : Record} {o : Outcome} :
    matched now existing r = .ok (r', o) ↔
      ∃ r₁ r₂, copyStamp (r.withId existing.id) existing createdField = .ok r₁
        ∧ (r₁.sameValuesExcept stampFields existing = true
            ∧ copyStamp r₁ existing changedField = .ok r₂ ∧ o = .unchanged
          ∨ r₁.sameValuesExcept stampFields existing = false
            ∧ stamp r₁ changedField (.timestamp now) = .ok r₂ ∧ o = .updated)
        ∧ stamp r₂ refreshedField (.timestamp now) = .ok r' := by
  rw [matched, bind_eq_ok_iff]
  refine exists_congr fun r₁ => ?_
  rw [exists_and_left]
  refine and_congr_right fun _ => ?_
  by_cases hsame : r₁.sameValuesExcept stampFields existing = true
  · simp [-exists_and_left, hsame, bind_eq_ok_iff, pure, Except.pure, and_assoc, and_comm,
      and_left_comm, @eq_comm _ o]
  · simp [-exists_and_left, hsame, bind_eq_ok_iff, pure, Except.pure, and_assoc, and_comm,
      and_left_comm, @eq_comm _ o]

/-- The steps of a record whose key is stored. -/
theorem matched_cases {now : Timestamp} {existing r r' : Record} {o : Outcome}
    (h : matched now existing r = .ok (r', o)) :
    ∃ r₁ r₂, copyStamp (r.withId existing.id) existing createdField = .ok r₁
      ∧ (r₁.sameValuesExcept stampFields existing = true
          ∧ copyStamp r₁ existing changedField = .ok r₂
        ∨ r₁.sameValuesExcept stampFields existing = false
          ∧ stamp r₁ changedField (.timestamp now) = .ok r₂)
      ∧ stamp r₂ refreshedField (.timestamp now) = .ok r' := by
  obtain ⟨r₁, r₂, h₁, h₂, h₃⟩ := matched_eq_ok_iff.1 h
  refine ⟨r₁, r₂, h₁, ?_, h₃⟩
  rcases h₂ with ⟨hsame, h₂, -⟩ | ⟨hsame, h₂, -⟩
  · exact .inl ⟨hsame, h₂⟩
  · exact .inr ⟨hsame, h₂⟩

/-- The creation stamp of a record whose key is new: its own one, if it has one. -/
def createdOr (now : Timestamp) (r : Record) : FieldValue :=
  match r.slots.get? createdField with
  | none | some .absent => .timestamp now
  | some v => v

/-- The creation stamp of a record whose key is new. -/
def freshStamp (now : Timestamp) (r : Record) : Except RecordError Record :=
  match r.slots.get? createdField with
  | none | some .absent => stamp r createdField (.timestamp now)
  | some _ => .ok r

/-- What is done to a record whose key is new: the creation stamp is the only one that depends
on the record. -/
theorem fresh_eq_ok_iff {now : Timestamp} {r r' : Record} {o : Outcome} :
    fresh now r = .ok (r', o) ↔
      ∃ r₁ r₂, freshStamp now r = .ok r₁ ∧ stamp r₁ changedField (.timestamp now) = .ok r₂
        ∧ stamp r₂ refreshedField (.timestamp now) = .ok r' ∧ o = .created := by
  have hfresh : fresh now r = do
      let r₁ ← freshStamp now r
      let r₂ ← stamp r₁ changedField (.timestamp now)
      return (← stamp r₂ refreshedField (.timestamp now), .created) := by
    unfold fresh freshStamp
    cases r.slots.get? createdField with
    | none => rfl
    | some v => cases v <;> rfl
  rw [hfresh]
  simp [bind_eq_ok_iff, pure, Except.pure, @eq_comm _ o]

/-- The steps of a record whose key is new. -/
theorem fresh_cases {now : Timestamp} {r r' : Record} {o : Outcome}
    (h : fresh now r = .ok (r', o)) :
    ∃ r₁ r₂, (createdOr now r = .timestamp now ∧ stamp r createdField (.timestamp now) = .ok r₁
        ∨ r.slots.get? createdField = some (createdOr now r) ∧ r₁ = r)
      ∧ stamp r₁ changedField (.timestamp now) = .ok r₂
      ∧ stamp r₂ refreshedField (.timestamp now) = .ok r' := by
  obtain ⟨r₁, r₂, h₁, h₂, h₃, -⟩ := fresh_eq_ok_iff.1 h
  refine ⟨r₁, r₂, ?_, h₂, h₃⟩
  unfold freshStamp at h₁
  unfold createdOr
  cases hslot : r.slots.get? createdField with
  | none =>
    rw [hslot] at h₁
    exact .inl ⟨rfl, h₁⟩
  | some v =>
    rw [hslot] at h₁
    cases v with
    | absent => exact .inl ⟨rfl, h₁⟩
    | _ => exact .inr ⟨rfl, (Except.ok.inj h₁).symm⟩

/-- A record whose key is stored moves to the stored identifier. -/
theorem matched_eq_ok {now : Timestamp} {existing r r' : Record} {o : Outcome}
    (h : matched now existing r = .ok (r', o)) : Restamped r' r ∧ r'.id = existing.id := by
  obtain ⟨r₁, r₂, h₁, h₂, h₃⟩ := matched_cases h
  have hmoved : Restamped (r.withId existing.id) r := ⟨rfl, fun _ _ => rfl⟩
  obtain ⟨hs₁, hid₁⟩ := copyStamp_eq_ok (by decide) h₁
  obtain ⟨hs₂, hid₂⟩ : Restamped r₂ r₁ ∧ r₂.id = r₁.id := by
    rcases h₂ with ⟨-, h₂⟩ | ⟨-, h₂⟩
    · exact copyStamp_eq_ok (by decide) h₂
    · exact stamp_eq_ok (by decide) h₂
  obtain ⟨hs₃, hid₃⟩ := stamp_eq_ok (by decide) h₃
  exact ⟨hs₃.trans (hs₂.trans (hs₁.trans hmoved)), hid₃.trans (hid₂.trans hid₁)⟩

/-- A record whose key is new keeps its own identifier. -/
theorem fresh_eq_ok {now : Timestamp} {r r' : Record} {o : Outcome}
    (h : fresh now r = .ok (r', o)) : Restamped r' r ∧ r'.id = r.id := by
  obtain ⟨r₁, r₂, h₁, h₂, h₃⟩ := fresh_cases h
  obtain ⟨hs₁, hid₁⟩ : Restamped r₁ r ∧ r₁.id = r.id := by
    rcases h₁ with ⟨-, h₁⟩ | ⟨-, rfl⟩
    · exact stamp_eq_ok (by decide) h₁
    · exact ⟨.refl r₁, rfl⟩
  obtain ⟨hs₂, hid₂⟩ := stamp_eq_ok (by decide) h₂
  obtain ⟨hs₃, hid₃⟩ := stamp_eq_ok (by decide) h₃
  exact ⟨hs₃.trans (hs₂.trans hs₁), hid₃.trans (hid₂.trans hid₁)⟩

/-- The record that is stored for a reported one, given what is stored under its key. -/
inductive Settles (now : Timestamp) : Option Record → Record → Record → Prop where
  | matched {existing r r' : Record} {o : Outcome} (h : matched now existing r = .ok (r', o)) :
      Settles now (some existing) r r'
  | fresh {r r' : Record} {o : Outcome} (h : fresh now r = .ok (r', o)) : Settles now none r r'

/-- What is done to a reported record, given what is stored under its key. -/
def settleWith (now : Timestamp) : Option Record → Record → Except RecordError (Record × Outcome)
  | some existing, r => matched now existing r
  | none, r => fresh now r

/-- A reported record is settled with what is stored under its key. -/
theorem settle_eq_settleWith (now : Timestamp) (stored : OrderedMap String Record)
    (entry : String × Record) :
    settle now stored entry = settleWith now (stored.get? entry.1) entry.2 := by
  unfold settle
  cases stored.get? entry.1 <;> rfl

/-- What is settled is stored for the reported record. -/
theorem settles_of_settleWith_eq_ok {now : Timestamp} {stored : Option Record} {r r' : Record}
    {o : Outcome} (h : settleWith now stored r = .ok (r', o)) : Settles now stored r r' := by
  cases stored with
  | some existing => exact .matched h
  | none => exact .fresh h

/-- **What is stored for a reported key:** the reported values outside the stamps,
under the stored identifier of the key or the reported one. -/
theorem Settles.restamped {now : Timestamp} {stored : Option Record} {r r' : Record}
    (h : Settles now stored r r') :
    Restamped r' r ∧ r'.id = (stored.map Record.id).getD r.id := by
  cases h with
  | matched h => exact matched_eq_ok h
  | fresh h => exact fresh_eq_ok h

end Reconcile
end Inventory
