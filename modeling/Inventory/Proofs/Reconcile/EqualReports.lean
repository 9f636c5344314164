/-
# Reports that are equal up to identifiers

`reconcile`, for reports that are equal.

What is reported again comes in under new identifiers, and it may have the properties of an
item in another order. Nothing that a reconciliation reads of a reported record, apart from
its identifier, shows the difference (`AlikeButId`):

| of the reports | |
| --- | --- |
| whether a record is entered | is the same (`AlikeButId.enterable`) |
| the keys, in their order | are the same (`Scope.keys_eq`) |
| the last record of a key | is alike (`Scope.exists_last?_of_last?`) |
-/

import Inventory.Proofs.Reconcile.Plan
import Inventory.Proofs.Record.Equality

namespace Inventory
namespace Reconcile

variable {scope : Scope} {r r' : Record} {remote remote' : List Record} {key : String}

/-- Whether two records are equal up to their identifiers. -/
def SameButId (r r' : Record) : Prop := (r.withId r'.id == r') = true

instance (r r' : Record) : Decidable (SameButId r r') := inferInstanceAs (Decidable (_ = true))

/-- Whether two records are alike up to their identifiers. -/
def AlikeButId (r r' : Record) : Prop := (r.withId r'.id).Alike r'

/-- Records that are equal up to their identifiers are alike up to them. -/
theorem SameButId.alikeButId (h : SameButId r r') (hr : r.Distinct) (hr' : r'.Distinct) :
    AlikeButId r r' :=
  Record.alike_of_beq ⟨hr.nodup, hr.rows⟩ hr' h

theorem forall₂_alikeButId (h : List.Forall₂ SameButId remote remote')
    (hr : ∀ r ∈ remote, r.Distinct) (hr' : ∀ r ∈ remote', r.Distinct) :
    List.Forall₂ AlikeButId remote remote' := by
  obtain ⟨hlength, hzip⟩ := List.forall₂_iff_zip.1 h
  refine List.forall₂_iff_zip.2 ⟨hlength, fun hmem => ?_⟩
  obtain ⟨hleft, hright⟩ := List.of_mem_zip hmem
  exact (hzip hmem).alikeButId (hr _ hleft) (hr' _ hright)

namespace AlikeButId

/-- Such records are built on one schema. -/
theorem schema_eq (h : AlikeButId r r') : r'.schema = r.schema := h.schema.symm

/-- Such records have slots for the same fields. -/
theorem isSome_eq (h : AlikeButId r r') (name : String) :
    (r'.slots.get? name).isSome = (r.slots.get? name).isSome := (h.slots.isSome_eq name).symm

/-- Values are equal, whatever the order of properties. -/
theorem sameLookup (h : AlikeButId r r') (name : String) :
    OrderedMap.SameLookup (r.slots.get? name) (r'.slots.get? name) := by
  rcases h.slots.cases name with ⟨hv, hw⟩ | ⟨v, w, hv, hw, hvw⟩
  · rw [hw, show r.slots.get? name = none from hv]
    exact .none
  · rw [hw, show r.slots.get? name = some v from hv]
    exact .some hvw.beq

/-- Such records stay so when they are moved to the context. -/
theorem placed (h : AlikeButId r r') (scope : Scope) :
    AlikeButId (scope.placed r) (scope.placed r') where
  id := rfl
  schema := h.schema
  slots := h.slots.insert Record.contextField (.string scope.context)

/-- Such records have one key. -/
theorem key?_eq (h : AlikeButId r r') (scope : Scope) : scope.key? r = scope.key? r' := by
  have htext : r.text? scope.keyField = r'.text? scope.keyField := by
    rcases h.slots.cases scope.keyField with ⟨hv, hw⟩ | ⟨v, w, hv, hw, hvw⟩
    · rw [Record.text?, Record.text?, hw, show r.slots.get? scope.keyField = none from hv]
    · rw [Record.text?, Record.text?, hw, show r.slots.get? scope.keyField = some v from hv]
      exact hvw.text?_eq
  have htype : r.entityType = r'.entityType := h.entityType_eq
  have hcontext : r.cloudContext? = r'.cloudContext? := h.cloudContext?_eq
  rw [Scope.key?, htype, hcontext, htext, Scope.key?]

/-- A record that is alike is entered as well. -/
theorem enterable {schema : Schema} {context keyField : String} (h : AlikeButId r r')
    (henter : Enterable schema context keyField r) : Enterable schema context keyField r' := by
  obtain ⟨htype, r₁, hmoved, hslot⟩ := henter
  refine ⟨by rw [Record.entityType, h.schema_eq]; exact htype, ?_⟩
  unfold moved at hmoved ⊢
  split at hmoved
  · rename_i hdeclares
    obtain ⟨f, hf, hfits, rfl⟩ := Record.set_eq_ok_iff.1 hmoved
    refine ⟨_, by rw [if_pos hdeclares, Record.set_eq_ok_iff]; exact
      ⟨f, h.schema_eq ▸ hf, hfits, rfl⟩, ?_⟩
    rw [OrderedMap.get?_insert] at hslot ⊢
    split at hslot
    · rename_i hname
      rw [if_pos hname]
      rfl
    · rename_i hname
      rwa [if_neg hname, h.isSome_eq]
  · rename_i hdeclares
    obtain rfl := Except.ok.inj hmoved
    exact ⟨r', if_neg hdeclares, by rwa [h.isSome_eq]⟩

end AlikeButId

section Lists

variable (h : List.Forall₂ AlikeButId remote remote')
include h

/-- Reports that are alike stay so when they are moved to the context. -/
theorem Scope.forall₂_placed (scope : Scope) :
    List.Forall₂ AlikeButId (remote.map scope.placed) (remote'.map scope.placed) := by
  rw [List.forall₂_map_left_iff, List.forall₂_map_right_iff]
  exact h.imp fun _ _ hr => hr.placed scope

/-- The same keys are reported. -/
theorem Scope.keys_eq : scope.keys remote' = scope.keys remote := by
  have hkeys := filterMap_eq_of_forall₂ ((forall₂_placed h scope).imp fun _ _ hr =>
    hr.key?_eq scope)
  rw [keys, keys, hkeys]

/-- The last records of a key are alike. -/
theorem Scope.exists_last?_of_last? (hr' : scope.last? remote' key = some r') :
    ∃ r, scope.last? remote key = some r ∧ AlikeButId r r' := by
  have hreverse := List.forall₂_reverse_iff.2 (forall₂_placed h scope)
  exact exists_find?_of_forall₂ hreverse (fun _ _ hr => by rw [hr.key?_eq scope]) hr'

end Lists

end Reconcile
end Inventory
