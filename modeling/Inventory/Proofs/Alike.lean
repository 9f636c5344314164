/-
# Equality of ordered maps, and maps that are alike

Equality of maps (`==`) forgets the order: between maps without repeated keys it
says that the lookups are equal (`beq_iff_get?`).

Two maps are *alike* when neither repeats a key and they hold related values
under the same keys, in whatever order. Every operation on maps takes alike maps
to alike maps, and maps that are alike by equality of their values are equal as
maps (`beq_of_alike`).
-/

import Inventory.Proofs.OrderedMap
import Mathlib.Data.List.Perm.Basic

namespace Inventory

namespace OrderedMap

variable {κ α β γ δ : Type} [DecidableEq κ] {R : α → β → Prop} {S : γ → δ → Prop}

/-! ### Equality of maps -/

/-- Related lookups both find nothing, or values that are related. -/
theorem rel_cases {a : Option α} {b : Option β} (h : Option.Rel R a b) :
    (a = none ∧ b = none) ∨ ∃ v w, a = some v ∧ b = some w ∧ R v w := by
  cases h with
  | none => exact .inl ⟨rfl, rfl⟩
  | some hvw => exact .inr ⟨_, _, rfl, rfl, hvw⟩

/-- What is related to something is something. -/
theorem exists_of_rel_some {a : Option α} {w : β} (h : Option.Rel R a (some w)) :
    ∃ v, a = some v ∧ R v w := by
  cases h with
  | some hvw => exact ⟨_, rfl, hvw⟩

/-- Two results are related when both are there or neither, and what is there is related. -/
theorem rel_of_isSome_eq {a : Option α} {b : Option β} (h : a.isSome = b.isSome)
    (hR : ∀ v w, a = some v → b = some w → R v w) : Option.Rel R a b := by
  cases a with
  | none =>
    cases b with
    | none => exact .none
    | some w => cases h
  | some v =>
    cases b with
    | none => cases h
    | some w => exact .some (hR v w rfl rfl)

/-- Of related results both are there or neither. -/
theorem isSome_eq_of_rel {a : Option α} {b : Option β} (h : Option.Rel R a b) :
    a.isSome = b.isSome := by
  cases h <;> rfl

/-- Whether two lookups find nothing, or values that are equal. -/
abbrev SameLookup [BEq α] : Option α → Option α → Prop := Option.Rel fun v w => (v == w) = true

/-- Equality goes through the entries of the first map and looks each up in the second. -/
theorem beq_iff_entries [BEq α] {m n : OrderedMap κ α} :
    (m == n) = true ↔
      m.size = n.size ∧ ∀ e ∈ m.entries, ∃ w, n.get? e.1 = some w ∧ (e.2 == w) = true := by
  change sameAs m n = true ↔ _
  simp only [sameAs, Bool.and_eq_true, beq_iff_eq, List.all_eq_true, Option.any_eq_true]

/-- Equal maps have the same keys, in whatever order. -/
theorem perm_keys_of_beq [BEq α] {m n : OrderedMap κ α} (hm : m.keys.Nodup)
    (h : (m == n) = true) : m.keys.Perm n.keys := by
  obtain ⟨hsize, hall⟩ := beq_iff_entries.1 h
  have hsub : m.keys ⊆ n.keys := by
    intro k hk
    obtain ⟨e, he, rfl⟩ := List.mem_map.1 hk
    obtain ⟨w, hw, -⟩ := hall e he
    exact isSome_get?_iff.1 (by rw [hw]; rfl)
  have hlen : n.keys.length ≤ m.keys.length := by
    simp only [size] at hsize
    simp only [keys, List.length_map]
    omega
  exact (List.subperm_of_subset hm hsub).perm_of_length_le hlen

/-- **Equal as maps:** without repeated keys, the lookups agree. -/
theorem beq_iff_get? [BEq α] {m n : OrderedMap κ α} (hm : m.keys.Nodup) (hn : n.keys.Nodup) :
    (m == n) = true ↔ ∀ k, SameLookup (m.get? k) (n.get? k) := by
  constructor
  · intro h k
    have hall := (beq_iff_entries.1 h).2
    cases hk : m.get? k with
    | none =>
      rw [get?_eq_none_iff, (perm_keys_of_beq hm h).mem_iff, ← get?_eq_none_iff] at hk
      rw [hk]
      exact .none
    | some v =>
      obtain ⟨w, hw, hvw⟩ := hall _ (mem_entries_of_get? hk)
      rw [hw]
      exact .some hvw
  · intro h
    have hmem (k : κ) : k ∈ m.keys ↔ k ∈ n.keys := by
      rw [← isSome_get?_iff, ← isSome_get?_iff, isSome_eq_of_rel (h k)]
    have hperm : m.keys.Perm n.keys := (List.perm_ext_iff_of_nodup hm hn).2 hmem
    refine beq_iff_entries.2 ⟨by simpa [keys, size] using hperm.length_eq, fun e he => ?_⟩
    have hget := (get?_eq_some_iff hm).2 he
    rcases rel_cases (h e.1) with ⟨hv, -⟩ | ⟨v, w, hv, hw, hvw⟩
    · rw [hget] at hv
      cases hv
    · obtain rfl := Option.some.inj (hget.symm.trans hv)
      exact ⟨w, hw, hvw⟩

/-! ### Related values under the same keys -/

/-- Maps without repeated keys that hold related values under the same keys. -/
structure Alike (R : α → β → Prop) (m : OrderedMap κ α) (n : OrderedMap κ β) : Prop where
  left : m.keys.Nodup
  right : n.keys.Nodup
  lookups : ∀ k, Option.Rel R (m.get? k) (n.get? k)

/-- Alike by equality of the values is equal as a map. -/
theorem beq_of_alike [BEq α] {m n : OrderedMap κ α} (h : Alike (fun v w => (v == w) = true) m n) :
    (m == n) = true :=
  (beq_iff_get? h.left h.right).2 h.lookups

/-- **Equal maps** without repeated keys are alike. -/
theorem alike_of_beq [BEq α] {m n : OrderedMap κ α} (hm : m.keys.Nodup) (hn : n.keys.Nodup)
    (h : (m == n) = true) : Alike (fun v w => (v == w) = true) m n :=
  ⟨hm, hn, (beq_iff_get? hm hn).1 h⟩

namespace Alike

variable {m : OrderedMap κ α} {n : OrderedMap κ β}

/-- Under a key, neither map finds a value, or both find related ones. -/
theorem cases (h : Alike R m n) (k : κ) :
    (m.get? k = none ∧ n.get? k = none)
      ∨ ∃ v w, m.get? k = some v ∧ n.get? k = some w ∧ R v w :=
  rel_cases (h.lookups k)

/-- Values that are found under one key are related. -/
theorem rel (h : Alike R m n) {k : κ} {v : α} {w : β} (hv : m.get? k = some v)
    (hw : n.get? k = some w) : R v w := by
  have hk := h.lookups k
  rw [hv, hw] at hk
  cases hk with
  | some hvw => exact hvw

/-- Maps that are alike by equality have the same lookups. -/
theorem get?_eq {m n : OrderedMap κ α} (h : Alike Eq m n) (k : κ) : m.get? k = n.get? k := by
  rcases h.cases k with ⟨hv, hw⟩ | ⟨v, w, hv, hw, rfl⟩
  · rw [hv, hw]
  · rw [hv, hw]

/-- Alike maps have something under the same keys. -/
theorem isSome_eq (h : Alike R m n) (k : κ) : (m.get? k).isSome = (n.get? k).isSome :=
  isSome_eq_of_rel (h.lookups k)

/-- Alike maps contain the same keys. -/
theorem contains_eq (h : Alike R m n) (k : κ) : m.contains k = n.contains k := h.isSome_eq k

/-- A relation that holds of what is found may take the place of the one that was known. -/
theorem mono {R' : α → β → Prop} (h : Alike R m n)
    (hR : ∀ k v w, m.get? k = some v → n.get? k = some w → R v w → R' v w) : Alike R' m n where
  left := h.left
  right := h.right
  lookups k := rel_of_isSome_eq (h.isSome_eq k) fun v w hv hw => hR k v w hv hw (h.rel hv hw)

/-- Maps are alike in either direction. -/
theorem symm {S : β → α → Prop} (h : Alike R m n) (hRS : ∀ v w, R v w → S w v) : Alike S n m where
  left := h.right
  right := h.left
  lookups k := rel_of_isSome_eq (h.isSome_eq k).symm fun w v hw hv => hRS v w (h.rel hv hw)

/-- Maps that are alike one after the other are alike. -/
theorem trans {o : OrderedMap κ γ} {S : β → γ → Prop} {T : α → γ → Prop} (h : Alike R m n)
    (h' : Alike S n o) (hT : ∀ u v w, R u v → S v w → T u w) : Alike T m o where
  left := h.left
  right := h'.right
  lookups k := by
    refine rel_of_isSome_eq ((h.isSome_eq k).trans (h'.isSome_eq k)) fun u w hu hw => ?_
    rcases h.cases k with ⟨hnone, -⟩ | ⟨u', v, hu', hv, huv⟩
    · cases hnone.symm.trans hu
    · obtain rfl := Option.some.inj (hu'.symm.trans hu)
      exact hT _ v w huv (h'.rel hv hw)

/-- Inserting related values under one key keeps maps alike. -/
theorem insert (h : Alike R m n) (k : κ) {v : α} {w : β} (hvw : R v w) :
    Alike R (m.insert k v) (n.insert k w) where
  left := nodup_keys_insert h.left k v
  right := nodup_keys_insert h.right k w
  lookups k' := by
    by_cases hk : k' = k
    · subst hk
      rw [get?_insert_self, get?_insert_self]
      exact .some hvw
    · rw [get?_insert_of_ne hk, get?_insert_of_ne hk]
      exact h.lookups k'

/-- Overlays of alike maps are alike. -/
theorem merge {m' : OrderedMap κ α} {n' : OrderedMap κ β} (h : Alike R m n) (h' : Alike R m' n') :
    Alike R (m.merge m') (n.merge n') where
  left := nodup_keys_merge h.left m'
  right := nodup_keys_merge h.right n'
  lookups k := by
    rw [get?_merge_of_nodup h'.left, get?_merge_of_nodup h'.right]
    rcases h'.cases k with ⟨hv, hw⟩ | ⟨v, w, hv, hw, hvw⟩
    · rw [hv, hw]
      exact h.lookups k
    · rw [hv, hw]
      exact .some hvw

/-- Filters that agree on related values keep maps alike. -/
theorem filter {p : κ → α → Bool} {q : κ → β → Bool} (h : Alike R m n)
    (hpq : ∀ k v w, R v w → p k v = q k w) : Alike R (m.filter p) (n.filter q) where
  left := nodup_keys_filter h.left p
  right := nodup_keys_filter h.right q
  lookups k := by
    rw [get?_filter h.left, get?_filter h.right]
    rcases h.cases k with ⟨hv, hw⟩ | ⟨v, w, hv, hw, hvw⟩
    · rw [hv, hw]
      exact .none
    · rw [hv, hw, Option.filter_some, Option.filter_some, hpq k v w hvw]
      split
      · exact .some hvw
      · exact .none

/-- Changing related values into related ones keeps maps alike. -/
theorem mapValues {f : κ → α → γ} {g : κ → β → δ} (h : Alike R m n)
    (hfg : ∀ k v w, R v w → S (f k v) (g k w)) : Alike S (m.mapValues f) (n.mapValues g) where
  left := by
    rw [keys_mapValues]
    exact h.left
  right := by
    rw [keys_mapValues]
    exact h.right
  lookups k := by
    rw [get?_mapValues, get?_mapValues]
    rcases h.cases k with ⟨hv, hw⟩ | ⟨v, w, hv, hw, hvw⟩
    · rw [hv, hw]
      exact .none
    · rw [hv, hw]
      exact .some (hfg k v w hvw)

/-- Maps without entries are alike. -/
theorem empty : Alike R (OrderedMap.empty : OrderedMap κ α) (OrderedMap.empty : OrderedMap κ β) :=
  ⟨List.nodup_nil, List.nodup_nil, fun _ => .none⟩

/-- Inserting related values under the same keys, in the same order. -/
theorem ofList {l : List (κ × α)} {l' : List (κ × β)}
    (h : List.Forall₂ (fun e e' => e.1 = e'.1 ∧ R e.2 e'.2) l l') :
    Alike R (OrderedMap.ofList l) (OrderedMap.ofList l') := by
  suffices hfold : ∀ (m : OrderedMap κ α) (n : OrderedMap κ β), Alike R m n →
      Alike R (m.merge ⟨l⟩) (n.merge ⟨l'⟩) from hfold _ _ empty
  induction h with
  | nil => exact fun m n hmn => hmn
  | @cons e e' l l' he _ ih =>
    intro m n hmn
    obtain ⟨k, v⟩ := e
    obtain ⟨k', w⟩ := e'
    obtain ⟨rfl, hvw⟩ := he
    exact ih _ _ (hmn.insert k hvw)

end Alike

/-- A map without repeated keys is alike itself when its values are. -/
theorem alike_self {R : α → α → Prop} {m : OrderedMap κ α} (hm : m.keys.Nodup)
    (hR : ∀ k v, m.get? k = some v → R v v) : Alike R m m where
  left := hm
  right := hm
  lookups k := by
    cases hk : m.get? k with
    | none => exact .none
    | some v => exact .some (hR k v hk)

end OrderedMap
end Inventory
