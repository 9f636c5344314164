/-
# The index of the reported records

The pass of `reconcile` over the reported records.

Records are moved to the cloud context and entered one after another. What the
index holds is stated on the list of records that have been entered
(`ReportedIndex.Holds`): under a key the last record of the key, and the keys in
the order of their first mention.
-/

import Inventory.Proofs.Reconcile.Stored

namespace Inventory
namespace Reconcile

variable {keyField : String}

/-- A record moved to a cloud context, where the schema declares one. -/
def moved (schema : Schema) (context : String) (r : Record) : Except RecordError Record :=
  if schema.declares Record.contextField then r.set Record.contextField (.string context)
  else .ok r

/-- Whether a reported record is entered, whatever was entered before. -/
def Enterable (schema : Schema) (context keyField : String) (r : Record) : Prop :=
  r.entityType = schema.name
    ∧ ∃ r', moved schema context r = .ok r' ∧ (r'.slots.get? keyField).isSome

/-- A record of another type is refused. -/
theorem ReportedIndex.enter_of_ne {schema : Schema} {context : String} {index : ReportedIndex}
    {r : Record} (h : r.entityType ≠ schema.name) :
    index.enter schema context keyField r
      = .error (.entityTypeMismatch schema.name r.entityType) := by
  rw [ReportedIndex.enter, if_pos h]

/-- Whether a reported record is entered does not depend on what was entered before. -/
theorem ReportedIndex.exists_enter_iff {schema : Schema} {context : String}
    {index : ReportedIndex} {r : Record} :
    (∃ index', index.enter schema context keyField r = .ok index')
      ↔ Enterable schema context keyField r := by
  by_cases htype : r.entityType = schema.name
  · rw [ReportedIndex.enter, if_neg (not_not.2 htype), ← moved, Enterable]
    simp only [htype, true_and, ← exists_keyOf_iff]
    cases moved schema context r with
    | error e => simp
    | ok r' =>
      cases hkey : keyOf keyField r' with
      | error e => simp [hkey]
      | ok key => cases key <;> simp [hkey]
  · simp [ReportedIndex.enter_of_ne htype, Enterable, htype]

/-- **When all reported records are entered.** -/
theorem ReportedIndex.exists_foldlM_iff {schema : Schema} {context : String}
    {records : List Record} {start : ReportedIndex} :
    (∃ index, records.foldlM (ReportedIndex.enter schema context keyField) start = .ok index)
      ↔ ∀ r ∈ records, Enterable schema context keyField r :=
  Inventory.exists_foldlM_iff (P := Enterable schema context keyField) fun _ _ => exists_enter_iff

/-- What entering a record does: a record is moved to the cloud context, and counts as skipped
when it has no key or when the key was entered before. -/
theorem ReportedIndex.enter_cases {schema : Schema} {context : String}
    {index index' : ReportedIndex} {r : Record}
    (h : index.enter schema context keyField r = .ok index') :
    r.entityType = schema.name ∧ ∃ r', moved schema context r = .ok r'
      ∧ (r'.text? keyField = none ∧ index' = { index with skipped := index.skipped + 1 }
        ∨ ∃ key, r'.text? keyField = some key
          ∧ index' = {
            byKey := index.byKey.insert key r'
            skipped := index.skipped + if index.byKey.contains key then 1 else 0 }) := by
  unfold ReportedIndex.enter at h
  by_cases htype : r.entityType = schema.name
  · rw [if_neg (not_not.2 htype), ← moved] at h
    refine ⟨htype, ?_⟩
    cases hmoved : moved schema context r with
    | error e => simp [hmoved] at h
    | ok r' =>
      refine ⟨r', rfl, ?_⟩
      cases hkeyOf : keyOf keyField r' with
      | error e => simp [hmoved, hkeyOf] at h
      | ok key? =>
        have htext := keyOf_eq_ok hkeyOf
        cases key? with
        | none =>
          simp only [hmoved, hkeyOf, Except.ok.injEq] at h
          exact .inl ⟨htext, h.symm⟩
        | some key =>
          simp only [hmoved, hkeyOf, Except.ok.injEq] at h
          exact .inr ⟨key, htext, h.symm⟩
  · simp [htype] at h

/-- What the reported index holds after some records, which count as `place`
moves them. -/
structure ReportedIndex.Holds (schema : Schema) (keyField : String) (place : Record → Record)
    (records : List Record) (index : ReportedIndex) : Prop where
  keys : index.byKey.keys
    = ((records.map place).filterMap (Record.text? · keyField)).eraseDups
  last : ∀ key, index.byKey.get? key = firstWith keyField (records.map place).reverse key
  types : ∀ r ∈ records, r.entityType = schema.name

/-- All records that have been entered are of the type. -/
theorem ReportedIndex.Holds.types_append {schema : Schema} {place : Record → Record}
    {records : List Record} {index : ReportedIndex} (h : index.Holds schema keyField place records)
    {r : Record} (htype : r.entityType = schema.name) :
    ∀ r' ∈ records ++ [r], r'.entityType = schema.name := by
  intro r' hr'
  rcases List.mem_append.1 hr' with hr' | hr'
  · exact h.types r' hr'
  · rw [List.mem_singleton.1 hr', htype]

/-- **Step:** a record without key is skipped. -/
theorem ReportedIndex.Holds.skip {schema : Schema} {place : Record → Record}
    {records : List Record} {index : ReportedIndex} (h : index.Holds schema keyField place records)
    {r : Record} (htype : r.entityType = schema.name) (hkey : (place r).text? keyField = none)
    (skipped : Nat) :
    ReportedIndex.Holds schema keyField place (records ++ [r]) { index with skipped } where
  keys := by simp [h.keys, hkey]
  last key := by
    rw [List.map_append, List.reverse_append]
    simp [firstWith, hkey, h.last]
  types := h.types_append htype

/-- **Step:** a record with a key takes the place of the one before it. -/
theorem ReportedIndex.Holds.insert {schema : Schema} {place : Record → Record}
    {records : List Record} {index : ReportedIndex} (h : index.Holds schema keyField place records)
    {r : Record} {key : String} (htype : r.entityType = schema.name)
    (hkey : (place r).text? keyField = some key) (skipped : Nat) :
    ReportedIndex.Holds schema keyField place (records ++ [r])
      { byKey := index.byKey.insert key (place r), skipped } where
  keys := by
    have hlast : [place r].filterMap (Record.text? · keyField) = [key] := by simp [hkey]
    rw [OrderedMap.keys_insert, h.keys, List.map_append, List.filterMap_append, List.map_singleton,
      hlast, OrderedMap.eraseDups_append_singleton]
    simp only [List.mem_eraseDups]
  last key' := by
    rw [List.map_append, List.reverse_append]
    by_cases hk : key' = key
    · subst hk
      simp [firstWith, hkey]
    · rw [OrderedMap.get?_insert_of_ne hk, h.last]
      simp [firstWith, hkey, Ne.symm hk]
  types := h.types_append htype

/-- Whether `place` says how a schema moves a reported record to a cloud context. -/
def Places (schema : Schema) (context : String) (place : Record → Record) : Prop :=
  ∀ r r', (if schema.declares Record.contextField then r.set Record.contextField (.string context)
    else .ok r) = .ok r' → r' = place r

/-- A schema that declares the context places records there. -/
theorem places_of_declares {schema : Schema} (scope : Scope)
    (hcontext : schema.declares Record.contextField = true) :
    Places schema scope.context scope.placed := by
  intro r r' h
  rw [if_pos hcontext] at h
  obtain ⟨f, -, -, hplaced⟩ := Record.set_eq_ok_iff.1 h
  exact hplaced

/-- A well-formed record that was entered is well formed at its new place. -/
theorem Enterable.wellFormed_placed {schema : Schema} {scope : Scope} {r : Record}
    (h : Enterable schema scope.context keyField r)
    (hcontext : schema.declares Record.contextField = true) (hr : r.WellFormed) :
    (scope.placed r).WellFormed := by
  obtain ⟨-, r', hmoved, -⟩ := h
  obtain rfl := places_of_declares scope hcontext r r' hmoved
  rw [moved, if_pos hcontext] at hmoved
  exact hr.set (fun _ h => by cases h) hmoved

/-- Whatever is moved counts as what it is moved to. -/
theorem exists_places (schema : Schema) (context : String) :
    ∃ place, Places schema context place := by
  refine ⟨fun r => (moved schema context r).toOption.getD r, fun r r' h => ?_⟩
  have hmoved : moved schema context r = .ok r' := h
  simp only [hmoved]
  rfl

/-- Without the field records stay where they are. -/
theorem places_of_not_declares {schema : Schema}
    (hcontext : schema.declares Record.contextField = false) (context : String) :
    Places schema context id := by
  intro r r' h
  rw [hcontext] at h
  exact (Except.ok.inj h).symm

/-- **Step:** the index holds what was entered, with one record more. -/
theorem ReportedIndex.Holds.enter {schema : Schema} {context : String} {place : Record → Record}
    (hplace : Places schema context place)
    {records : List Record} {index index' : ReportedIndex} {r : Record}
    (h : index.Holds schema keyField place records)
    (henter : index.enter schema context keyField r = .ok index') :
    index'.Holds schema keyField place (records ++ [r]) := by
  obtain ⟨htype, r', hmoved, hcases⟩ := ReportedIndex.enter_cases henter
  obtain rfl := hplace r r' hmoved
  rcases hcases with ⟨htext, rfl⟩ | ⟨key, htext, rfl⟩
  · exact h.skip htype htext _
  · exact h.insert htype htext _

theorem ReportedIndex.holds_nil {schema : Schema} {place : Record → Record} :
    ReportedIndex.Holds schema keyField place [] {} where
  keys := rfl
  last _ := rfl
  types := by simp

/-- **The reported index** holds the last record of every key. -/
theorem ReportedIndex.holds_of_foldlM {schema : Schema} {context : String}
    {place : Record → Record} (hplace : Places schema context place) {remote : List Record}
    {index : ReportedIndex}
    (h : remote.foldlM (ReportedIndex.enter schema context keyField) {} = .ok index) :
    index.Holds schema keyField place remote :=
  foldlM_ok_induction (ReportedIndex.Holds schema keyField place)
    ReportedIndex.holds_nil (fun _ _ _ _ hdone henter => hdone.enter hplace henter) h

/-- No key is entered twice. -/
theorem ReportedIndex.nodup_of_foldlM {schema : Schema} {context : String} {remote : List Record}
    {index : ReportedIndex}
    (h : remote.foldlM (ReportedIndex.enter schema context keyField) {} = .ok index) :
    index.byKey.keys.Nodup := by
  obtain ⟨place, hplace⟩ := exists_places schema context
  exact (holds_of_foldlM hplace h).keys ▸ OrderedMap.nodup_eraseDups _

end Reconcile
end Inventory
