/-
# The index of the stored records

The pass of `reconcile` over the stored records.

Records are entered one after another. What the index holds is stated on the list
of records that have been entered (`StoredIndex.Holds`): under a key the first
record of the key, and beside them the identifiers of the other records with keys.
-/

import Inventory.Proofs.Except
import Inventory.Proofs.OrderedMap
import Inventory.Proofs.Reconcile.Scope
import Inventory.Proofs.Record.Slots

namespace Inventory
namespace Reconcile

variable {keyField : String}

/-- The key of a record is the text of its key field. -/
theorem keyOf_eq_ok {r : Record} {key : Option String} (h : keyOf keyField r = .ok key) :
    r.text? keyField = key := by
  unfold keyOf Record.value at h
  unfold Record.text?
  cases hslot : r.slots.get? keyField with
  | none => simp [hslot] at h
  | some v => simpa [hslot] using h

/-- A record is refused when it has no slot for the key field. -/
theorem exists_keyOf_iff {r : Record} :
    (∃ key, keyOf keyField r = .ok key) ↔ (r.slots.get? keyField).isSome := by
  unfold keyOf Record.value
  cases r.slots.get? keyField <;> simp

/-- The first record with a key text. -/
def firstWith (keyField : String) (records : List Record) (key : String) : Option Record :=
  records.find? fun r => r.text? keyField = some key

/-- A further record is the first of its key when there was none. -/
theorem firstWith_append (records : List Record) (r : Record) (key : String) :
    firstWith keyField (records ++ [r]) key
      = (firstWith keyField records key).or
        (if r.text? keyField = some key then some r else none) := by
  rw [firstWith, List.find?_append, List.find?_singleton]
  simp only [decide_eq_true_eq]
  rfl

/-- The first record of a key is one of the records, and has the key. -/
theorem mem_of_firstWith {records : List Record} {key : String} {r : Record}
    (h : firstWith keyField records key = some r) : r ∈ records ∧ r.text? keyField = some key :=
  ⟨List.mem_of_find?_eq_some h, by simpa using List.find?_some h⟩

/-- A record that is entered later does not come first. -/
theorem firstWith_append_of_mem {records : List Record} {key : String} {r : Record}
    (hr : r ∈ records) (hkey : r.text? keyField = some key) (r' : Record) :
    firstWith keyField (records ++ [r']) key = firstWith keyField records key := by
  have hsome : (firstWith keyField records key).isSome := by
    rw [firstWith, List.find?_isSome]
    exact ⟨r, hr, by simpa using hkey⟩
  obtain ⟨r₀, h₀⟩ := Option.isSome_iff_exists.1 hsome
  rw [firstWith_append, h₀, Option.some_or]

/-- Whether the first record with the key of `r` is another one. -/
def Repeats (keyField : String) (records : List Record) (r : Record) : Prop :=
  ∃ key r₀, r.text? keyField = some key ∧ firstWith keyField records key = some r₀ ∧ r₀.id ≠ r.id

/-- A further record repeats a key when one before it has the key. -/
theorem exists_repeats_append {records : List Record} {r : Record} {id : Ulid} :
    (∃ r' ∈ records ++ [r], r'.id = id ∧ Repeats keyField (records ++ [r]) r')
      ↔ (∃ r' ∈ records, r'.id = id ∧ Repeats keyField records r')
        ∨ r.id = id ∧ Repeats keyField (records ++ [r]) r := by
  have hold : ∀ r' ∈ records,
      Repeats keyField (records ++ [r]) r' ↔ Repeats keyField records r' := by
    intro r' hr'
    constructor
    · rintro ⟨key, r₀, hkey, h₀, hne⟩
      exact ⟨key, r₀, hkey, firstWith_append_of_mem hr' hkey r ▸ h₀, hne⟩
    · rintro ⟨key, r₀, hkey, h₀, hne⟩
      exact ⟨key, r₀, hkey, (firstWith_append_of_mem hr' hkey r).trans h₀, hne⟩
  constructor
  · rintro ⟨r', hr', hid, hrep⟩
    rcases List.mem_append.1 hr' with hr' | hr'
    · exact .inl ⟨r', hr', hid, (hold r' hr').1 hrep⟩
    · obtain rfl := List.mem_singleton.1 hr'
      exact .inr ⟨hid, hrep⟩
  · rintro (⟨r', hr', hid, hrep⟩ | ⟨hid, hrep⟩)
    · exact ⟨r', List.mem_append_left _ hr', hid, (hold r' hr').2 hrep⟩
    · exact ⟨r, by simp, hid, hrep⟩

/-- What the stored index holds after some records. -/
structure StoredIndex.Holds (keyField : String) (records : List Record) (index : StoredIndex) :
    Prop where
  nodup : index.byKey.keys.Nodup
  first : ∀ key, index.byKey.get? key = firstWith keyField records key
  others : (records.map Record.id).Nodup → ∀ id, id ∈ index.duplicates ↔
    ∃ r ∈ records, r.id = id ∧ Repeats keyField records r

/-- The records before the last one have identifiers of their own. -/
theorem nodup_of_append {records : List Record} {r : Record}
    (h : ((records ++ [r]).map Record.id).Nodup) :
    (records.map Record.id).Nodup ∧ ∀ r₀ ∈ records, r₀.id ≠ r.id := by
  rw [List.map_append, List.nodup_append] at h
  exact ⟨h.1, fun r₀ hr₀ => h.2.2 _ (List.mem_map_of_mem hr₀) _ (by simp)⟩

/-- Records of two lists that repeat no identifier have different ones. -/
theorem id_ne_of_nodup_append {records records' : List Record}
    (h : ((records ++ records').map Record.id).Nodup) :
    ∀ r ∈ records, ∀ r' ∈ records', r.id ≠ r'.id := by
  intro r hr r' hr'
  rw [List.map_append, List.nodup_append] at h
  exact h.2.2 _ (List.mem_map_of_mem hr) _ (List.mem_map_of_mem hr')

/-- A record without a key is not entered. -/
theorem StoredIndex.Holds.skip {records : List Record} {index : StoredIndex}
    (h : index.Holds keyField records) {r : Record} (hkey : r.text? keyField = none) :
    index.Holds keyField (records ++ [r]) where
  nodup := h.nodup
  first key := by simp [firstWith_append, hkey, h.first]
  others hids id := by
    have hr : ¬ Repeats keyField (records ++ [r]) r := by
      rintro ⟨key, r₀, hkey', -⟩
      simp [hkey] at hkey'
    rw [exists_repeats_append, h.others (nodup_of_append hids).1 id]
    simp [hr]

/-- The first record of a key is entered under it. -/
theorem StoredIndex.Holds.enterFirst {records : List Record} {index : StoredIndex}
    (h : index.Holds keyField records) {r : Record} {key : String}
    (hkey : r.text? keyField = some key) (hnew : firstWith keyField records key = none) :
    StoredIndex.Holds keyField (records ++ [r])
      { index with byKey := index.byKey.insert key r } where
  nodup := OrderedMap.nodup_keys_insert h.nodup key r
  first key' := by
    rw [firstWith_append, hkey]
    by_cases hk : key' = key
    · subst hk
      rw [OrderedMap.get?_insert_self, hnew]
      simp
    · rw [OrderedMap.get?_insert_of_ne hk, h.first]
      simp [Ne.symm hk]
  others hids id := by
    have hr : ¬ Repeats keyField (records ++ [r]) r := by
      rintro ⟨key', r₀, hkey', h₀, hne⟩
      obtain rfl : key = key' := Option.some.inj (hkey.symm.trans hkey')
      rw [firstWith_append, hnew, hkey, if_pos rfl, Option.none_or] at h₀
      exact hne (Option.some.inj h₀ ▸ rfl)
    rw [exists_repeats_append, h.others (nodup_of_append hids).1 id]
    simp [hr]

/-- A later record of a key is one of the others. -/
theorem StoredIndex.Holds.enterOther {records : List Record} {index : StoredIndex}
    (h : index.Holds keyField records) {r r₀ : Record} {key : String}
    (hkey : r.text? keyField = some key) (hold : firstWith keyField records key = some r₀) :
    StoredIndex.Holds keyField (records ++ [r])
      { index with duplicates := index.duplicates ++ [r.id] } where
  nodup := h.nodup
  first key' := by
    rw [firstWith_append, hkey, h.first]
    by_cases hk : key' = key
    · subst hk
      rw [hold]
      rfl
    · simp [Ne.symm hk]
  others hids id := by
    obtain ⟨hids', hne⟩ := nodup_of_append hids
    have hr : Repeats keyField (records ++ [r]) r :=
      ⟨key, r₀, hkey, by rw [firstWith_append, hold, Option.some_or],
        hne r₀ (mem_of_firstWith hold).1⟩
    rw [exists_repeats_append, List.mem_append, List.mem_singleton, h.others hids' id]
    simp [hr, eq_comm]

/-- A stored record is entered when it has a slot for the key field. -/
theorem StoredIndex.exists_enter_iff {index : StoredIndex} {r : Record} :
    (∃ index', index.enter keyField r = .ok index') ↔ (r.slots.get? keyField).isSome := by
  rw [← exists_keyOf_iff, StoredIndex.enter]
  cases keyOf keyField r with
  | error e => simp
  | ok key =>
    cases key with
    | none => simp
    | some key => by_cases hc : index.byKey.contains key <;> simp [hc]

/-- **When all stored records are entered.** -/
theorem StoredIndex.exists_foldlM_iff {records : List Record} {start : StoredIndex} :
    (∃ index, records.foldlM (StoredIndex.enter keyField) start = .ok index)
      ↔ ∀ r ∈ records, (r.slots.get? keyField).isSome :=
  Inventory.exists_foldlM_iff (P := fun r : Record => (r.slots.get? keyField).isSome)
    fun _ _ => exists_enter_iff

/-- What entering a record does: a record without a key changes nothing, the first of a key is
entered under it, and a later one is one of the others. -/
theorem StoredIndex.enter_cases {index index' : StoredIndex} {r : Record}
    (h : index.enter keyField r = .ok index') :
    r.text? keyField = none ∧ index' = index
      ∨ ∃ key, r.text? keyField = some key
        ∧ (index.byKey.contains key = false
            ∧ index' = { index with byKey := index.byKey.insert key r }
          ∨ index.byKey.contains key = true
            ∧ index' = { index with duplicates := index.duplicates ++ [r.id] }) := by
  unfold StoredIndex.enter at h
  cases hkeyOf : keyOf keyField r with
  | error e => simp [hkeyOf] at h
  | ok key? =>
    have htext := keyOf_eq_ok hkeyOf
    cases key? with
    | none =>
      obtain rfl : index = index' := by simpa [hkeyOf] using h
      exact .inl ⟨htext, rfl⟩
    | some key =>
      refine .inr ⟨key, htext, ?_⟩
      cases hc : index.byKey.contains key with
      | false =>
        simp only [hkeyOf, hc, Bool.false_eq_true, if_false, Except.ok.injEq] at h
        exact .inl ⟨rfl, h.symm⟩
      | true =>
        simp only [hkeyOf, hc, if_true, Except.ok.injEq] at h
        exact .inr ⟨rfl, h.symm⟩

/-- **Step:** the index holds what was entered, with one record more. -/
theorem StoredIndex.Holds.enter {records : List Record} {index index' : StoredIndex} {r : Record}
    (h : index.Holds keyField records) (henter : index.enter keyField r = .ok index') :
    index'.Holds keyField (records ++ [r]) := by
  rcases enter_cases henter with ⟨htext, rfl⟩ | ⟨key, htext, ⟨hc, rfl⟩ | ⟨hc, rfl⟩⟩
  · exact h.skip htext
  · rw [OrderedMap.contains, h.first, ← Bool.not_eq_true, Option.not_isSome_iff_eq_none] at hc
    exact h.enterFirst htext hc
  · rw [OrderedMap.contains, h.first] at hc
    obtain ⟨r₀, hfirst⟩ := Option.isSome_iff_exists.1 hc
    exact h.enterOther htext hfirst

theorem StoredIndex.holds_nil : StoredIndex.Holds keyField [] {} where
  nodup := List.nodup_nil
  first _ := rfl
  others _ _ := by simp

/-- **The stored index** holds the first record of every key. -/
theorem StoredIndex.holds_of_foldlM {records : List Record} {index : StoredIndex}
    (h : records.foldlM (StoredIndex.enter keyField) {} = .ok index) :
    index.Holds keyField records :=
  foldlM_ok_induction (StoredIndex.Holds keyField)
    StoredIndex.holds_nil (fun _ _ _ _ hdone henter => hdone.enter henter) h

end Reconcile
end Inventory
