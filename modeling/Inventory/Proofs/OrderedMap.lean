/-
# Lookups and keys of ordered maps

A map without repeated keys is its keys in order with what it holds under each
(`entries_eq_filterMap`), so every operation is described by these two:

| operation | keys | lookup of `k` |
| --- | --- | --- |
| `filter` by key | the keys that pass | unchanged where `k` passes |
| `erase k'` | without `k'` | unchanged unless `k = k'` |
| `mapValues f` | unchanged | `f` applied |
| `merge n` | then the new keys of `n` | the last entry of `n`, else unchanged |
| `ofList` | each at its first mention | the last entry |
-/

import Inventory.OrderedMap
import Mathlib.Data.List.Forall2
import Mathlib.Data.List.Nodup
import Mathlib.Data.List.Induction

namespace Inventory
namespace OrderedMap

variable {κ α β : Type} [DecidableEq κ]

/-! ### Lookups and entries -/

/-- Nothing is found under a key exactly when no entry has it. -/
theorem lookupIn_eq_none_iff {k : κ} {l : List (κ × α)} :
    lookupIn k l = none ↔ k ∉ l.map Prod.fst := by
  induction l with
  | nil => simp [lookupIn]
  | cons e rest ih =>
    obtain ⟨k', v⟩ := e
    by_cases h : k' = k
    · simp [lookupIn, h]
    · simp [lookupIn, h, Ne.symm h, ih]

/-- What is found is an entry. -/
theorem mem_of_lookupIn_eq_some {k : κ} {v : α} {l : List (κ × α)} (h : lookupIn k l = some v) :
    (k, v) ∈ l := by
  induction l with
  | nil => simp [lookupIn] at h
  | cons e rest ih =>
    obtain ⟨k', v'⟩ := e
    by_cases hk : k' = k
    · simp only [lookupIn, hk, if_true, Option.some.injEq] at h
      simp [hk, h]
    · simp only [lookupIn, hk, if_false] at h
      exact List.mem_cons_of_mem _ (ih h)

/-- Where no key is repeated, what is found under a key is the entry of the key. -/
theorem lookupIn_eq_some_iff {k : κ} {v : α} {l : List (κ × α)} (hl : (l.map Prod.fst).Nodup) :
    lookupIn k l = some v ↔ (k, v) ∈ l := by
  refine ⟨mem_of_lookupIn_eq_some, fun h => ?_⟩
  induction l with
  | nil => simp at h
  | cons e rest ih =>
    obtain ⟨k', v'⟩ := e
    rw [List.map_cons, List.nodup_cons] at hl
    rcases List.mem_cons.1 h with he | hr
    · obtain ⟨rfl, rfl⟩ := Prod.mk.inj he
      simp [lookupIn]
    · have hne : k' ≠ k := by
        rintro rfl
        exact hl.1 (List.mem_map.2 ⟨_, hr, rfl⟩)
      simp only [lookupIn, hne, if_false]
      exact ih hl.2 hr

/-- Reading from the end finds the last entry; without repetition it is the only one. -/
theorem lookupIn_reverse {k : κ} {l : List (κ × α)} (hl : (l.map Prod.fst).Nodup) :
    lookupIn k l.reverse = lookupIn k l := by
  have hr : (l.reverse.map Prod.fst).Nodup := by
    rw [List.map_reverse]
    exact List.nodup_reverse.2 hl
  ext v
  rw [lookupIn_eq_some_iff hr, lookupIn_eq_some_iff hl, List.mem_reverse]

/-- Nothing stands under a key exactly when it is none of the keys. -/
theorem get?_eq_none_iff {m : OrderedMap κ α} {k : κ} : m.get? k = none ↔ k ∉ m.keys :=
  lookupIn_eq_none_iff

/-- Something stands under a key exactly when it is one of the keys. -/
theorem isSome_get?_iff {m : OrderedMap κ α} {k : κ} : (m.get? k).isSome ↔ k ∈ m.keys := by
  rw [← not_iff_not, ← get?_eq_none_iff, Option.not_isSome_iff_eq_none]

/-- A map contains its keys. -/
theorem contains_iff {m : OrderedMap κ α} {k : κ} : m.contains k = true ↔ k ∈ m.keys :=
  isSome_get?_iff

/-- What stands under a key is an entry. -/
theorem mem_entries_of_get? {m : OrderedMap κ α} {k : κ} {v : α} (h : m.get? k = some v) :
    (k, v) ∈ m.entries := mem_of_lookupIn_eq_some h

/-- Without repeated keys, what stands under a key is the entry of the key. -/
theorem get?_eq_some_iff {m : OrderedMap κ α} (hm : m.keys.Nodup) {k : κ} {v : α} :
    m.get? k = some v ↔ (k, v) ∈ m.entries := lookupIn_eq_some_iff hm

omit [DecidableEq κ] in
/-- The values are those of the entries. -/
theorem mem_values_iff {m : OrderedMap κ α} {v : α} :
    v ∈ m.values ↔ ∃ k, (k, v) ∈ m.entries := by
  simp [values]

/-- The entries are the keys with what is found under them. -/
theorem entries_eq_filterMap {m : OrderedMap κ α} (hm : m.keys.Nodup) :
    m.entries = m.keys.filterMap fun k => (m.get? k).map (k, ·) := by
  have h : ∀ e ∈ m.entries, (m.get? e.1).map (e.1, ·) = some e := fun e he => by
    rw [(get?_eq_some_iff hm).2 he, Option.map_some]
  rw [keys, List.filterMap_map]
  symm
  calc m.entries.filterMap (fun e => (m.get? e.1).map (e.1, ·))
      = m.entries.filterMap some := List.filterMap_congr h
    _ = m.entries := List.filterMap_some

/-- Maps with the same keys in the same order are the same when their lookups are. -/
theorem eq_of_get? {m n : OrderedMap κ α} (hm : m.keys.Nodup) (hkeys : m.keys = n.keys)
    (hget : ∀ k, m.get? k = n.get? k) : m = n := by
  have hentries : m.entries = n.entries := by
    rw [entries_eq_filterMap hm, entries_eq_filterMap (hkeys ▸ hm), hkeys]
    simp only [hget]
  exact congrArg mk hentries

/-- What is found among entries that are made of the members of a list. -/
theorem lookupIn_filterMap (key : β → κ) (g : β → Option α) (l : List β) (k : κ) :
    lookupIn k (l.filterMap fun b => (g b).map (key b, ·))
      = (l.find? fun b => key b = k && (g b).isSome).bind g := by
  induction l with
  | nil => rfl
  | cons b rest ih =>
    cases hb : g b with
    | none =>
      rw [List.filterMap_cons_none (by rw [hb]; rfl), ih]
      simp [hb]
    | some v =>
      rw [List.filterMap_cons_some (by rw [hb]; rfl), lookupIn, ih]
      by_cases hkey : key b = k <;> simp [hkey, hb]

/-- The values are what is found under the keys. -/
theorem values_eq_filterMap {m : OrderedMap κ α} (hm : m.keys.Nodup) :
    m.values = m.keys.filterMap m.get? := by
  rw [values, entries_eq_filterMap hm, List.map_filterMap]
  simp [Function.comp_def]

/-- Under the same keys in the same order, maps are related when their lookups are. -/
theorem forall₂_values {R : α → β → Prop} {m : OrderedMap κ α} {n : OrderedMap κ β}
    (hkeys : m.keys = n.keys) (hm : m.keys.Nodup)
    (h : ∀ k v w, m.get? k = some v → n.get? k = some w → R v w) :
    List.Forall₂ R m.values n.values := by
  have hfst : List.Forall₂ (fun e e' => e.1 = e'.1) m.entries n.entries := by
    have hsame : List.Forall₂ (· = ·) m.keys n.keys := by
      rw [hkeys, List.forall₂_same]
      exact fun _ _ => rfl
    rwa [keys, keys, List.forall₂_map_left_iff, List.forall₂_map_right_iff] at hsame
  obtain ⟨hlength, hzip⟩ := List.forall₂_iff_zip.1 hfst
  rw [values, values, List.forall₂_map_left_iff, List.forall₂_map_right_iff, List.forall₂_iff_zip]
  refine ⟨hlength, fun {e e'} he => ?_⟩
  obtain ⟨hleft, hright⟩ := List.of_mem_zip he
  refine h e.1 e.2 e'.2 ((get?_eq_some_iff hm).2 hleft) ?_
  rw [hzip he]
  exact (get?_eq_some_iff (hkeys ▸ hm)).2 hright

/-! ### One insertion -/

/-- **Insertion** under a key, seen from any key. -/
theorem get?_insert (m : OrderedMap κ α) (k : κ) (v : α) (k' : κ) :
    (m.insert k v).get? k' = if k' = k then some v else m.get? k' := by
  split
  · rename_i h
    rw [h, get?_insert_self]
  · rename_i h
    exact get?_insert_of_ne h m v

omit [DecidableEq κ] in
/-- There are as many entries as keys. -/
theorem size_eq_length_keys (m : OrderedMap κ α) : m.size = m.keys.length :=
  (List.length_map _).symm

/-- An insertion makes the map larger by a key that was not there. -/
theorem size_insert (m : OrderedMap κ α) (k : κ) (v : α) :
    (m.insert k v).size = m.size + if m.contains k then 0 else 1 := by
  rw [size_eq_length_keys, size_eq_length_keys, keys_insert]
  by_cases hk : k ∈ m.keys
  · simp [hk, contains_iff.2 hk]
  · have hnew : ¬ m.contains k = true := fun h => hk (contains_iff.1 h)
    simp [hk, hnew]

/-! ### Operations on every entry -/

omit [DecidableEq κ] in
/-- Filtering by keys filters the keys. -/
theorem keys_filter_key (p : κ → Bool) (m : OrderedMap κ α) :
    (m.filter fun k _ => p k).keys = m.keys.filter p := by
  simp only [filter, keys, List.filter_map]
  rfl

omit [DecidableEq κ] in
/-- Filtering repeats no key. -/
theorem nodup_keys_filter {m : OrderedMap κ α} (hm : m.keys.Nodup) (p : κ → α → Bool) :
    (m.filter p).keys.Nodup :=
  hm.sublist (List.filter_sublist.map _)

omit [DecidableEq κ] in
/-- What a filter leaves and what it leaves out are all there is. -/
theorem size_filter_key_add (p : κ → Bool) (m : OrderedMap κ α) :
    (m.filter fun k _ => p k).size + (m.filter fun k _ => !p k).size = m.size := by
  simp only [size_eq_length_keys, keys_filter_key]
  exact (List.length_eq_length_filter_add _).symm

/-- Two maps have as many keys in common as the other way round. -/
theorem size_filter_contains {m : OrderedMap κ α} {n : OrderedMap κ β} (hm : m.keys.Nodup)
    (hn : n.keys.Nodup) :
    (m.filter fun k _ => n.contains k).size = (n.filter fun k _ => m.contains k).size := by
  rw [size_eq_length_keys, size_eq_length_keys, keys_filter_key, keys_filter_key]
  refine ((List.perm_ext_iff_of_nodup (hm.filter _) (hn.filter _)).2 fun k => ?_).length_eq
  simp only [List.mem_filter, contains_iff]
  exact and_comm

/-- **A filter by keys**, seen from any key. -/
theorem get?_filter_key (p : κ → Bool) (m : OrderedMap κ α) (k : κ) :
    (m.filter fun k _ => p k).get? k = if p k then m.get? k else none := by
  simp only [get?, filter]
  induction m.entries with
  | nil => simp [lookupIn]
  | cons e rest ih =>
    obtain ⟨k', v⟩ := e
    by_cases hk : k' = k
    · subst hk
      by_cases hp : p k' <;> simp [lookupIn, hp, ih]
    · by_cases hp : p k' <;> simp [lookupIn, hp, hk, ih]

/-- Without repeated keys a test on the entries is a test on what is found. -/
theorem get?_filter {m : OrderedMap κ α} (hm : m.keys.Nodup) (p : κ → α → Bool) (k : κ) :
    (m.filter p).get? k = (m.get? k).filter (p k) := by
  ext v
  rw [get?_eq_some_iff (nodup_keys_filter hm p), Option.filter_eq_some_iff, get?_eq_some_iff hm,
    filter, List.mem_filter]

/-- **Removal** of a key, seen from any key. -/
theorem get?_erase (m : OrderedMap κ α) (k k' : κ) :
    (m.erase k).get? k' = if k' = k then none else m.get? k' := by
  have h := get?_filter_key (fun k' => decide (k' ≠ k)) m k'
  by_cases hk : k' = k
  · rw [if_pos hk]
    rw [if_neg (by simpa using hk)] at h
    exact h
  · rw [if_neg hk]
    rw [if_pos (by simpa using hk)] at h
    exact h

/-- Removing a key that is not there changes nothing. -/
theorem erase_of_get?_eq_none {m : OrderedMap κ α} {k : κ} (h : m.get? k = none) :
    m.erase k = m := by
  refine congrArg OrderedMap.mk (List.filter_eq_self.2 fun e he => decide_eq_true fun hk => ?_)
  exact get?_eq_none_iff.1 h (hk ▸ List.mem_map_of_mem he)

omit [DecidableEq κ] in
/-- Changing values changes no key. -/
@[simp]
theorem keys_mapValues (f : κ → α → β) (m : OrderedMap κ α) : (m.mapValues f).keys = m.keys := by
  simp [mapValues, keys]

/-- **Changing values**, seen from any key. -/
@[simp]
theorem get?_mapValues (f : κ → α → β) (m : OrderedMap κ α) (k : κ) :
    (m.mapValues f).get? k = (m.get? k).map (f k) := by
  simp only [get?, mapValues]
  induction m.entries with
  | nil => rfl
  | cons e rest ih =>
    obtain ⟨k', v⟩ := e
    by_cases hk : k' = k
    · simp [lookupIn, hk]
    · simp [lookupIn, hk, ih]

omit [DecidableEq κ] in
/-- Two changes of values are one. -/
theorem mapValues_mapValues {γ : Type} (f : κ → α → β) (g : κ → β → γ) (m : OrderedMap κ α) :
    (m.mapValues f).mapValues g = m.mapValues fun k v => g k (f k v) := by
  simp [mapValues]

omit [DecidableEq κ] in
/-- Only what becomes of its entries matters to a map. -/
theorem mapValues_congr {m : OrderedMap κ α} {f g : κ → α → β}
    (h : ∀ e ∈ m.entries, f e.1 e.2 = g e.1 e.2) : m.mapValues f = m.mapValues g := by
  refine congrArg OrderedMap.mk (List.map_congr_left fun e he => ?_)
  rw [h e he]

omit [DecidableEq κ] in
theorem mapValues_eq_self {m : OrderedMap κ α} {f : κ → α → α}
    (h : ∀ e ∈ m.entries, f e.1 e.2 = e.2) : m.mapValues f = m :=
  (mapValues_congr (g := fun _ v => v) h).trans (congrArg OrderedMap.mk (List.map_id _))

omit [DecidableEq κ] in
/-- Maps are told apart by values that are changed without loss. -/
theorem mapValues_inj {f : α → β} (hf : ∀ v w, f v = f w → v = w) {m n : OrderedMap κ α} :
    (m.mapValues fun _ v => f v) = n.mapValues (fun _ v => f v) ↔ m = n := by
  refine ⟨fun h => ?_, fun h => by rw [h]⟩
  have hinj : Function.Injective fun e : κ × α => (e.1, f e.2) := by
    rintro ⟨k, v⟩ ⟨k', w⟩ he
    obtain ⟨rfl, hvw⟩ := Prod.mk.inj he
    rw [hf v w hvw]
  exact congrArg mk (List.map_injective_iff.2 hinj (OrderedMap.mk.inj h))

/-- To insert under a key that is there is to replace its value. -/
theorem insert_eq_mapValues {m : OrderedMap κ α} (hm : m.keys.Nodup) {k : κ} (hk : k ∈ m.keys)
    (v : α) : m.insert k v = m.mapValues fun k' v' => if k' = k then v else v' := by
  obtain ⟨l⟩ := m
  refine congrArg OrderedMap.mk ?_
  change insertIn k v l = l.map fun e => (e.1, if e.1 = k then v else e.2)
  induction l with
  | nil => cases hk
  | cons e rest ih =>
    obtain ⟨k', v'⟩ := e
    obtain ⟨hk', hrest⟩ := List.nodup_cons.1 hm
    rw [insertIn, List.map_cons]
    by_cases hkey : k' = k
    · have hothers : rest.map (fun e => (e.1, if e.1 = k then v else e.2)) = rest := by
        refine (List.map_congr_left fun e he => ?_).trans (List.map_id _)
        have hmem : e.1 ∈ rest.map Prod.fst := List.mem_map_of_mem he
        have hne : e.1 ≠ k := fun heq => hk' (heq.trans hkey.symm ▸ hmem)
        rw [if_neg hne]
        rfl
      rw [if_pos hkey, if_pos hkey, hothers, hkey]
    · have hmem : k ∈ (⟨rest⟩ : OrderedMap κ α).keys :=
        (List.mem_cons.1 hk).resolve_left fun heq => hkey heq.symm
      rw [if_neg hkey, if_neg hkey, ih hrest hmem]

/-- To insert what is there changes nothing. -/
theorem insert_eq_self {m : OrderedMap κ α} {k : κ} {v : α} (h : m.get? k = some v) :
    m.insert k v = m := by
  obtain ⟨l⟩ := m
  refine congrArg OrderedMap.mk ?_
  change lookupIn k l = some v at h
  induction l with
  | nil => cases h
  | cons e rest ih =>
    obtain ⟨k', v'⟩ := e
    rw [lookupIn] at h
    rw [insertIn]
    by_cases hkey : k' = k
    · rw [if_pos hkey] at h
      rw [if_pos hkey, hkey, Option.some.inj h]
    · rw [if_neg hkey] at h
      rw [if_neg hkey, ih h]

/-! ### Insertions one after another -/

/-- Laying two lists of entries over a map is laying one after the other. -/
theorem merge_append (m : OrderedMap κ α) (l₁ l₂ : List (κ × α)) :
    m.merge ⟨l₁ ++ l₂⟩ = (m.merge ⟨l₁⟩).merge ⟨l₂⟩ := List.foldl_append

/-- **The last entry wins** where maps are laid over each other. -/
theorem get?_merge (m n : OrderedMap κ α) (k : κ) :
    (m.merge n).get? k = (lookupIn k n.entries.reverse).or (m.get? k) := by
  obtain ⟨l⟩ := n
  induction l using List.reverseRecOn with
  | nil => rfl
  | append_singleton l e ih =>
    rw [merge_append, List.reverse_append]
    change ((m.merge ⟨l⟩).insert e.1 e.2).get? k = _
    by_cases h : k = e.1
    · subst h
      simp [lookupIn]
    · rw [get?_insert_of_ne h, ih]
      simp [lookupIn, Ne.symm h]

/-- **An overlay**, seen from any key: the upper map counts first. -/
theorem get?_merge_of_nodup {n : OrderedMap κ α} (hn : n.keys.Nodup) (m : OrderedMap κ α) (k : κ) :
    (m.merge n).get? k = (n.get? k).or (m.get? k) := by
  rw [get?_merge, lookupIn_reverse hn]
  rfl

/-- A further element counts when it did not occur. -/
theorem eraseDups_append_singleton (l : List κ) (k : κ) :
    (l ++ [k]).eraseDups = if k ∈ l then l.eraseDups else l.eraseDups ++ [k] := by
  rw [List.eraseDups_append]
  by_cases h : k ∈ l <;> simp [List.removeAll, h, List.eraseDups_cons]

/-- **The first position wins:** the new keys follow, each at its first mention. -/
theorem keys_merge (m n : OrderedMap κ α) :
    (m.merge n).keys = m.keys ++ n.keys.eraseDups.filter (· ∉ m.keys) := by
  obtain ⟨l⟩ := n
  induction l using List.reverseRecOn with
  | nil => simp [merge, keys]
  | append_singleton l e ih =>
    have hkeys : (⟨l ++ [e]⟩ : OrderedMap κ α).keys = (⟨l⟩ : OrderedMap κ α).keys ++ [e.1] := by
      simp [keys]
    rw [merge_append, hkeys, eraseDups_append_singleton]
    change ((m.merge ⟨l⟩).insert e.1 e.2).keys = _
    rw [keys_insert, ih]
    by_cases hm : e.1 ∈ m.keys <;> by_cases hl : e.1 ∈ (⟨l⟩ : OrderedMap κ α).keys <;>
      simp [hm, hl]

/-- A new key comes last. -/
theorem insertIn_of_notMem {k : κ} {l : List (κ × α)} (h : k ∉ l.map Prod.fst) (v : α) :
    insertIn k v l = l ++ [(k, v)] := by
  induction l with
  | nil => rfl
  | cons e rest ih =>
    obtain ⟨k', v'⟩ := e
    rw [List.map_cons, List.mem_cons, not_or] at h
    rw [insertIn, if_neg (Ne.symm h.1), ih h.2, List.cons_append]

/-- What is found under a key is the first entry of it. -/
theorem exists_first_of_lookupIn {k : κ} {v : α} {l : List (κ × α)} (h : lookupIn k l = some v) :
    ∃ before after, l = before ++ (k, v) :: after ∧ k ∉ before.map Prod.fst := by
  induction l with
  | nil => cases h
  | cons e rest ih =>
    obtain ⟨k', v'⟩ := e
    by_cases hk : k' = k
    · subst hk
      simp only [lookupIn, if_true, Option.some.injEq] at h
      exact ⟨[], rest, by rw [h]; rfl, List.not_mem_nil⟩
    · simp only [lookupIn, hk, if_false] at h
      obtain ⟨before, after, rfl, hbefore⟩ := ih h
      exact ⟨(k', v') :: before, after, rfl, by simp [hbefore, Ne.symm hk]⟩

/-- A key that is there keeps its place. -/
theorem insertIn_append_cons {k : κ} {before : List (κ × α)} (h : k ∉ before.map Prod.fst)
    (old v : α) (after : List (κ × α)) :
    insertIn k v (before ++ (k, old) :: after) = before ++ (k, v) :: after := by
  induction before with
  | nil => simp [insertIn]
  | cons e rest ih =>
    rw [List.map_cons, List.mem_cons, not_or] at h
    simp [insertIn, Ne.symm h.1, ih h.2]

/-- A map and the one that has a value under a key besides: in the place of the key, or else
behind all other entries. -/
inductive Puts (k : κ) (v : α) : OrderedMap κ α → OrderedMap κ α → Prop where
  | inPlace {before after : List (κ × α)} {old : α} (h : k ∉ before.map Prod.fst) :
      Puts k v ⟨before ++ (k, old) :: after⟩ ⟨before ++ (k, v) :: after⟩
  | last {entries : List (κ × α)} (h : k ∉ entries.map Prod.fst) :
      Puts k v ⟨entries⟩ ⟨entries ++ [(k, v)]⟩

/-- **The place of an insertion.** -/
theorem puts_insert (m : OrderedMap κ α) (k : κ) (v : α) : Puts k v m (m.insert k v) := by
  obtain ⟨l⟩ := m
  change Puts k v ⟨l⟩ ⟨insertIn k v l⟩
  cases hold : lookupIn k l with
  | none =>
    have hk := lookupIn_eq_none_iff.1 hold
    rw [insertIn_of_notMem hk]
    exact .last hk
  | some old =>
    obtain ⟨before, after, rfl, hbefore⟩ := exists_first_of_lookupIn hold
    rw [insertIn_append_cons hbefore]
    exact .inPlace hbefore

/-- After an insertion an entry is the new one or an old one. -/
theorem mem_of_mem_insertIn {k : κ} {v : α} {l : List (κ × α)} {e : κ × α}
    (h : e ∈ insertIn k v l) : e = (k, v) ∨ e ∈ l := by
  induction l with
  | nil => exact .inl (List.mem_singleton.1 h)
  | cons e' rest ih =>
    rw [insertIn] at h
    split at h
    · exact (List.mem_cons.1 h).imp_right (List.mem_cons_of_mem _)
    · rcases List.mem_cons.1 h with rfl | h
      · exact .inr List.mem_cons_self
      · exact (ih h).imp_right (List.mem_cons_of_mem _)

/-- The entries of an overlay come from the one map or the other. -/
theorem mem_of_mem_merge {m n : OrderedMap κ α} {e : κ × α} (h : e ∈ (m.merge n).entries) :
    e ∈ m.entries ∨ e ∈ n.entries := by
  obtain ⟨l⟩ := n
  induction l using List.reverseRecOn with
  | nil => exact .inl h
  | append_singleton l e' ih =>
    rw [merge_append] at h
    rcases mem_of_mem_insertIn h with rfl | h
    · exact .inr (by simp)
    · exact (ih h).imp_right (List.mem_append_left _)

/-- **An overlay that shares no key** is put behind. -/
theorem entries_merge_of_disjoint {m n : OrderedMap κ α} (hn : n.keys.Nodup)
    (h : ∀ k ∈ n.keys, k ∉ m.keys) : (m.merge n).entries = m.entries ++ n.entries := by
  obtain ⟨l⟩ := n
  induction l using List.reverseRecOn with
  | nil => exact (List.append_nil _).symm
  | append_singleton l e ih =>
    have hkeys : (⟨l ++ [e]⟩ : OrderedMap κ α).keys = (⟨l⟩ : OrderedMap κ α).keys ++ [e.1] := by
      simp [keys]
    rw [hkeys] at hn h
    obtain ⟨hl, -, hdisjoint⟩ := List.nodup_append.1 hn
    have hm := ih hl fun k hk => h k (List.mem_append_left _ hk)
    have hnew : e.1 ∉ ((m.merge ⟨l⟩).entries).map Prod.fst := by
      rw [hm, List.map_append, List.mem_append, not_or]
      refine ⟨h e.1 (by simp), fun hmem => ?_⟩
      exact hdisjoint e.1 hmem e.1 (List.mem_singleton_self _) rfl
    rw [merge_append]
    change insertIn e.1 e.2 (m.merge ⟨l⟩).entries = _
    rw [insertIn_of_notMem hnew, hm, List.append_assoc]

/-- A list without repeated keys is a map as it is. -/
theorem entries_ofList {l : List (κ × α)} (h : (l.map Prod.fst).Nodup) :
    (ofList l : OrderedMap κ α).entries = l :=
  entries_merge_of_disjoint (m := empty) h fun _ _ hk => by cases hk

/-- A filter by keys is the same before an insertion and behind it. -/
theorem filter_insertIn (p : κ → Bool) (k : κ) (v : α) (l : List (κ × α)) :
    (insertIn k v l).filter (fun e => p e.1)
      = if p k then insertIn k v (l.filter fun e => p e.1) else l.filter fun e => p e.1 := by
  induction l with
  | nil => by_cases hk : p k <;> simp [insertIn, hk]
  | cons e rest ih =>
    obtain ⟨k', v'⟩ := e
    by_cases h : k' = k
    · subst h
      by_cases hk : p k' <;> simp [insertIn, hk]
    · by_cases hk' : p k' <;> by_cases hk : p k <;> simp_all [insertIn]

/-- Filtering by the key commutes with laying maps over each other. -/
theorem filter_merge_key (p : κ → Bool) (m n : OrderedMap κ α) :
    (m.merge n).filter (fun k _ => p k)
      = (m.filter fun k _ => p k).merge (n.filter fun k _ => p k) := by
  obtain ⟨l⟩ := n
  induction l using List.reverseRecOn with
  | nil => rfl
  | append_singleton l e ih =>
    have hlast : ((m.merge ⟨l⟩).insert e.1 e.2).filter (fun k _ => p k)
        = if p e.1 then ((m.merge ⟨l⟩).filter fun k _ => p k).insert e.1 e.2
          else (m.merge ⟨l⟩).filter fun k _ => p k := by
      unfold filter insert
      rw [filter_insertIn]
      split <;> rfl
    rw [merge_append]
    change ((m.merge ⟨l⟩).insert e.1 e.2).filter (fun k _ => p k) = _
    rw [hlast, ih]
    by_cases he : p e.1 <;> simp [filter, merge, he]

/-- An overlay repeats no key. -/
theorem nodup_keys_merge {m : OrderedMap κ α} (hm : m.keys.Nodup) (n : OrderedMap κ α) :
    (m.merge n).keys.Nodup := by
  obtain ⟨l⟩ := n
  induction l using List.reverseRecOn with
  | nil => exact hm
  | append_singleton l e ih =>
    rw [merge_append]
    exact nodup_keys_insert ih e.1 e.2

/-- The keys of a list are in the order of their first mention. -/
theorem keys_ofList (l : List (κ × α)) :
    (ofList l : OrderedMap κ α).keys = (l.map Prod.fst).eraseDups := by
  rw [ofList, keys_merge]
  simp [empty, keys]

/-- A map that is made of a list repeats no key. -/
theorem nodup_keys_ofList (l : List (κ × α)) : (ofList l : OrderedMap κ α).keys.Nodup :=
  nodup_keys_merge (m := empty) List.nodup_nil _

/-- In a map that is made of a list the last mention of a key counts. -/
theorem get?_ofList (l : List (κ × α)) (k : κ) :
    (ofList l : OrderedMap κ α).get? k = lookupIn k l.reverse := by
  rw [ofList, get?_merge, get?_empty, Option.or_none]

/-- What is kept at its first mention is not repeated. -/
theorem nodup_eraseDups (l : List κ) : l.eraseDups.Nodup := by
  have h := nodup_keys_ofList (l.map fun k => (k, ()))
  rw [keys_ofList, List.map_map] at h
  simpa [Function.comp_def] using h

/-- Where nothing is repeated, nothing is left out. -/
theorem eraseDups_eq_self {l : List κ} (h : l.Nodup) : l.eraseDups = l := by
  induction l with
  | nil => rfl
  | cons k rest ih =>
    obtain ⟨hk, hrest⟩ := List.nodup_cons.1 h
    have hfilter : (rest.filter fun b => !b == k) = rest := by
      refine List.filter_eq_self.2 fun b hb => ?_
      simpa using fun e : b = k => hk (e ▸ hb)
    rw [List.eraseDups_cons, hfilter, ih hrest]

end OrderedMap

/-! ### Sorted texts -/

/-- Sorted texts ascend. -/
theorem pairwise_le_mergeSort (texts : List String) :
    (texts.mergeSort fun a b => decide (a ≤ b)).Pairwise (· ≤ ·) := by
  refine (List.pairwise_mergeSort ?_ ?_ texts).imp of_decide_eq_true
  · intro a b c hab hbc
    simp only [decide_eq_true_eq] at hab hbc ⊢
    exact String.le_trans hab hbc
  · intro a b
    simp only [Bool.or_eq_true, decide_eq_true_eq]
    exact String.le_total a b

/-- Sorted texts that are not repeated are in strict order. -/
theorem pairwise_lt_mergeSort {texts : List String} (h : texts.Nodup) :
    (texts.mergeSort fun a b => decide (a ≤ b)).Pairwise (· < ·) :=
  (pairwise_le_mergeSort texts).imp₂ (fun _ _ => Std.lt_of_le_of_ne)
    ((List.mergeSort_perm texts _).nodup_iff.2 h)

end Inventory
