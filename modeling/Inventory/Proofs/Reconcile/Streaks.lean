/-
# What the stamps of a stored record tell

`created` and `changed` over the runs of `reconcile`.

A sequence of runs reports a key again and again, with breaks. What is stored for a key
after a run that reports it tells of the streak of runs that ends there (`Tells`):

| of the stored record | comes from |
| --- | --- |
| identifier, `created` | the first run of the streak |
| `changed` | the last run of the streak in which a value differed, else the first one |
| `refreshed` | the last run |

Values are compared between the last reported records of consecutive runs, in the way
in which they are seen. A record that is stored for a new key tells of a streak that
begins (`Tells.start`), a record that is stored for a stored key of the streak that the
stored record told of (`Tells.extend`).
-/

import Inventory.Proofs.Reconcile.Batch
import Inventory.Proofs.Reconcile.Stamps

namespace Inventory
namespace Reconcile

/-- One reconciliation of a sequence: what was reported, and when. -/
structure Run where
  remote : List Record
  now : Timestamp

/-- The last reported record of a key, as it was reported. -/
def Scope.lastRemote? (scope : Scope) (remote : List Record) (key : String) : Option Record :=
  remote.reverse.find? fun r => scope.key? (scope.placed r) = some key

/-- The last record that a run reports for a key. -/
def Scope.reported? (scope : Scope) (runs : List Run) (key : String) (i : Nat) : Option Record :=
  runs[i]?.bind fun run => scope.lastRemote? run.remote key

/-! ### Streaks -/

/-- Run `m` is the first of the unbroken streak of runs with a report that ends at `n`. -/
structure FirstOfStreak (reported? : Nat → Option Record) (m n : Nat) : Prop where
  le : m ≤ n
  unbroken : ∀ i, m ≤ i → i ≤ n → (reported? i).isSome
  starts : ∀ i, i + 1 = m → reported? i = none

/-- Run `j` is the last one from `m` to `n` in which something changed, counting `m`. -/
structure LastChange (changes : Nat → Prop) (m n j : Nat) : Prop where
  ge : m ≤ j
  le : j ≤ n
  change : j = m ∨ changes j
  last : ∀ i, j < i → i ≤ n → ¬ changes i

variable {reported? reported?' : Nat → Option Record} {changes changes' : Nat → Prop}
  {m m' n j j' : Nat}

/-- A streak has one first run. -/
theorem FirstOfStreak.unique (h : FirstOfStreak reported? m n)
    (h' : FirstOfStreak reported? m' n) : m = m' := by
  have hle {m m' : Nat} (h : FirstOfStreak reported? m n) (h' : FirstOfStreak reported? m' n) :
      m ≤ m' := by
    by_contra hlt
    obtain ⟨i, hi⟩ : ∃ i, i + 1 = m := ⟨m - 1, by omega⟩
    have hbefore := h.starts i hi
    have hwithin := h'.unbroken i (by omega) (by have := h.le; omega)
    rw [hbefore] at hwithin
    cases hwithin
  exact Nat.le_antisymm (hle h h') (hle h' h)

/-- A streak has one last change. -/
theorem LastChange.unique (h : LastChange changes m n j) (h' : LastChange changes m n j') :
    j = j' := by
  have hle {j j' : Nat} (h : LastChange changes m n j) (h' : LastChange changes m n j') :
      j ≤ j' := by
    by_contra hlt
    rcases h.change with hm | hchanges
    · have := h'.ge
      omega
    · exact h'.last j (by omega) h.le hchanges
  exact Nat.le_antisymm (hle h h') (hle h' h)

/-- A streak begins with a report after a run without one. -/
theorem firstOfStreak_self (hreported : (reported? n).isSome)
    (hbefore : ∀ i, i + 1 = n → reported? i = none) : FirstOfStreak reported? n n where
  le := Nat.le_refl n
  unbroken i hge hle := by rwa [show i = n by omega]
  starts := hbefore

/-- A streak goes on with a report. -/
theorem FirstOfStreak.succ (h : FirstOfStreak reported? m n)
    (hsame : ∀ i ≤ n, reported?' i = reported? i) (hreported : (reported?' (n + 1)).isSome) :
    FirstOfStreak reported?' m (n + 1) where
  le := Nat.le_succ_of_le h.le
  unbroken i hge hle := by
    rcases Nat.lt_or_ge n i with hlt | hin
    · rwa [show i = n + 1 by omega]
    · rw [hsame i hin]
      exact h.unbroken i hge hin
  starts i hi := by
    have := h.le
    rw [hsame i (by omega)]
    exact h.starts i hi

/-- A streak that has just begun has its last change there. -/
theorem lastChange_self : LastChange changes n n n where
  ge := Nat.le_refl n
  le := Nat.le_refl n
  change := .inl rfl
  last i hlt hle := by omega

/-- A change in a later run is the last one. -/
theorem lastChange_of_changes (hle : m ≤ n) (h : changes n) : LastChange changes m n n where
  ge := hle
  le := Nat.le_refl n
  change := .inr h
  last i hlt hle := by omega

/-- A run without a change leaves the last one as it was. -/
theorem LastChange.succ (h : LastChange changes m n j)
    (hsame : ∀ i ≤ n, changes' i ↔ changes i) (hnot : ¬ changes' (n + 1)) :
    LastChange changes' m (n + 1) j where
  ge := h.ge
  le := Nat.le_succ_of_le h.le
  change := h.change.imp_right (hsame j h.le).2
  last i hlt hle := by
    rcases Nat.lt_or_ge n i with hlt' | hin
    · rwa [show i = n + 1 by omega]
    · rw [hsame i hin]
      exact h.last i hlt hin

/-! ### What a stored record tells -/

/-- In run `i` a value differs, outside the stamps, from what run `i - 1` reported, both
taken as `seen` shows them. -/
def Scope.Changes (scope : Scope) (seen : Record → Record) (runs : List Run) (key : String)
    (i : Nat) : Prop :=
  ∃ k a b, k + 1 = i ∧ scope.reported? runs key k = some a ∧ scope.reported? runs key i = some b
    ∧ Differ (seen a) (seen b)

/-- After run `n` a stored record of a key tells of the streak that began with run `m` and
of its last change in run `j`. -/
structure Tells (scope : Scope) (seen : Record → Record) (runs : List Run) (key : String)
    (n m j : Nat) (r : Record) : Prop where
  streak : FirstOfStreak (scope.reported? runs key) m n
  change : LastChange (scope.Changes seen runs key) m n j
  stamps : ∃ a first changed last, runs[m]? = some first ∧ runs[j]? = some changed
    ∧ runs[n]? = some last ∧ scope.lastRemote? first.remote key = some a ∧ r.id = a.id
    ∧ HasStamps r (createdOr first.now a) (.timestamp changed.now) (.timestamp last.now)

variable {scope : Scope} {remote : List Record} {runs : List Run} {run : Run} {key : String}
  {seen : Record → Record}

/-- The last record of a key is the last reported one, moved to the context. -/
theorem Scope.last?_eq (scope : Scope) (remote : List Record) (key : String) :
    scope.last? remote key = (scope.lastRemote? remote key).map scope.placed := by
  rw [last?, first?, ← List.map_reverse, List.find?_map]
  rfl

/-- The last reported record of a key is reported, and has the key. -/
theorem Scope.mem_of_lastRemote? {a : Record} (h : scope.lastRemote? remote key = some a) :
    a ∈ remote ∧ scope.key? (scope.placed a) = some key :=
  ⟨List.mem_reverse.1 (List.mem_of_find?_eq_some h), by simpa using List.find?_some h⟩

/-- Every reported key has a last reported record. -/
theorem Scope.exists_lastRemote? (h : key ∈ scope.keys remote) :
    ∃ a, scope.lastRemote? remote key = some a := by
  obtain ⟨b, hb, hk⟩ := mem_keys_iff.1 h
  rw [← Option.isSome_iff_exists, lastRemote?, List.find?_isSome]
  exact ⟨b, List.mem_reverse.2 hb, by simpa using hk⟩

/-- A further run leaves what the runs before it reported. -/
theorem Scope.reported?_append {i : Nat} (hi : i < runs.length) :
    scope.reported? (runs ++ [run]) key i = scope.reported? runs key i := by
  rw [reported?, reported?, List.getElem?_append_left hi]

/-- The last run reports what its report holds. -/
theorem Scope.reported?_last :
    scope.reported? (runs ++ [run]) key runs.length = scope.lastRemote? run.remote key := by
  rw [reported?, List.getElem?_concat_length]
  rfl

/-- A further run leaves the changes before it. -/
theorem Scope.changes_append {i : Nat} (hi : i < runs.length) :
    scope.Changes seen (runs ++ [run]) key i ↔ scope.Changes seen runs key i := by
  have hbefore {k : Nat} (hk : k + 1 = i) :
      scope.reported? (runs ++ [run]) key k = scope.reported? runs key k :=
    reported?_append (by omega)
  constructor
  · rintro ⟨k, a, b, hk, ha, hb, hdiffer⟩
    exact ⟨k, a, b, hk, hbefore hk ▸ ha, reported?_append hi ▸ hb, hdiffer⟩
  · rintro ⟨k, a, b, hk, ha, hb, hdiffer⟩
    exact ⟨k, a, b, hk, (hbefore hk).trans ha, (reported?_append hi).trans hb, hdiffer⟩

/-- The last run changes a key when its record differs from that of the run before. -/
theorem Scope.changes_last_iff (hn : runs.length = n + 1) {a b : Record}
    (ha : scope.reported? runs key n = some a) (hb : scope.lastRemote? run.remote key = some b) :
    scope.Changes seen (runs ++ [run]) key (n + 1) ↔ Differ (seen a) (seen b) := by
  have ha' : scope.reported? (runs ++ [run]) key n = some a :=
    (reported?_append (by omega)).trans ha
  have hb' : scope.reported? (runs ++ [run]) key (n + 1) = some b :=
    hn ▸ reported?_last.trans hb
  constructor
  · rintro ⟨k, a₁, b₁, hk, ha₁, hb₁, hdiffer⟩
    obtain rfl : k = n := by omega
    rw [ha'] at ha₁
    rw [hb'] at hb₁
    rwa [Option.some.inj ha₁, Option.some.inj hb₁]
  · exact fun hdiffer => ⟨n, a, b, rfl, ha', hb', hdiffer⟩

/-- The runs that a stored record tells of are determined by the reports. -/
theorem Tells.unique {r r' : Record} (h : Tells scope seen runs key n m j r)
    (h' : Tells scope seen runs key n m' j' r') : m = m' ∧ j = j' := by
  obtain rfl := h.streak.unique h'.streak
  exact ⟨rfl, h.change.unique h'.change⟩

/-- A record that is stored for a new key tells of a streak that begins. -/
theorem Tells.start {a r : Record} (ha : scope.lastRemote? run.remote key = some a)
    (hbreak : ∀ i, i + 1 = runs.length → scope.reported? runs key i = none) (hid : r.id = a.id)
    (hstamps : HasStamps r (createdOr run.now a) (.timestamp run.now) (.timestamp run.now)) :
    Tells scope seen (runs ++ [run]) key runs.length runs.length runs.length r := by
  have hrun : (runs ++ [run])[runs.length]? = some run := List.getElem?_concat_length
  refine ⟨firstOfStreak_self ?_ fun i hi => ?_, lastChange_self, a, run, run, run, hrun, hrun,
    hrun, ha, hid, hstamps⟩
  · rw [Scope.reported?_last, ha]
    rfl
  · rw [Scope.reported?_append (by omega)]
    exact hbreak i hi

/-- A record that is stored for a stored key tells of the streak that goes on. -/
theorem Tells.extend {existing a b r : Record} (h : Tells scope seen runs key n m j existing)
    (hn : runs.length = n + 1) (ha : scope.reported? runs key n = some a)
    (hb : scope.lastRemote? run.remote key = some b) (hid : r.id = existing.id)
    (hstamps : ∀ created changed refreshed, HasStamps existing created changed refreshed →
      (Differ (seen a) (seen b) →
        HasStamps r created (.timestamp run.now) (.timestamp run.now))
      ∧ (¬ Differ (seen a) (seen b) → HasStamps r created changed (.timestamp run.now))) :
    ∃ j', Tells scope seen (runs ++ [run]) key (n + 1) m j' r := by
  have hrun : (runs ++ [run])[n + 1]? = some run := hn ▸ List.getElem?_concat_length
  have hbefore {i : Nat} {run₀ : Run} (h₀ : runs[i]? = some run₀) :
      (runs ++ [run])[i]? = some run₀ := by
    rw [List.getElem?_append_left (List.getElem?_eq_some_iff.1 h₀).1, h₀]
  have hstreak : FirstOfStreak (scope.reported? (runs ++ [run]) key) m (n + 1) := by
    refine h.streak.succ (fun i hi => Scope.reported?_append (by omega)) ?_
    rw [← hn, Scope.reported?_last, hb]
    rfl
  have hchanges : scope.Changes seen (runs ++ [run]) key (n + 1) ↔ Differ (seen a) (seen b) :=
    Scope.changes_last_iff hn ha hb
  obtain ⟨a₀, first, changed, last, hfirst, hchanged, -, ha₀, hid₀, hstamps₀⟩ := h.stamps
  obtain ⟨hdiffer, hsame⟩ := hstamps _ _ _ hstamps₀
  by_cases hd : Differ (seen a) (seen b)
  · exact ⟨n + 1, hstreak, lastChange_of_changes hstreak.le (hchanges.2 hd), a₀, first, run, run,
      hbefore hfirst, hrun, hrun, ha₀, hid.trans hid₀, hdiffer hd⟩
  · have hchange : LastChange (scope.Changes seen (runs ++ [run]) key) m (n + 1) j :=
      h.change.succ (fun i hi => Scope.changes_append (by omega)) fun hc => hd (hchanges.1 hc)
    exact ⟨j, hstreak, hchange, a₀, first, changed, run, hbefore hfirst, hbefore hchanged, hrun,
      ha₀, hid.trans hid₀, hsame hd⟩

end Reconcile
end Inventory
