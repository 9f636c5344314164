/-
# Handing a blob out while others put and take

`put` and `take` of `DirTempStore`, while others put and take.

A take is two steps, reading the file and removing it, and other steps may come in between.
A *history* lists the steps for one key in the order in which they are made, by any number
of parties (`DirTempStore.Run`). A take removes whatever has the file by then:

| between reading and removing | the removal | the take |
| --- | --- | --- |
| nothing | removes what was read | returns it |
| another take | fails | fails |
| another take, then a put | removes the new blob | returns the old one a second time |

In the last case the new blob is lost, unless yet another take has read it, which then goes
the same way. So each blob is handed out at most once and none is dropped exactly when no put
comes between the reading and the removing of a take
(`DirTempStore.handedOutOnce_iff_undisturbed`).
-/

import Inventory.Proofs.Definitions.Mirror
import Inventory.Proofs.TempStore.Directory
import Mathlib.Data.Nat.Find

namespace Inventory
namespace DirTempStore

/-! ### Histories -/

/-- A step for a key: a put, or one of the two steps of a take, each with its result. -/
inductive Event where
  | put (data : ByteArray) (result : Except RecordError Unit)
  | read (taker : Nat) (result : Except FileError (Option ByteArray))
  | remove (taker : Nat) (result : Except FileError Unit)

/-- Whether a step changes what the file of the key is. -/
def Event.Changes : Event → Prop
  | .put _ (.ok _) => True
  | .remove _ (.ok _) => True
  | _ => False

/-- Steps for one key, in order. -/
abbrev History := List Event

namespace History

variable {h : History} {i i' j k n t t' : Nat} {data data' : ByteArray}

/-- The step at a place puts a blob. -/
def PutAt (h : History) (i : Nat) (data : ByteArray) : Prop := h[i]? = some (.put data (.ok ()))

/-- The step at a place reads a blob for a take. -/
def ReadAt (h : History) (j t : Nat) (data : ByteArray) : Prop :=
  h[j]? = some (.read t (.ok (some data)))

/-- The step at a place removes the file for a take. -/
def RemovedAt (h : History) (k t : Nat) : Prop := h[k]? = some (.remove t (.ok ()))

/-- After `n` steps the blob that was put at a place is the one that is stored. -/
structure StoredAt (h : History) (n i : Nat) (data : ByteArray) : Prop where
  lt : i < n
  put : h.PutAt i data
  last : ∀ c, i < c → c < n → ∀ e, h[c]? = some e → ¬ e.Changes

/-- A take returns the blob that was put at a place: it read that blob, and removed the file
without an error. -/
def Returns (h : History) (t i : Nat) : Prop :=
  ∃ j k data, h.ReadAt j t data ∧ h.StoredAt j i data ∧ h.RemovedAt k t

/-- A blob that was put at a place is still stored, was returned, or was replaced by the
next one. -/
def Kept (h : History) (i : Nat) (data : ByteArray) : Prop :=
  h.StoredAt h.length i data ∨ (∃ t, h.Returns t i)
    ∨ ∃ c data', h.StoredAt c i data ∧ h.PutAt c data'

/-- **Each blob is handed out at most once and none is dropped.** -/
structure HandedOutOnce (h : History) : Prop where
  once : ∀ i t t', h.Returns t i → h.Returns t' i → t = t'
  kept : ∀ i data, h.PutAt i data → h.Kept i data

/-- No put comes between the reading and the removing of a take. -/
def Undisturbed (h : History) : Prop :=
  ∀ t j p k data data', h.ReadAt j t data → h.PutAt p data' → h.RemovedAt k t → j < p → ¬ p < k

/-! ### What a history tells of the file -/

/-- A history as the file of the key allows it: what is read or removed is what is stored
then, and a take reads once before it removes once. -/
structure Coherent (h : History) : Prop where
  read : ∀ j t data, h.ReadAt j t data → ∃ i, h.StoredAt j i data
  remove : ∀ k t, h.RemovedAt k t → ∃ i data, h.StoredAt k i data
  readBefore : ∀ k t, h.RemovedAt k t → ∃ j < k, ∃ data, h.ReadAt j t data
  readOnce : ∀ j j' t data data', h.ReadAt j t data → h.ReadAt j' t data' → j = j'

/-- A place has one step. -/
theorem RemovedAt.ne_putAt (hremove : h.RemovedAt k t) (hput : h.PutAt i data) : k ≠ i := by
  rintro rfl
  cases hremove.symm.trans hput

/-- A removal is no reading. -/
theorem RemovedAt.ne_readAt (hremove : h.RemovedAt k t) (hread : h.ReadAt j t' data) : k ≠ j := by
  rintro rfl
  cases hremove.symm.trans hread

/-- A reading is no put. -/
theorem ReadAt.ne_putAt (hread : h.ReadAt j t data) (hput : h.PutAt i data') : j ≠ i := by
  rintro rfl
  cases hread.symm.trans hput

/-- A put before a place comes no later than the one whose blob is stored there. -/
theorem PutAt.not_last (hput : h.PutAt i data) {c : Nat} (hstored : h.StoredAt n c data')
    (hlt : i < n) : i ≤ c := by
  by_contra hle
  exact hstored.last i (by omega) hlt _ hput trivial

/-- A removal before a place comes before the put whose blob is stored there. -/
theorem RemovedAt.not_last (hremove : h.RemovedAt k t) {c : Nat} (hstored : h.StoredAt n c data)
    (hlt : k < n) : k < c := by
  have hne : k ≠ c := hremove.ne_putAt hstored.put
  have hle : k ≤ c := by
    by_contra hle
    exact hstored.last k (by omega) hlt _ hremove trivial
  omega

/-- A blob is stored until it is removed at most. -/
theorem RemovedAt.storedAt_le (hremove : h.RemovedAt k t) (hstored : h.StoredAt k i data)
    (hn : h.StoredAt n i data') : n ≤ k := by
  have hbefore : i < k := hstored.lt
  by_contra hle
  have hgone : k < i := hremove.not_last hn (by omega)
  omega

/-- One blob is stored at a time. -/
theorem StoredAt.unique (hi : h.StoredAt n i data) (hi' : h.StoredAt n i' data') : i = i' :=
  Nat.le_antisymm (hi.put.not_last hi' hi.lt) (hi'.put.not_last hi hi'.lt)

/-- What is stored at a place is stored at every place since it was put. -/
theorem StoredAt.of_le (hi : h.StoredAt n i data) (hlt : i < j) (hle : j ≤ n) :
    h.StoredAt j i data :=
  ⟨hlt, hi.put, fun c hc hcj => hi.last c hc (Nat.lt_of_lt_of_le hcj hle)⟩

/-- A blob stays stored until the next change. -/
theorem exists_first_change (hput : h.PutAt i data) :
    h.StoredAt h.length i data ∨ ∃ c e, h[c]? = some e ∧ e.Changes ∧ h.StoredAt c i data := by
  have hi : i < h.length := (List.getElem?_eq_some_iff.1 hput).1
  by_cases hnext : ∃ c, i < c ∧ ∃ e, h[c]? = some e ∧ e.Changes
  · -- The first of the changes after it.
    classical
    obtain ⟨hlt, e, he, hchanges⟩ := Nat.find_spec hnext
    refine .inr ⟨Nat.find hnext, e, he, hchanges, hlt, hput, fun c hc hcn e' he' hchanges' => ?_⟩
    exact Nat.find_min hnext hcn ⟨hc, e', he', hchanges'⟩
  · refine .inl ⟨hi, hput, fun c hc _ e he hchanges => ?_⟩
    exact hnext ⟨c, hc, e, he, hchanges⟩

namespace Coherent

/-- **Undisturbed takes** return what they remove. -/
theorem storedAt_of_undisturbed (hh : h.Coherent) (hquiet : h.Undisturbed)
    (hread : h.ReadAt j t data) (hremove : h.RemovedAt k t) (hstored : h.StoredAt j i data) :
    h.StoredAt k i data := by
  obtain ⟨c, data', hc⟩ := hh.remove k t hremove
  obtain ⟨j', hj', data'', hread'⟩ := hh.readBefore k t hremove
  obtain rfl := hh.readOnce j j' t _ _ hread hread'
  have hbefore : c < j := by
    by_contra hle
    have hne : j ≠ c := hread.ne_putAt hc.put
    exact hquiet t j c k data data' hread hc.put hremove (by omega) hc.lt
  have hsame := hstored.unique (hc.of_le hbefore (Nat.le_of_lt hj'))
  subst hsame
  have hdata := hc.put.symm.trans hstored.put
  cases hdata
  exact hc

/-- **Undisturbed takes** hand every blob out once. -/
theorem handedOutOnce_of_undisturbed (hh : h.Coherent) (hquiet : h.Undisturbed) :
    h.HandedOutOnce where
  once i t t' hreturns hreturns' := by
    obtain ⟨j, k, data, hread, hstored, hremove⟩ := hreturns
    obtain ⟨j', k', data', hread', hstored', hremove'⟩ := hreturns'
    have hk := hh.storedAt_of_undisturbed hquiet hread hremove hstored
    have hk' := hh.storedAt_of_undisturbed hquiet hread' hremove' hstored'
    -- Whoever removes later finds the file of another put.
    rcases Nat.lt_trichotomy k k' with hlt | rfl | hlt
    · have hnext := hremove.not_last hk' hlt
      have hfirst := hk.lt
      omega
    · have hsame := hremove.symm.trans hremove'
      cases hsame
      rfl
    · have hnext := hremove'.not_last hk hlt
      have hfirst := hk'.lt
      omega
  kept i data hput := by
    obtain hstored | ⟨c, e, he, hchanges, hstored⟩ := exists_first_change hput
    · exact .inl hstored
    · cases e with
      | put data' result =>
        cases result with
        | ok u => exact .inr (.inr ⟨c, data', hstored, he⟩)
        | error _ => exact hchanges.elim
      | read t result => exact hchanges.elim
      | remove t result =>
        cases result with
        | error _ => exact hchanges.elim
        | ok u =>
          -- The blob is removed by a take, which has read it.
          obtain ⟨j, hj, data', hread⟩ := hh.readBefore c t he
          obtain ⟨i', hi'⟩ := hh.read j t data' hread
          have hremoved := hh.storedAt_of_undisturbed hquiet hread he hi'
          obtain rfl := hremoved.unique hstored
          exact .inr (.inl ⟨t, j, c, data', hread, hi', he⟩)

/-- **A put between the two steps of a take** is lost, or another take has read its blob and
removes the file of a put that comes later still. -/
theorem exists_later_disturbed (hh : h.Coherent)
    (hkept : ∀ i data, h.PutAt i data → h.Kept i data) {p : Nat} (hread : h.ReadAt j t data)
    (hput : h.PutAt p data') (hremove : h.RemovedAt k t) (hjp : j < p) (hpk : p < k) :
    ∃ t' j' p' k' data data', h.ReadAt j' t' data ∧ h.PutAt p' data' ∧ h.RemovedAt k' t'
      ∧ j' < p' ∧ p' < k' ∧ k < k' := by
  -- The last put before the removal takes the place of the one that is given.
  obtain ⟨c, data₁, hc⟩ := hh.remove k t hremove
  have hpc : p ≤ c := hput.not_last hc hpk
  have hklen : k < h.length := (List.getElem?_eq_some_iff.1 hremove).1
  obtain hstored | ⟨t', j', k', data₂, hread', hstored', hremove'⟩ | ⟨c', data₂, hstored', hput'⟩ :=
    hkept c data₁ hc.put
  · have hle : h.length ≤ k := hremove.storedAt_le hc hstored
    omega
  · -- Another take returned it, and so removes after this one.
    have hcj' : c < j' := hstored'.lt
    have hj'k : j' ≤ k := hremove.storedAt_le hc hstored'
    have hne' : k ≠ j' := hremove.ne_readAt hread'
    have hj'k' : j' < k' := by
      obtain ⟨j'', hj'', data₃, hread''⟩ := hh.readBefore k' t' hremove'
      obtain rfl := hh.readOnce j' j'' t' _ _ hread' hread''
      exact hj''
    have hne : k ≠ k' := by
      rintro rfl
      cases hremove.symm.trans hremove'
      obtain rfl := hh.readOnce j j' t _ _ hread hread'
      omega
    have hlater : k < k' := by
      by_contra hle
      have hearlier : k' < c := hremove'.not_last hc (by omega)
      omega
    obtain ⟨p', data₄, hp'⟩ := hh.remove k' t' hremove'
    have hkp' : k < p' := hremove.not_last hp' hlater
    exact ⟨t', j', p', k', data₂, data₄, hread', hp'.put, hremove', by omega, hp'.lt, hlater⟩
  · -- It was replaced before it was removed.
    have hle : c' ≤ k := hremove.storedAt_le hc hstored'
    have hne : k ≠ c' := hremove.ne_putAt hput'
    have hlast : c' ≤ c := hput'.not_last hc (by omega)
    have hfirst : c < c' := hstored'.lt
    omega

/-- Where every blob is handed out, no take is disturbed. -/
theorem undisturbed_of_kept (hh : h.Coherent)
    (hkept : ∀ i data, h.PutAt i data → h.Kept i data) : h.Undisturbed := by
  intro t j p k data data' hread hput hremove hjp hpk
  -- By induction on how many steps are left after the removal.
  induction hm : h.length - k using Nat.strongRecOn generalizing t j p k data data' with
  | ind m ih =>
    obtain ⟨t', j', p', k', data₁, data₂, hread', hput', hremove', hjp', hpk', hlater⟩ :=
      hh.exists_later_disturbed hkept hread hput hremove hjp hpk
    have hklen : k' < h.length := (List.getElem?_eq_some_iff.1 hremove').1
    exact ih (h.length - k') (by omega) t' j' p' k' data₁ data₂ hread' hput' hremove' hjp' hpk' rfl

/-- **Every blob is handed out once** exactly when no take is disturbed. -/
theorem handedOutOnce_iff (hh : h.Coherent) : h.HandedOutOnce ↔ h.Undisturbed :=
  ⟨fun hhanded => hh.undisturbed_of_kept hhanded.kept, hh.handedOutOnce_of_undisturbed⟩

end Coherent

/-! ### One more step -/

variable {e e' : Event}

/-- An event is one of those before, or the last. -/
theorem getElem?_concat {c : Nat} :
    (h ++ [e])[c]? = some e' ↔ h[c]? = some e' ∨ c = h.length ∧ e = e' := by
  rcases Nat.lt_trichotomy c h.length with hlt | rfl | hlt
  · have hne : c ≠ h.length := Nat.ne_of_lt hlt
    simp [List.getElem?_append_left hlt, hne]
  · simp
  · have hbeyond : (h ++ [e])[c]? = none := by
      refine List.getElem?_eq_none ?_
      rw [List.length_append, List.length_singleton]
      omega
    have hbefore : h[c]? = none := List.getElem?_eq_none (Nat.le_of_lt hlt)
    simp [hbeyond, hbefore, Nat.ne_of_gt hlt]

/-- A further event leaves what was stored before it. -/
theorem StoredAt.append (hi : h.StoredAt n i data) (hn : n ≤ h.length) (e : Event) :
    StoredAt (h ++ [e]) n i data where
  lt := hi.lt
  put := getElem?_concat.2 (.inl hi.put)
  last c hc hcn e' he' := by
    obtain hbefore | ⟨rfl, -⟩ := getElem?_concat.1 he'
    · exact hi.last c hc hcn e' hbefore
    · omega

/-- A step that changes nothing leaves what is stored. -/
theorem StoredAt.concat (hi : h.StoredAt h.length i data) (he : ¬ e.Changes) :
    StoredAt (h ++ [e]) (h ++ [e]).length i data where
  lt := by
    have hlt := hi.lt
    rw [List.length_append]
    omega
  put := getElem?_concat.2 (.inl hi.put)
  last c hc _ e' he' := by
    obtain hbefore | ⟨-, rfl⟩ := getElem?_concat.1 he'
    · exact hi.last c hc (List.getElem?_eq_some_iff.1 hbefore).1 e' hbefore
    · exact he

/-- A put stores its blob. -/
theorem storedAt_concat_put (h : History) (data : ByteArray) :
    StoredAt (h ++ [Event.put data (.ok ())]) (h ++ [Event.put data (.ok ())]).length h.length
      data where
  lt := by simp
  put := getElem?_concat.2 (.inr ⟨rfl, rfl⟩)
  last c hc hcn _ _ := by
    rw [List.length_append, List.length_singleton] at hcn
    omega

/-- **Step:** a history stays coherent when a take reads what is stored, and removes what is
stored after it has read. -/
theorem Coherent.concat (hh : h.Coherent)
    (hread : ∀ t data, e = .read t (.ok (some data)) →
      (∃ i, h.StoredAt h.length i data) ∧ ∀ r, .read t r ∉ h)
    (hremove : ∀ t, e = .remove t (.ok ()) →
      (∃ i data, h.StoredAt h.length i data) ∧ ∃ data, .read t (.ok (some data)) ∈ h) :
    Coherent (h ++ [e]) where
  -- An event is one of those before or the new one, of which `hread` and `hremove` speak.
  read j t data hj := by
    obtain hbefore | ⟨rfl, rfl⟩ := getElem?_concat.1 hj
    · obtain ⟨i, hi⟩ := hh.read j t data hbefore
      exact ⟨i, hi.append (Nat.le_of_lt (List.getElem?_eq_some_iff.1 hbefore).1) e⟩
    · obtain ⟨⟨i, hi⟩, -⟩ := hread t data rfl
      exact ⟨i, hi.append (Nat.le_refl _) _⟩
  remove k t hk := by
    obtain hbefore | ⟨rfl, rfl⟩ := getElem?_concat.1 hk
    · obtain ⟨i, data, hi⟩ := hh.remove k t hbefore
      exact ⟨i, data, hi.append (Nat.le_of_lt (List.getElem?_eq_some_iff.1 hbefore).1) e⟩
    · obtain ⟨⟨i, data, hi⟩, -⟩ := hremove t rfl
      exact ⟨i, data, hi.append (Nat.le_refl _) _⟩
  readBefore k t hk := by
    obtain hbefore | ⟨rfl, rfl⟩ := getElem?_concat.1 hk
    · obtain ⟨j, hj, data, hread'⟩ := hh.readBefore k t hbefore
      exact ⟨j, hj, data, getElem?_concat.2 (.inl hread')⟩
    · obtain ⟨-, data, hmem⟩ := hremove t rfl
      obtain ⟨j, hj⟩ := List.mem_iff_getElem?.1 hmem
      exact ⟨j, (List.getElem?_eq_some_iff.1 hj).1, data, getElem?_concat.2 (.inl hj)⟩
  readOnce j j' t data data' hj hj' := by
    obtain hbefore | ⟨rfl, he⟩ := getElem?_concat.1 hj
    · obtain hbefore' | ⟨rfl, he'⟩ := getElem?_concat.1 hj'
      · exact hh.readOnce j j' t data data' hbefore hbefore'
      · exact absurd (List.mem_of_getElem? hbefore) ((hread t data' he').2 _)
    · obtain hbefore' | ⟨rfl, -⟩ := getElem?_concat.1 hj'
      · exact absurd (List.mem_of_getElem? hbefore') ((hread t data he).2 _)
      · rfl

end History

/-! ### Runs -/

variable {s : DirTempStore} {key : String} {start d d' : Disk} {l : Location} {h : History}
  {t : Nat} {data : ByteArray}

/-- Runs of steps for one key. A put is one step. A take reads once, and if it has read a blob
then it removes the file, once and at any time afterwards. -/
inductive Run (s : DirTempStore) (key : String) (start : Disk) : History → Disk → Prop
  | start : Run s key start [] start
  | put {h : History} {d d' : Disk} {data : ByteArray} {result : Except RecordError Unit}
      (hrun : Run s key start h d) (hstep : (s.put key data).run.run d = (result, d')) :
      Run s key start (h ++ [.put data result]) d'
  | read {h : History} {d d' : Disk} {t : Nat} {result : Except FileError (Option ByteArray)}
      (hrun : Run s key start h d) (hnew : ∀ r, .read t r ∉ h)
      (hstep : (s.peek key).run.run d = (result, d')) :
      Run s key start (h ++ [.read t result]) d'
  | remove {h : History} {d d' : Disk} {t : Nat} {data : ByteArray}
      {result : Except FileError Unit} (hrun : Run s key start h d)
      (hread : .read t (.ok (some data)) ∈ h) (honce : ∀ r, .remove t r ∉ h)
      (hstep : (Disk.change (·.remove (s.pathOf key))).run.run d = (result, d')) :
      Run s key start (h ++ [.remove t result]) d'

/-- **A take that nobody interrupts** is the two steps, one after the other. -/
theorem Run.take (hrun : Run s key start h d) (hkey : TempStore.isPlainKey key = true)
    (hread : ∀ r, .read t r ∉ h) (hremove : ∀ r, .remove t r ∉ h)
    {result : Except RecordError (Option ByteArray)}
    (htake : (s.take key).run.run d = (result, d')) :
    ∃ seen, (Run s key start (h ++ [.read t seen]) d' ∧ result = seen.mapError .file
        ∧ ∀ data, seen ≠ .ok (some data))
      ∨ ∃ data removed, seen = .ok (some data)
        ∧ Run s key start (h ++ [.read t seen] ++ [.remove t removed]) d'
        ∧ result = (removed.mapError .file).map fun _ => some data := by
  rw [DirTempStore.take, if_pos hkey, DiskM.run_adapt] at htake
  rcases hpeek : (s.peek key).run.run d with ⟨seen, d₁⟩
  have hrun₁ := hrun.read hread hpeek
  refine ⟨seen, ?_⟩
  cases seen with
  | error e =>
    rw [DiskM.run_bind_of_error hpeek] at htake
    obtain ⟨rfl, rfl⟩ := Prod.mk.inj htake
    exact .inl ⟨hrun₁, rfl, by simp⟩
  | ok blob =>
    rw [DiskM.run_bind_of_ok hpeek] at htake
    cases blob with
    | none =>
      obtain ⟨rfl, rfl⟩ := Prod.mk.inj htake
      exact .inl ⟨hrun₁, rfl, by simp⟩
    | some data =>
      -- only a blob that was read is removed, and then it is handed out if the removal succeeds
      rcases hremoved : (Disk.change (·.remove (s.pathOf key))).run.run d₁ with ⟨removed, d₂⟩
      have honce : ∀ r, .remove t r ∉ h ++ [.read t (.ok (some data))] := by
        intro r hr
        rw [List.mem_append, List.mem_singleton] at hr
        exact hr.elim (hremove r) fun heq => by cases heq
      have hmem : .read t (.ok (some data)) ∈ h ++ [.read t (.ok (some data))] := by simp
      have hboth : (do
          if (some data).isSome then
            Disk.change (·.remove (s.pathOf key))
          return some data : DiskM FileError (Option ByteArray)).run.run d₁
            = (removed.map fun _ => some data, d₂) := by
        rw [Option.isSome_some, if_pos rfl]
        cases removed with
        | error e => exact DiskM.run_bind_of_error hremoved
        | ok u => exact DiskM.run_bind_of_ok hremoved
      rw [hboth] at htake
      obtain ⟨rfl, rfl⟩ := Prod.mk.inj htake
      refine .inr ⟨data, removed, rfl, hrun₁.remove hmem honce hremoved, ?_⟩
      cases removed <;> rfl

/-- What a run keeps: the directory is there, the history is coherent, and the file of the key
is the blob that the history says is stored. -/
structure Follows (s : DirTempStore) (key : String) (l : Location) (h : History) (d : Disk) :
    Prop where
  directoryAt : d.DirectoryAt s.root l
  coherent : h.Coherent
  stored : ∀ data, d.entryAt? (l ++ [key]) = some (.file data) →
    ∃ i, h.StoredAt h.length i data

/-- **Step:** putting. -/
theorem Follows.put (hd : s.Follows key l h d) (hkey : TempStore.isPlainKey key = true)
    (hname : key ≠ d.temporaryName) {result : Except RecordError Unit}
    (hstep : (s.put key data).run.run d = (result, d')) :
    s.Follows key l (h ++ [.put data result]) d' := by
  have hcoherent : History.Coherent (h ++ [.put data result]) :=
    hd.coherent.concat (fun _ _ he => by cases he) fun _ he => by cases he
  cases result with
  | error e =>
    obtain ⟨hentry, hkeeps⟩ := entryAt?_of_run_put_error hd.directoryAt hkey hname hstep
    refine ⟨hd.directoryAt.mono hkeeps, hcoherent, fun data' hdata => ?_⟩
    rw [hentry] at hdata
    obtain ⟨i, hi⟩ := hd.stored data' hdata
    exact ⟨i, hi.concat id⟩
  | ok u =>
    obtain ⟨⟨-, htemporary⟩, ⟨-, hfile⟩, rfl⟩ :=
      (run_put_eq_ok_iff hd.directoryAt hkey hname).1 hstep
    have hkeeps := Disk.keepsDirectories_replaced htemporary hfile data
    refine ⟨hd.directoryAt.mono hkeeps, hcoherent, fun data' hdata => ?_⟩
    rw [Disk.entryAt?_replaced, if_pos rfl] at hdata
    obtain rfl : data = data' := FileEntry.file.inj (Option.some.inj hdata)
    exact ⟨h.length, History.storedAt_concat_put h data⟩

/-- **Step:** reading. -/
theorem Follows.read (hd : s.Follows key l h d) (hkey : TempStore.isPlainKey key = true)
    (hnew : ∀ r, .read t r ∉ h) {result : Except FileError (Option ByteArray)}
    (hstep : (s.peek key).run.run d = (result, d')) :
    s.Follows key l (h ++ [.read t result]) d' := by
  obtain rfl : d = d' := by
    rw [run_peek hd.directoryAt hkey] at hstep
    exact (Prod.mk.inj hstep).2
  refine ⟨hd.directoryAt, hd.coherent.concat (fun t' data he => ?_) (fun _ he => by cases he),
    fun data hdata => ?_⟩
  · cases he
    obtain ⟨-, hentry, -⟩ := (run_peek_eq_some_iff hd.directoryAt hkey).1 hstep
    exact ⟨hd.stored data hentry, hnew⟩
  · obtain ⟨i, hi⟩ := hd.stored data hdata
    exact ⟨i, hi.concat id⟩

/-- **Step:** removing. -/
theorem Follows.remove (hd : s.Follows key l h d) (hkey : TempStore.isPlainKey key = true)
    (hread : .read t (.ok (some data)) ∈ h) {result : Except FileError Unit}
    (hstep : (Disk.change (·.remove (s.pathOf key))).run.run d = (result, d')) :
    s.Follows key l (h ++ [.remove t result]) d' := by
  cases result with
  | error e =>
    obtain rfl : d = d' := by
      rw [DiskM.run_change] at hstep
      split at hstep
      · cases (Prod.mk.inj hstep).1
      · exact (Prod.mk.inj hstep).2
    refine ⟨hd.directoryAt,
      hd.coherent.concat (fun _ _ he => by cases he) (fun _ he => by cases he), ?_⟩
    intro data' hdata
    obtain ⟨i, hi⟩ := hd.stored data' hdata
    exact ⟨i, hi.concat id⟩
  | ok u =>
    obtain ⟨-, ⟨data', hfile⟩, rfl⟩ := (run_remove_eq_ok_iff hd.directoryAt hkey).1 hstep
    refine ⟨hd.directoryAt.mono (Disk.keepsDirectories_erase hfile),
      hd.coherent.concat (fun _ _ he => by cases he) fun t' he => ?_, fun data'' hdata => ?_⟩
    · cases he
      obtain ⟨i, hi⟩ := hd.stored data' hfile
      exact ⟨⟨i, data', hi⟩, data, hread⟩
    · rw [Disk.entryAt?_erase_self (Disk.concat_ne_nil _ _)] at hdata
      cases hdata

/-- **Run:** whatever the parties do, in whatever order. -/
theorem Run.follows (hrun : Run s key start h d) (hstart : start.DirectoryAt s.root l)
    (hkey : TempStore.isPlainKey key = true) (hvacant : start.entryAt? (l ++ [key]) = none)
    (hname : ∀ d : Disk, key ≠ d.temporaryName) : s.Follows key l h d := by
  induction hrun with
  | start =>
    refine ⟨hstart, ⟨?_, ?_, ?_, ?_⟩, fun data hdata => ?_⟩
    · intro j t data hj
      cases hj
    · intro k t hk
      cases hk
    · intro k t hk
      cases hk
    · intro j j' t data data' hj
      cases hj
    · rw [hvacant] at hdata
      cases hdata
  | put hrun hstep ih => exact ih.put hkey (hname _) hstep
  | read hrun hnew hstep ih => exact ih.read hkey hnew hstep
  | remove hrun hread honce hstep ih => exact ih.remove hkey hread hstep

/-- **Handing out under concurrency.** Take any interleaving of puts and takes of an accepted
key, by any number of parties, in a directory that holds no blob of the key at first. Each blob
is returned by at most one take, and one that was put is still stored, was returned or was
replaced by the next one, exactly when no put comes between the reading and the removing of a
take. -/
theorem handedOutOnce_iff_undisturbed (hrun : Run s key start h d)
    (hstart : start.DirectoryAt s.root l) (hkey : TempStore.isPlainKey key = true)
    (hvacant : start.entryAt? (l ++ [key]) = none)
    (hname : ∀ d : Disk, key ≠ d.temporaryName) : h.HandedOutOnce ↔ h.Undisturbed :=
  (hrun.follows hstart hkey hvacant hname).coherent.handedOutOnce_iff

/-! ### Two takes and a put -/

/-- Two takes read a blob, and the first removes it. -/
def raced (x : ByteArray) : History :=
  [.put x (.ok ()), .read 0 (.ok (some x)), .read 1 (.ok (some x)), .remove 0 (.ok ())]

/-- Then another blob is put, and the second take removes that. -/
def doublyReturned (x y : ByteArray) : History :=
  raced x ++ [.put y (.ok ())] ++ [.remove 1 (.ok ())]

section

variable {count : Nat}

/-- The next temporary name can be used where it is fresh. -/
theorem temporaryName_of_freshIn (hfresh : d.FreshIn l (count + 1)) :
    Disk.CanName d.temporaryName ∧ d.entryAt? (l ++ [d.temporaryName]) ≠ some .directory := by
  obtain ⟨hcan, hvacant⟩ := hfresh 0 (Nat.succ_pos count)
  refine ⟨hcan, ?_⟩
  show d.entryAt? (l ++ [d.temporaryAfter 0]) ≠ some .directory
  simp [hvacant]

/-- Removing an entry leaves names fresh. -/
theorem freshIn_erase (hfresh : d.FreshIn l count) (m : Location) :
    ({ d with entries := d.entries.erase m } : Disk).FreshIn l count := by
  intro i hi
  obtain ⟨hcan, hvacant⟩ := hfresh i hi
  refine ⟨hcan, ?_⟩
  by_cases hm : l ++ [d.temporaryAfter i] = m
  · rw [← hm]
    exact Disk.entryAt?_erase_self (Disk.concat_ne_nil _ _) d
  · exact (Disk.entryAt?_erase_of_ne hm d).trans hvacant

variable (hkey : TempStore.isPlainKey key = true) (hshort : key.utf8ByteSize ≤ 255)
  (hname : ∀ d : Disk, key ≠ d.temporaryName)

include hkey hshort hname

/-- A blob is put where none is. -/
theorem exists_run_put (hdirectory : d.DirectoryAt s.root l)
    (hvacant : d.entryAt? (l ++ [key]) = none) (hfresh : d.FreshIn l (count + 1))
    (x : ByteArray) :
    ∃ d', (s.put key x).run.run d = (.ok (), d') ∧ d'.DirectoryAt s.root l
      ∧ d'.entryAt? (l ++ [key]) = some (.file x) ∧ d'.FreshIn l count := by
  have hcan := (TempStore.canName_iff_of_isPlainKey hkey).2 hshort
  have hfree := temporaryName_of_freshIn hfresh
  have hvacant' : d.entryAt? (l ++ [key]) ≠ some .directory := by simp [hvacant]
  have hput : (s.put key x).run.run d = (.ok (), d.replaced l key x) :=
    (run_put_eq_ok_iff hdirectory hkey (hname d)).2 ⟨hfree, ⟨hcan, hvacant'⟩, rfl⟩
  refine ⟨_, hput, hdirectory.mono (Disk.keepsDirectories_replaced hfree.2 hvacant' x), ?_,
    hfresh.replaced (fun i => hname _) x⟩
  rw [Disk.entryAt?_replaced, if_pos rfl]

variable (hstart : start.DirectoryAt s.root l) (hvacant : start.entryAt? (l ++ [key]) = none)
  (hfresh : start.FreshIn l 2)

include hstart hvacant hfresh

/-- Afterwards nothing is stored. -/
theorem exists_run_raced (x : ByteArray) :
    ∃ d, Run s key start (raced x) d ∧ d.DirectoryAt s.root l
      ∧ d.entryAt? (l ++ [key]) = none ∧ d.FreshIn l 1 := by
  have hcan := (TempStore.canName_iff_of_isPlainKey hkey).2 hshort
  obtain ⟨d, hput, hdirectory, hstored, hfresh'⟩ :=
    exists_run_put hkey hshort hname hstart hvacant hfresh x
  have hpeek := (run_peek_eq_some_iff hdirectory hkey).2 ⟨hcan, hstored, rfl⟩
  have hremove := (run_remove_eq_ok_iff (u := ()) hdirectory hkey).2 ⟨hcan, ⟨x, hstored⟩, rfl⟩
  have hrun₁ := (Run.start.put hput).read (t := 0) (by simp) hpeek
  have hrun₂ := hrun₁.read (t := 1) (by simp) hpeek
  have hread : Event.read 0 (.ok (some x)) ∈
      [.put x (.ok ())] ++ [.read 0 (.ok (some x))] ++ [.read 1 (.ok (some x))] := by simp
  exact ⟨_, hrun₂.remove hread (by simp) hremove,
    hdirectory.mono (Disk.keepsDirectories_erase hstored),
    Disk.entryAt?_erase_self (Disk.concat_ne_nil _ _) _, freshIn_erase hfresh' _⟩

/-- **A blob is returned twice**, and another is lost, when the other is put between the two
steps of the second take. -/
theorem exists_run_doublyReturned (x y : ByteArray) :
    ∃ d, Run s key start (doublyReturned x y) d := by
  have hcan := (TempStore.canName_iff_of_isPlainKey hkey).2 hshort
  obtain ⟨d, hrun, hdirectory, hgone, hfresh'⟩ :=
    exists_run_raced hkey hshort hname hstart hvacant hfresh x
  obtain ⟨d', hput, hdirectory', hstored, -⟩ :=
    exists_run_put hkey hshort hname hdirectory hgone hfresh' y
  have hremove := (run_remove_eq_ok_iff (u := ()) hdirectory' hkey).2 ⟨hcan, ⟨y, hstored⟩, rfl⟩
  have hread : Event.read 1 (.ok (some x)) ∈ raced x ++ [.put y (.ok ())] := by simp [raced]
  exact ⟨_, (hrun.put hput).remove hread (by simp [raced]) hremove⟩

/-- The second take fails when nothing is put. -/
theorem exists_run_outrun (x : ByteArray) :
    ∃ e d, Run s key start (raced x ++ [.remove 1 (.error e)]) d := by
  obtain ⟨d, hrun, hdirectory, hgone, -⟩ :=
    exists_run_raced hkey hshort hname hstart hvacant hfresh x
  have hread : Event.read 1 (.ok (some x)) ∈ raced x := by simp [raced]
  rcases hremove : (Disk.change (·.remove (s.pathOf key))).run.run d with ⟨e | u, d'⟩
  · exact ⟨e, d', hrun.remove hread (by simp [raced]) hremove⟩
  · obtain ⟨-, ⟨data, hfile⟩, -⟩ := (run_remove_eq_ok_iff hdirectory hkey).1 hremove
    rw [hgone] at hfile
    cases hfile

end

namespace History

/-- Both takes return the first blob. -/
theorem returns_doublyReturned (x y : ByteArray) :
    Returns (doublyReturned x y) 0 0 ∧ Returns (doublyReturned x y) 1 0 := by
  have hstored (n : Nat) (hn : 0 < n) (hle : n ≤ 3) : StoredAt (doublyReturned x y) n 0 x := by
    refine ⟨hn, rfl, fun c hc hcn e he => ?_⟩
    have hcases : c = 1 ∨ c = 2 := by omega
    rcases hcases with rfl | rfl
    · cases he
      exact id
    · cases he
      exact id
  exact ⟨⟨1, 3, x, rfl, hstored 1 (by omega) (by omega), rfl⟩,
    ⟨2, 5, x, rfl, hstored 2 (by omega) (by omega), rfl⟩⟩

/-- The second blob is not handed out. -/
theorem not_kept_doublyReturned (x y : ByteArray) : ¬ Kept (doublyReturned x y) 4 y := by
  have hlast {c : Nat} {e : Event} (hc : 4 < c) (he : (doublyReturned x y)[c]? = some e) :
      c = 5 ∧ e = .remove 1 (.ok ()) := by
    have hlt : c < 6 := (List.getElem?_eq_some_iff.1 he).1
    obtain rfl : c = 5 := by omega
    exact ⟨rfl, (Option.some.inj he).symm⟩
  rintro (hstored | ⟨t, j, k, data, hread, hstored, -⟩ | ⟨c, data', hstored, hput⟩)
  · exact hstored.last 5 (by omega) (Nat.lt_succ_self 5) _ rfl trivial
  · cases (hlast hstored.lt hread).2
  · cases (hlast hstored.lt hput).2

/-- A take whose removal fails hands nothing out, so it disturbs nothing. -/
theorem undisturbed_outrun (x : ByteArray) (e : FileError) :
    Undisturbed (raced x ++ [.remove 1 (.error e)]) := by
  intro t j p k data data' hread hput _ hjp _
  have hlt : p < 5 := (List.getElem?_eq_some_iff.1 hput).1
  have hcases : p = 1 ∨ p = 2 ∨ p = 3 ∨ p = 4 := by omega
  rcases hcases with rfl | rfl | rfl | rfl <;> cases hput

end History

theorem ne_temporaryName_keyPair (d : Disk) : "kp.pem" ≠ d.temporaryName :=
  Disk.ne_temporaryName_of_head? (by decide) d

theorem freshIn_emptyRegistry : emptyRegistry.FreshIn ["registry"] 2 := by
  have hcan : ∀ i < 2, Disk.CanName (emptyRegistry.temporaryAfter i) := by decide +kernel
  exact fun i hi => ⟨hcan i hi, emptyAt_emptyRegistry.vacant _ (by simp)⟩

/-- Two takes of a private key in an empty directory, one of which comes too late. -/
theorem handedOutOnce_keyPair :
    ∃ e d, Run ⟨.ofText "registry"⟩ "kp.pem" emptyRegistry
        (raced "-----BEGIN".toUTF8 ++ [.remove 1 (.error e)]) d
      ∧ History.HandedOutOnce (raced "-----BEGIN".toUTF8 ++ [.remove 1 (.error e)]) := by
  have hvacant := emptyAt_emptyRegistry.vacant ["kp.pem"] (by simp)
  obtain ⟨e, d, hrun⟩ := exists_run_outrun (s := ⟨.ofText "registry"⟩) (by decide) (by decide)
    ne_temporaryName_keyPair emptyAt_emptyRegistry.directoryAt hvacant freshIn_emptyRegistry
    "-----BEGIN".toUTF8
  refine ⟨e, d, hrun, ?_⟩
  exact (handedOutOnce_iff_undisturbed hrun emptyAt_emptyRegistry.directoryAt (by decide) hvacant
    ne_temporaryName_keyPair).2 (History.undisturbed_outrun _ e)

/-- **A put between the two steps of a take:** the old key is returned by two takes, and the
new one is neither stored nor returned nor replaced. -/
theorem not_handedOutOnce_keyPair :
    ∃ d, Run ⟨.ofText "registry"⟩ "kp.pem" emptyRegistry
        (doublyReturned "old".toUTF8 "new".toUTF8) d
      ∧ (History.Returns (doublyReturned "old".toUTF8 "new".toUTF8) 0 0
        ∧ History.Returns (doublyReturned "old".toUTF8 "new".toUTF8) 1 0)
      ∧ History.PutAt (doublyReturned "old".toUTF8 "new".toUTF8) 4 "new".toUTF8
      ∧ ¬ History.Kept (doublyReturned "old".toUTF8 "new".toUTF8) 4 "new".toUTF8
      ∧ ¬ History.HandedOutOnce (doublyReturned "old".toUTF8 "new".toUTF8) := by
  obtain ⟨d, hrun⟩ := exists_run_doublyReturned (s := ⟨.ofText "registry"⟩) (by decide)
    (by decide) ne_temporaryName_keyPair emptyAt_emptyRegistry.directoryAt
    (emptyAt_emptyRegistry.vacant ["kp.pem"] (by simp)) freshIn_emptyRegistry "old".toUTF8
    "new".toUTF8
  have hlost := History.not_kept_doublyReturned "old".toUTF8 "new".toUTF8
  exact ⟨d, hrun, History.returns_doublyReturned _ _, rfl, hlost,
    fun h => hlost (h.kept 4 _ rfl)⟩

end DirTempStore
end Inventory
