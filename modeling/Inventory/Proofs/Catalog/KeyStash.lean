/-
# A private key is handed out once

`stash` and `take` of `PrivateKeyStash`.

Whatever calls were made before, taking the private key of a key pair gives the one
that *waits* for its identifier: that of the last stashing for the identifier, if
nothing was taken for it since (`KeyStash.Waiting`). A call changes what waits for
one identifier at most:

| call | what waits afterwards for its record's identifier |
| --- | --- |
| stash for a key pair | the new key |
| take for a key pair | nothing |
| for a record of another type | unchanged, the call fails |

The keys wait under names that identifiers determine and that determine them
(`KeyStash.nameFor_injective`), and such a name is always accepted
(`KeyStash.isPlainKey_nameFor`).
-/

import Inventory.Catalog.KeyStash
import Inventory.Proofs.Except
import Inventory.Proofs.OrderedMap
import Inventory.Proofs.Ulid

namespace Inventory
namespace KeyStash

/-! ### Names -/

/-- The name under which the private key for an identifier waits. -/
def nameFor (id : Ulid) : String := entityType ++ "_" ++ id.toText ++ ".pem"

/-- Keys of different identifiers wait under different names. -/
theorem nameFor_injective : Function.Injective nameFor := by
  intro a b h
  have hlists := congrArg String.toList h
  simp only [nameFor, String.toList_append] at hlists
  exact Ulid.toText_injective
    (String.toList_injective (List.append_cancel_left (List.append_cancel_right hlists)))

/-- **Every such name is a plain file name.** -/
theorem isPlainKey_nameFor (id : Ulid) : TempStore.isPlainKey (nameFor id) = true := by
  have hdigits : Ulid.alphabet.all (fun c => decide (c ≠ '/' ∧ c ≠ '\\' ∧ c ≠ '\x00')) = true := by
    decide
  have hplain : (nameFor id).toList.all (fun c => decide (c ≠ '/' ∧ c ≠ '\\' ∧ c ≠ '\x00'))
      = true := by
    simp only [nameFor, String.toList_append, List.all_append, Bool.and_eq_true]
    refine ⟨⟨⟨by decide, by decide⟩, ?_⟩, by decide⟩
    exact List.all_eq_true.2 fun c hc =>
      List.all_eq_true.1 hdigits c (Ulid.mem_alphabet_of_mem_toText hc)
  have hlong : 2 < (nameFor id).toList.length := by
    have hprefix : entityType.toList.length = 18 := by decide
    simp only [nameFor, String.toList_append, List.length_append, hprefix]
    omega
  have hne {s : String} (hs : s.toList.length ≤ 2) : nameFor id ≠ s := by
    rintro rfl
    omega
  have hempty : nameFor id ≠ "" := hne (by decide)
  have hdot : nameFor id ≠ "." := hne (by decide)
  have hdots : nameFor id ≠ ".." := hne (by decide)
  rw [TempStore.isPlainKey, decide_eq_true hempty, decide_eq_true hdot, decide_eq_true hdots,
    Bool.true_and, Bool.true_and, Bool.true_and]
  exact hplain

/-- The key of a key pair waits under the name of its identifier. -/
theorem keyOf_of_eq {r : Record} (h : r.entityType = entityType) : keyOf r = .ok (nameFor r.id) :=
  if_pos h

/-- Records of other types are refused. -/
theorem keyOf_of_ne {r : Record} (h : r.entityType ≠ entityType) :
    keyOf r = .error (.entityTypeMismatch entityType r.entityType) :=
  if_neg h

/-! ### Calls -/

/-- A call for a record: stash its private key, or take it. -/
inductive Call where
  | put (r : Record) (privateKey : ByteArray)
  | take (r : Record)

namespace Call

/-- The record that a call is for. -/
def record : Call → Record
  | .put r _ => r
  | .take r => r

/-- The private key that a call leaves. -/
def left? : Call → Option ByteArray
  | .put _ privateKey => some privateKey
  | .take _ => none

/-- Whether a call is for a key pair with the identifier. -/
def Concerns (c : Call) (id : Ulid) : Prop :=
  c.record.entityType = entityType ∧ c.record.id = id

instance (c : Call) (id : Ulid) : Decidable (c.Concerns id) :=
  inferInstanceAs (Decidable (c.record.entityType = entityType ∧ c.record.id = id))

end Call

/-- What a call answers, and the stash after it. A call that fails leaves the stash
as it was. -/
def call (s : KeyStash) : Call → Except RecordError (Option ByteArray) × KeyStash
  | .put r privateKey =>
    match s.put r privateKey with
    | .ok s' => (.ok none, s')
    | .error e => (.error e, s)
  | .take r =>
    match s.take r with
    | .ok (privateKey, s') => (.ok privateKey, s')
    | .error e => (.error e, s)

/-- The stash after calls, one after another. -/
def after (s : KeyStash) (calls : List Call) : KeyStash := calls.foldl (fun s c => (s.call c).2) s

/-- The last call is made on the stash that the calls before it leave. -/
theorem after_append_singleton (s : KeyStash) (calls : List Call) (c : Call) :
    s.after (calls ++ [c]) = ((s.after calls).call c).2 :=
  List.foldl_append

variable {s : KeyStash} {r : Record}

/-- **A call for a record of another type** fails and changes nothing. -/
theorem call_of_ne {c : Call} (h : c.record.entityType ≠ entityType) :
    s.call c = (.error (.entityTypeMismatch entityType c.record.entityType), s) := by
  cases c with
  | put r privateKey =>
    have hkey : keyOf r = .error (.entityTypeMismatch entityType r.entityType) := keyOf_of_ne h
    rw [call, put, hkey]
    rfl
  | take r =>
    have hkey : keyOf r = .error (.entityTypeMismatch entityType r.entityType) := keyOf_of_ne h
    rw [call, take, hkey]
    rfl

/-- Stashing replaces what waits for the identifier. -/
theorem call_put (h : r.entityType = entityType) (privateKey : ByteArray) :
    s.call (.put r privateKey)
      = (.ok none, ⟨⟨s.store.blobs.insert (nameFor r.id) privateKey⟩⟩) := by
  have hput : s.store.put (nameFor r.id) privateKey
      = .ok ⟨s.store.blobs.insert (nameFor r.id) privateKey⟩ := if_pos (isPlainKey_nameFor r.id)
  have hstash : s.put r privateKey = .ok ⟨⟨s.store.blobs.insert (nameFor r.id) privateKey⟩⟩ :=
    bind_eq_ok_iff.2 ⟨_, keyOf_of_eq h, bind_eq_ok_iff.2 ⟨_, hput, rfl⟩⟩
  rw [call, hstash]

/-- Taking hands out what waits for the identifier, and nothing waits for it afterwards. -/
theorem call_take (h : r.entityType = entityType) :
    s.call (.take r)
      = (.ok (s.store.blobs.get? (nameFor r.id)), ⟨⟨s.store.blobs.erase (nameFor r.id)⟩⟩) := by
  have htake : s.store.take (nameFor r.id)
      = .ok (s.store.blobs.get? (nameFor r.id), ⟨s.store.blobs.erase (nameFor r.id)⟩) :=
    if_pos (isPlainKey_nameFor r.id)
  have hstash : s.take r
      = .ok (s.store.blobs.get? (nameFor r.id), ⟨⟨s.store.blobs.erase (nameFor r.id)⟩⟩) :=
    bind_eq_ok_iff.2 ⟨_, keyOf_of_eq h, bind_eq_ok_iff.2 ⟨_, htake, rfl⟩⟩
  rw [call, hstash]

/-- **Step:** a call decides what is stored for the identifier that it concerns, and
leaves alone what is stored for every other one. -/
theorem get?_call (s : KeyStash) (c : Call) (id : Ulid) :
    (s.call c).2.store.blobs.get? (nameFor id)
      = if c.Concerns id then c.left? else s.store.blobs.get? (nameFor id) := by
  by_cases htype : c.record.entityType = entityType
  · cases c with
    | put r privateKey =>
      have hr : r.entityType = entityType := htype
      rw [call_put hr]
      by_cases hid : r.id = id
      · rw [if_pos ⟨htype, hid⟩, ← hid]
        exact OrderedMap.get?_insert_self _ _ _
      · rw [if_neg fun h => hid h.2]
        exact OrderedMap.get?_insert_of_ne (fun h => hid (nameFor_injective h.symm)) _ _
    | take r =>
      have hr : r.entityType = entityType := htype
      rw [call_take hr]
      change (s.store.blobs.erase (nameFor r.id)).get? (nameFor id) = _
      rw [OrderedMap.get?_erase]
      by_cases hid : r.id = id
      · have hconcerns : (Call.take r).Concerns id := ⟨htype, hid⟩
        rw [if_pos hconcerns, ← hid, if_pos rfl]
        rfl
      · have hconcerns : ¬ (Call.take r).Concerns id := fun h => hid h.2
        rw [if_neg hconcerns, if_neg fun h => hid (nameFor_injective h.symm)]
  · rw [call_of_ne htype, if_neg fun h => htype h.1]

/-! ### What waits -/

/-- The private key that waits for an identifier after calls: the last call for a key
pair with the identifier stashed it. -/
def Waiting (calls : List Call) (id : Ulid) (privateKey : ByteArray) : Prop :=
  ∃ earlier r later, calls = earlier ++ .put r privateKey :: later
    ∧ (Call.put r privateKey).Concerns id ∧ ∀ c ∈ later, ¬ c.Concerns id

variable {calls : List Call} {c : Call} {id : Ulid} {privateKey : ByteArray}

/-- Before any call nothing waits. -/
theorem not_waiting_nil : ¬ Waiting [] id privateKey := by
  rintro ⟨earlier, r, later, h, -⟩
  exact List.append_ne_nil_of_right_ne_nil _ (List.cons_ne_nil _ _) h.symm

/-- **Step:** a call decides what waits for the identifier that it concerns. -/
theorem waiting_append_singleton :
    Waiting (calls ++ [c]) id privateKey ↔
      if c.Concerns id then c.left? = some privateKey else Waiting calls id privateKey := by
  constructor
  · rintro ⟨earlier, r, later, hcalls, hput, hlater⟩
    -- the put is the last call, or it is among the calls before
    rcases List.eq_nil_or_concat later with rfl | ⟨later', last, rfl⟩
    · obtain ⟨-, hlast⟩ := List.append_inj' hcalls rfl
      obtain rfl := List.singleton_inj.1 hlast
      rw [if_pos hput]
      rfl
    · rw [List.concat_eq_append] at hcalls hlater
      have hsplit : calls ++ [c] = (earlier ++ .put r privateKey :: later') ++ [last] := by
        simpa using hcalls
      obtain ⟨hcalls', hlast⟩ := List.append_inj' hsplit rfl
      obtain rfl := List.singleton_inj.1 hlast
      rw [if_neg (hlater c (by simp))]
      exact ⟨earlier, r, later', hcalls', hput, fun c' hc' => hlater c' (by simp [hc'])⟩
  · split
    · rename_i hconcerns
      intro hleft
      cases c with
      | put r privateKey' =>
        obtain rfl := Option.some.inj hleft
        exact ⟨calls, r, [], rfl, hconcerns, fun _ h => by cases h⟩
      | take r => cases hleft
    · rename_i hconcerns
      rintro ⟨earlier, r, later, rfl, hput, hlater⟩
      refine ⟨earlier, r, later ++ [c], by simp, hput, fun c' hc' => ?_⟩
      rcases List.mem_append.1 hc' with hc' | hc'
      · exact hlater c' hc'
      · rwa [List.mem_singleton.1 hc']

/-- **Run:** what is stored under the name for an identifier is what waits for it. -/
theorem get?_after (calls : List Call) (id : Ulid) (privateKey : ByteArray) :
    (after {} calls).store.blobs.get? (nameFor id) = some privateKey
      ↔ Waiting calls id privateKey := by
  induction calls using List.reverseRecOn with
  | nil => exact iff_of_false (fun h => by cases h) not_waiting_nil
  | append_singleton calls c ih =>
    rw [after_append_singleton, get?_call, waiting_append_singleton]
    split
    · exact Iff.rfl
    · exact ih

/-- Calls for records with other identifiers do not count. -/
theorem waiting_filter (calls : List Call) (id : Ulid) (privateKey : ByteArray) :
    Waiting (calls.filter fun c => c.record.id = id) id privateKey
      ↔ Waiting calls id privateKey := by
  induction calls using List.reverseRecOn with
  | nil => exact Iff.rfl
  | append_singleton calls c ih =>
    rw [List.filter_append, waiting_append_singleton]
    by_cases hid : c.record.id = id
    · have hkept : [c].filter (fun c => c.record.id = id) = [c] := by simp [hid]
      rw [hkept, waiting_append_singleton, ih]
    · have hdropped : [c].filter (fun c => c.record.id = id) = [] := by simp [hid]
      rw [hdropped, List.append_nil, if_neg fun h : c.Concerns id => hid h.2, ih]

/-- What is asked of a stash after calls. For a key pair, taking gives the key that
waits for its identifier, or none when none waits, and no call is refused. Calls for
other identifiers do not count; a call for a record of another type fails and changes
nothing; and no call complains about the name of a key. -/
structure HandsOutOnce (s : KeyStash) (calls : List Call) : Prop where
  /-- Taking answers the private key that is waiting for the key pair. -/
  latest : ∀ r, r.entityType = entityType → ∀ privateKey,
    (s.call (.take r)).1 = .ok (some privateKey) ↔ Waiting calls r.id privateKey
  /-- Taking answers nothing exactly when no key is waiting. -/
  none : ∀ r, r.entityType = entityType →
    ((s.call (.take r)).1 = .ok none ↔ ∀ privateKey, ¬ Waiting calls r.id privateKey)
  /-- No call for a key pair fails. -/
  accepted : ∀ c : Call, c.record.entityType = entityType → ∃ answer, (s.call c).1 = .ok answer
  /-- The calls for other key pairs could as well not have been made. -/
  apart : ∀ r, (s.call (.take r)).1
    = ((after {} (calls.filter fun c => c.record.id = r.id)).call (.take r)).1
  /-- A call for a record of another type is refused and changes nothing. -/
  refused : ∀ c : Call, c.record.entityType ≠ entityType →
    s.call c = (.error (.entityTypeMismatch entityType c.record.entityType), s)
  /-- The name under which a private key waits is always accepted. -/
  valid : ∀ (c : Call) (key : String), (s.call c).1 ≠ .error (.invalidKey key)

/-- **A private key is handed out once**, to the key pair that it was stashed for, whatever calls
were made: taking answers the key of the latest put that no take has followed, calls for other
key pairs do not count, and records of another type are refused with nothing changed. -/
theorem handsOutOnce_after (calls : List Call) : HandsOutOnce (after {} calls) calls := by
  have haccepted : ∀ c : Call, c.record.entityType = entityType →
      ∃ answer, ((after {} calls).call c).1 = .ok answer := by
    intro c hc
    cases c with
    | put r privateKey => exact ⟨_, congrArg Prod.fst (call_put hc privateKey)⟩
    | take r => exact ⟨_, congrArg Prod.fst (call_take hc)⟩
  refine ⟨fun r hr privateKey => ?_, fun r hr => ?_, haccepted, fun r => ?_,
    fun c hc => call_of_ne hc, fun c key => ?_⟩
  · rw [call_take hr, Except.ok.injEq, get?_after]
  · rw [call_take hr, Except.ok.injEq, Option.eq_none_iff_forall_ne_some]
    exact forall_congr' fun privateKey => not_congr (get?_after calls r.id privateKey)
  · by_cases hr : r.entityType = entityType
    · rw [call_take hr, call_take hr]
      refine congrArg Except.ok (Option.ext fun privateKey => ?_)
      rw [get?_after, get?_after, waiting_filter]
    · rw [call_of_ne (c := .take r) hr, call_of_ne (c := .take r) hr]
  · by_cases hc : c.record.entityType = entityType
    · obtain ⟨answer, hanswer⟩ := haccepted c hc
      rw [hanswer]
      exact fun h => by cases h
    · rw [call_of_ne hc]
      exact fun h => by cases h

end KeyStash
end Inventory
