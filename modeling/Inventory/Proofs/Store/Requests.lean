/-
# The store as an ordered map that tells its watcher

`RecordStore` under `save`, `update`, `delete` and `apply_batch`, with `invalidate_all`.

A store that starts empty is changed by one request after another. What it holds, what it
answers and how often it has told its watcher is said by a reference that knows no store:
the log of the writes so far and the number of tellings (`Trail`).

| request | is refused | writes | tells the watcher |
| --- | --- | --- | --- |
| `save` | never | the record | yes |
| `update`, `delete` | for an identifier that is not there | the record, or its removal | yes |
| `batch` | never | the records, then the removals | unless it is empty |

A refused request writes nothing and tells nothing. The store refines the reference
(`refines_after`): one request does what the reference says (`perform_eq`), and so does any
sequence of them.
-/

import Inventory.Page.Cache
import Inventory.Proofs.Store.WriteLog
import Mathlib.Logic.Function.Iterate

namespace Inventory
namespace Store

/-- What a store can be asked to change. -/
inductive Request where
  | save (r : Record)
  | update (r : Record)
  | delete (id : Ulid)
  | batch (upserts : List Record) (deletes : List Ulid)

/-! ### The reference -/

namespace Request

/-- Why a request is refused, given what stands under each identifier. -/
def refusal? (stored : Ulid → Option Record) : Request → Option RecordError
  | update r => if (stored r.id).isSome then none else some (.recordNotFound r.id)
  | delete id => if (stored id).isSome then none else some (.recordNotFound id)
  | save _ | batch _ _ => none

/-- Whether a request asks for nothing. -/
def isIdle : Request → Bool
  | batch upserts deletes => upserts.isEmpty && deletes.isEmpty
  | _ => false

/-- What a request that is not refused writes. -/
def asked : Request → List Write
  | save r | update r => [.put r]
  | delete id => [.drop id]
  | batch upserts deletes => upserts.map .put ++ deletes.map .drop

/-- What a request writes, which is nothing when it is refused. -/
def writes (stored : Ulid → Option Record) (q : Request) : List Write :=
  if (q.refusal? stored).isNone then q.asked else []

/-- Whether a request tells the watcher. -/
def tells (stored : Ulid → Option Record) (q : Request) : Bool :=
  (q.refusal? stored).isNone && !q.isIdle

/-- The record that a request hands out. -/
def removed? (stored : Ulid → Option Record) : Request → Option Record
  | delete id => stored id
  | _ => none

/-- The answer to a request, given what stands under each identifier. -/
def answer (stored : Ulid → Option Record) (q : Request) : Except RecordError (Option Record) :=
  match q.refusal? stored with
  | some e => .error e
  | none => .ok (q.removed? stored)

end Request

/-- What is known of a store without looking at it: the writes so far, and how often the
watcher was told. -/
structure Trail where
  log : List Write := []
  tellings : Nat := 0

namespace Trail

/-- The trail with one request more. -/
def next (t : Trail) (q : Request) : Trail where
  log := t.log ++ q.writes (content t.log)
  tellings := t.tellings + (q.tells (content t.log)).toNat

/-- The trail of a sequence of requests to an empty store. -/
def ofRequests (requests : List Request) : Trail := requests.foldl next {}

end Trail

/-! ### One request -/

variable {σ : Type} [Watcher σ]

/-- A request to the store that is there, which hands out the record that it removes. -/
def Request.attempt : Request → Attempt (Store σ) RecordError (Option Record)
  | .save r => do
    modify (·.save r)
    return none
  | .update r => do
    updating r
    return none
  | .delete id => some <$> deleting id
  | .batch upserts deletes => do
    modify (·.applyBatch upserts deletes)
    return none

/-- The answer to a request, and the store after it. -/
def perform (s : Store σ) (q : Request) : Except RecordError (Option Record) × Store σ :=
  q.attempt.run.run s

/-- The store after a sequence of requests. -/
def after (s : Store σ) (requests : List Request) : Store σ :=
  requests.foldl (fun s q => (s.perform q).2) s

/-- Writing the saved and the removed ones is the batch. -/
theorem applyAll_batch (records : OrderedMap Ulid Record) (upserts : List Record)
    (deletes : List Ulid) :
    applyAll records (upserts.map .put ++ deletes.map .drop) = batched records upserts deletes := by
  rw [applyAll_append, applyAll, applyAll, List.foldl_map, List.foldl_map]
  rfl

/-- **A request that fails** leaves the store and its watcher alone. -/
theorem Request.atomic_attempt (q : Request) :
    (q.attempt : Attempt (Store σ) RecordError (Option Record)).Atomic := by
  cases q with
  | save r => exact (Attempt.atomic_modify (Store.save · r)).map fun _ => none
  | update r => exact (atomic_updating r).map fun _ => none
  | delete id => exact (atomic_deleting id).map some
  | batch upserts deletes =>
    exact (Attempt.atomic_modify (Store.applyBatch · upserts deletes)).map fun _ => none

/-- What a request to update comes to, case by case. -/
theorem perform_update (s : Store σ) (r : Record) :
    s.perform (.update r) = if s.records.contains r.id then (.ok none, s.save r)
      else (.error (.recordNotFound r.id), s) := by
  rw [perform, Request.attempt, ExceptT.run_bind, StateT.run_bind, run_updating]
  split <;> rfl

/-- What a request to delete comes to, case by case. -/
theorem perform_delete (s : Store σ) (id : Ulid) :
    s.perform (.delete id) = match s.get? id with
      | some r => (.ok (some r), s.changed (s.records.erase id))
      | none => (.error (.recordNotFound id), s) := by
  rw [perform, Request.attempt, ExceptT.run_map, StateT.run_map, run_deleting]
  cases s.get? id <;> rfl

/-- **One request** does what the reference says. -/
theorem perform_eq (s : Store σ) (q : Request) :
    s.perform q = (q.answer s.get?, {
      records := applyAll s.records (q.writes s.get?)
      watcher := if q.tells s.get? then Watcher.invalidateAll s.watcher else s.watcher }) := by
  cases q with
  | save r => rfl
  | update r =>
    have hcontains : s.records.contains r.id = (s.get? r.id).isSome := rfl
    rw [perform_update, hcontains]
    cases hget : s.get? r.id with
    | none => simp [Request.answer, Request.writes, Request.tells, Request.refusal?, hget, applyAll]
    | some r₀ =>
      simp [Request.answer, Request.removed?, Request.writes, Request.tells, Request.refusal?,
        Request.isIdle, hget]
      rfl
  | delete id =>
    rw [perform_delete]
    cases hget : s.get? id with
    | none => simp [Request.answer, Request.writes, Request.tells, Request.refusal?, hget, applyAll]
    | some r₀ =>
      simp [Request.answer, Request.removed?, Request.writes, Request.tells, Request.refusal?,
        Request.isIdle, hget]
      rfl
  | batch upserts deletes =>
    have hwrites : (Request.batch upserts deletes).writes s.get?
        = upserts.map .put ++ deletes.map .drop := rfl
    have htells : (Request.batch upserts deletes).tells s.get?
        = !(upserts.isEmpty && deletes.isEmpty) := rfl
    have hperform : s.perform (.batch upserts deletes) = (.ok none, s.applyBatch upserts deletes) :=
      rfl
    rw [hwrites, applyAll_batch, htells, hperform, applyBatch]
    -- only a batch that is empty on both sides tells nobody
    by_cases hidle : upserts.isEmpty ∧ deletes.isEmpty
    · obtain ⟨rfl, rfl⟩ : upserts = [] ∧ deletes = [] := by simpa using hidle
      rfl
    · have htold : (!(upserts.isEmpty && deletes.isEmpty)) = true := by
        rwa [Bool.not_eq_true', Bool.and_eq_false_iff, ← Bool.not_eq_true, ← Bool.not_eq_true,
          ← not_and_or]
      rw [if_neg hidle, if_pos htold]
      rfl

/-- **A refused request** changes nothing. -/
theorem perform_of_refusal? {s : Store σ} {q : Request} {e : RecordError}
    (h : q.refusal? s.get? = some e) : s.perform q = (.error e, s) := by
  have hanswer : (s.perform q).1 = .error e := by rw [perform_eq, Request.answer, h]
  have hstore : (s.perform q).2 = s := q.atomic_attempt s _ e (Prod.ext hanswer rfl)
  exact Prod.ext hanswer hstore

/-! ### A sequence of requests -/

/-- The store that a trail describes. -/
def Trail.store (watcher : σ) (t : Trail) : Store σ where
  records := replay t.log
  watcher := Watcher.invalidateAll^[t.tellings] watcher

/-- What the store of a trail holds is the content of its log. -/
theorem Trail.get?_store (watcher : σ) (t : Trail) : (t.store watcher).get? = content t.log :=
  funext fun id => get?_replay t.log id

/-- **Step:** a request takes the store that a trail describes to the store that the next
trail describes. -/
theorem perform_store (watcher : σ) (t : Trail) (q : Request) :
    (t.store watcher).perform q = (q.answer (content t.log), (t.next q).store watcher) := by
  have hrecords : replay (t.next q).log = applyAll (replay t.log) (q.writes (content t.log)) :=
    applyAll_append .empty t.log _
  have hwatcher : Watcher.invalidateAll^[(t.next q).tellings] watcher
      = if q.tells (content t.log) then
          Watcher.invalidateAll (Watcher.invalidateAll^[t.tellings] watcher)
        else Watcher.invalidateAll^[t.tellings] watcher := by
    rw [Trail.next]
    cases q.tells (content t.log)
    · rfl
    · exact Function.iterate_succ_apply' _ _ _
  rw [perform_eq, Trail.get?_store]
  refine congrArg (Prod.mk _) ?_
  rw [Trail.store, Trail.store, hrecords, hwatcher]

/-- **Run:** a sequence of requests leads to the store that its trail describes. -/
theorem after_eq (watcher : σ) (requests : List Request) :
    (new watcher).after requests = (Trail.ofRequests requests).store watcher := by
  have hstart : new watcher = ({} : Trail).store watcher := rfl
  rw [hstart, after, Trail.ofRequests]
  generalize ({} : Trail) = t
  induction requests generalizing t with
  | nil => rfl
  | cons q rest ih =>
    rw [List.foldl_cons, List.foldl_cons, perform_store]
    exact ih (t.next q)

/-- What a store has to do with the trail of the requests that led to it. -/
structure Refines (t : Trail) (watcher : σ) (s : Store σ) : Prop where
  own : ∀ e ∈ s.records.entries, e.2.id = e.1
  once : s.records.keys.Nodup
  holds : ∀ id, s.get? id = content t.log id
  ordered : InInsertionOrder t.log s.records.keys
  told : s.watcher = Watcher.invalidateAll^[t.tellings] watcher

/-- The store of a trail refines it. -/
theorem refines_store (watcher : σ) (t : Trail) : Refines t watcher (t.store watcher) where
  own e he :=
    have hconsistent := consistent_replay t.log
    hconsistent.own e.1 e.2 ((OrderedMap.get?_eq_some_iff hconsistent.nodup).2 he)
  once := (consistent_replay t.log).nodup
  holds := get?_replay t.log
  ordered := inInsertionOrder_replay t.log
  told := rfl

/-- A watcher that counts has counted what the trail counts. -/
theorem count_after (requests : List Request) :
    ((new (⟨0⟩ : InvalidationCount)).after requests).watcher.count
      = (Trail.ofRequests requests).tellings := by
  have hcount (n : Nat) : (Watcher.invalidateAll^[n] (⟨0⟩ : InvalidationCount)).count = n := by
    induction n with
    | zero => rfl
    | succ n ih =>
      rw [Function.iterate_succ_apply']
      exact congrArg Nat.succ ih
  rw [after_eq]
  exact hcount _

/-! ### Batches and caches -/

/-- Saving one after another inserts one after another. -/
theorem records_after_saves (s : Store σ) (upserts : List Record) :
    (s.after (upserts.map .save)).records
      = upserts.foldl (fun m r => m.insert r.id r) s.records := by
  rw [after, List.foldl_map]
  induction upserts generalizing s with
  | nil => rfl
  | cons r rest ih => exact ih (s.save r)

/-- Deleting what is not there changes as little as removing it. -/
theorem records_after_deletes (s : Store σ) (deletes : List Ulid) :
    (s.after (deletes.map .delete)).records = deletes.foldl OrderedMap.erase s.records := by
  rw [after, List.foldl_map]
  induction deletes generalizing s with
  | nil => rfl
  | cons id rest ih =>
    have hstep : (s.perform (.delete id)).2.records = s.records.erase id := by
      cases hget : s.get? id with
      | none =>
        have hrefused : (Request.delete id).refusal? s.get? = some (.recordNotFound id) := by
          rw [Request.refusal?, hget]
          rfl
        rw [perform_of_refusal? hrefused, OrderedMap.erase_of_get?_eq_none hget]
      | some r =>
        have hwrites : (Request.delete id).writes s.get? = [.drop id] := by
          rw [Request.writes, Request.refusal?, hget]
          rfl
        rw [perform_eq, hwrites]
        rfl
    rw [List.foldl_cons, ih, hstep]
    rfl

/-- **A batch** leaves the records that saving and deleting one after another leaves. -/
theorem records_applyBatch_eq_after (s : Store σ) (upserts : List Record) (deletes : List Ulid) :
    (s.applyBatch upserts deletes).records
      = (s.after (upserts.map .save ++ deletes.map .delete)).records := by
  have happend : s.after (upserts.map .save ++ deletes.map .delete)
      = (s.after (upserts.map .save)).after (deletes.map .delete) := List.foldl_append
  rw [records_applyBatch, happend, records_after_deletes, records_after_saves, batched]

/-- **The store as an ordered map that tells its watcher.** After any sequence of requests to
an empty store every record stands under its own identifier, no identifier stands twice, each
holds the last record written for it, they stand in the order in which they were last inserted
while absent, and the watcher was told as often as the trail counts. In any store a batch
leaves the same records in the same order as its saves and deletions one after another, a
request is answered as the reference says and changes nothing when it is refused, and a cache
that watches is empty after a request that tells and as it was after any other. -/
theorem refines_after (watcher : σ) (requests : List Request) :
    Refines (Trail.ofRequests requests) watcher ((new watcher).after requests)
      ∧ (∀ (s : Store σ) upserts deletes, (s.applyBatch upserts deletes).records
        = (s.after (upserts.map .save ++ deletes.map .delete)).records)
      ∧ (∀ (s : Store σ) q, (s.perform q).1 = q.answer s.get?
        ∧ (q.refusal? s.get? = none ∨ (s.perform q).2 = s))
      ∧ ∀ (s : Store PageCache) q, (s.perform q).2.watcher
        = if q.tells s.get? then .empty else s.watcher := by
  refine ⟨?_, records_applyBatch_eq_after, fun s q => ⟨?_, ?_⟩, fun s q => ?_⟩
  · rw [after_eq]
    exact refines_store watcher _
  · rw [perform_eq]
  · cases h : q.refusal? s.get? with
    | none => exact .inl rfl
    | some e => exact .inr (by rw [perform_of_refusal? h])
  · rw [perform_eq]
    rfl

/-- A record that is saved again after it was deleted comes last, and neither the second
deletion nor the empty batch is told. -/
example :
    let machine (id : BitVec 128) : Record := .new ⟨id⟩ {
      name := "machine", label := "Machine", labelField := "name"
      fields := [.string "name" "Name"] }
    let s := (new (⟨0⟩ : InvalidationCount)).after [.save (machine 1), .save (machine 2),
      .delete ⟨1⟩, .delete ⟨1⟩, .save (machine 1), .batch [] []]
    s.records.keys = [⟨2⟩, ⟨1⟩] ∧ s.watcher.count = 4 := by
  decide +kernel

end Store
end Inventory
