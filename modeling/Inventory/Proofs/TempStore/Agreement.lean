/-
# Two stores of blobs that answer alike

`put` and `take` of `MemoryTempStore` and of `DirTempStore`.

A store in memory and a store in a directory that was empty at first answer every sequence
of calls alike, as long as no operation on files fails (`DirTempStore.interchangeable`). What
they answer is read off the calls: a blob *waits* under a key when the last call for the key
put it (`TempStore.waiting?`).

| call | answer | waits afterwards under its key |
| --- | --- | --- |
| put under an accepted key | | the blob |
| take of an accepted key | what waits under it | nothing |
| for a rejected key | the key is invalid | nothing, as before |

The directory *mirrors* the memory: its entries are the files of the blobs
(`DirTempStore.Mirrors`). One call of each store keeps it so (`DirTempStore.Mirrors.call`).
-/

import Inventory.Proofs.Definitions.Mirror
import Inventory.Proofs.Files.Destination
import Inventory.Proofs.TempStore.Directory

namespace Inventory
namespace TempStore

/-! ### Calls -/

/-- A call of a store: put a blob under a key, or take the one of a key. -/
inductive Call where
  | put (key : String) (data : ByteArray)
  | take (key : String)

namespace Call

/-- The key that a call is for. -/
def key : Call → String
  | .put key _ => key
  | .take key => key

/-- The blob that a call leaves under its key. -/
def left? : Call → Option ByteArray
  | .put _ data => some data
  | .take _ => none

end Call

/-- What a call answers: a blob, none, or an error. -/
abbrev Answer := Except RecordError (Option ByteArray)

/-- The answers of calls, one after another. -/
def answers {σ : Type} (call : σ → Call → Answer × σ) (s : σ) : List Call → List Answer
  | [] => []
  | c :: rest => (call s c).1 :: answers call (call s c).2 rest

/-- The state after calls, one after another. -/
def after {σ : Type} (call : σ → Call → Answer × σ) (s : σ) (calls : List Call) : σ :=
  calls.foldl (fun s c => (call s c).2) s

section

variable {σ : Type} {call : σ → Call → Answer × σ} {s : σ}

/-- The last call is made on what the calls before it leave. -/
theorem after_append_singleton (calls : List Call) (c : Call) :
    after call s (calls ++ [c]) = (call (after call s calls) c).2 :=
  List.foldl_append

/-- The last answer is that of the last call. -/
theorem answers_append_singleton (calls : List Call) (c : Call) :
    answers call s (calls ++ [c])
      = answers call s calls ++ [(call (after call s calls) c).1] := by
  induction calls generalizing s with
  | nil => rfl
  | cons first rest ih => exact congrArg _ ih

end

/-! ### What is asked of a store -/

/-- What waits under a key after calls: the blob that the last call for the key left. -/
def waiting? (calls : List Call) (key : String) : Option ByteArray :=
  (calls.reverse.find? (·.key = key)).bind Call.left?

/-- The last call for a key decides what waits for it. -/
theorem waiting?_append_singleton (calls : List Call) (c : Call) (key : String) :
    waiting? (calls ++ [c]) key = if c.key = key then c.left? else waiting? calls key := by
  rw [waiting?, List.reverse_append, List.reverse_singleton, List.singleton_append,
    List.find?_cons]
  by_cases hkey : c.key = key <;> simp [hkey, waiting?]

/-- A blob waits under a key when it was put there, and no call for the key came later. -/
theorem waiting?_eq_some_iff {calls : List Call} {key : String} {data : ByteArray} :
    waiting? calls key = some data ↔
      ∃ earlier later, calls = earlier ++ .put key data :: later ∧ ∀ c ∈ later, c.key ≠ key := by
  rw [waiting?, Option.bind_eq_some_iff]
  constructor
  · rintro ⟨c, hfind, hleft⟩
    obtain ⟨hkey, later, earlier, hcalls, hlater⟩ := List.find?_eq_some_iff_append.1 hfind
    cases c with
    | take other => cases hleft
    | put other data' =>
      obtain rfl := Option.some.inj hleft
      obtain rfl : other = key := of_decide_eq_true hkey
      refine ⟨earlier.reverse, later.reverse, ?_, fun c hc => ?_⟩
      · simpa using congrArg List.reverse hcalls
      · simpa using hlater c (List.mem_reverse.1 hc)
  · rintro ⟨earlier, later, rfl, hlater⟩
    refine ⟨.put key data, List.find?_eq_some_iff_append.2 ?_, rfl⟩
    refine ⟨decide_eq_true rfl, later.reverse, earlier.reverse, by simp, fun c hc => ?_⟩
    simpa using hlater c (List.mem_reverse.1 hc)

/-- The answer that is asked of a call after others. -/
def answerAfter (earlier : List Call) (c : Call) : Answer :=
  if isPlainKey c.key then
    match c with
    | .put _ _ => .ok none
    | .take key => .ok (waiting? earlier key)
  else .error (.invalidKey c.key)

/-- The answers that are asked of calls, one after another. -/
def expected (earlier : List Call) : List Call → List Answer
  | [] => []
  | c :: rest => answerAfter earlier c :: expected (earlier ++ [c]) rest

/-- The last answer to expect is that after all calls before it. -/
theorem expected_append_singleton (earlier calls : List Call) (c : Call) :
    expected earlier (calls ++ [c])
      = expected earlier calls ++ [answerAfter (earlier ++ calls) c] := by
  induction calls generalizing earlier with
  | nil => simp [expected]
  | cons first rest ih => simp [expected, ih]

end TempStore

open TempStore

/-! ### The store in memory -/

namespace MemoryTempStore

variable {m : MemoryTempStore} {key : String}

/-- What a call answers, and the store after it. A call that fails leaves it as it was. -/
def call (m : MemoryTempStore) : Call → Answer × MemoryTempStore
  | .put key data =>
    match m.put key data with
    | .ok m' => (.ok none, m')
    | .error e => (.error e, m)
  | .take key =>
    match m.take key with
    | .ok (data, m') => (.ok data, m')
    | .error e => (.error e, m)

/-- A call for a rejected key fails and changes nothing. -/
theorem call_of_rejected {c : Call} (hkey : isPlainKey c.key = false) (m : MemoryTempStore) :
    m.call c = (.error (.invalidKey c.key), m) := by
  cases c with
  | put key data =>
    have hput : m.put key data = .error (.invalidKey key) := if_neg (ne_true_of_eq_false hkey)
    rw [call, hput]
    rfl
  | take key =>
    have htake : m.take key = .error (.invalidKey key) := if_neg (ne_true_of_eq_false hkey)
    rw [call, htake]
    rfl

/-- In memory, putting replaces what waits for the key. -/
theorem call_put (hkey : isPlainKey key = true) (m : MemoryTempStore) (data : ByteArray) :
    m.call (.put key data) = (.ok none, ⟨m.blobs.insert key data⟩) := by
  have hput : m.put key data = .ok ⟨m.blobs.insert key data⟩ := if_pos hkey
  rw [call, hput]

/-- In memory, taking hands out what waits for the key, and nothing waits for it afterwards. -/
theorem call_take (hkey : isPlainKey key = true) (m : MemoryTempStore) :
    m.call (.take key) = (.ok (m.blobs.get? key), ⟨m.blobs.erase key⟩) := by
  have htake : m.take key = .ok (m.blobs.get? key, ⟨m.blobs.erase key⟩) := if_pos hkey
  rw [call, htake]

/-- **Step:** a call decides what is stored under the key that it is for. -/
theorem get?_call (m : MemoryTempStore) (c : Call) (key : String) :
    (m.call c).2.blobs.get? key
      = if isPlainKey key ∧ c.key = key then c.left? else m.blobs.get? key := by
  cases hplain : isPlainKey c.key with
  | false =>
    have hother : ¬ (isPlainKey key ∧ c.key = key) := by
      rintro ⟨hkey, rfl⟩
      exact absurd hkey (by simp [hplain])
    rw [call_of_rejected hplain, if_neg hother]
  | true =>
    have hsame : (isPlainKey key ∧ c.key = key) ↔ key = c.key := by
      constructor
      · exact fun h => h.2.symm
      · rintro rfl
        exact ⟨hplain, rfl⟩
    simp only [hsame]
    cases c with
    | put other data =>
      rw [call_put (show isPlainKey other = true from hplain)]
      exact OrderedMap.get?_insert m.blobs other data key
    | take other =>
      rw [call_take (show isPlainKey other = true from hplain)]
      exact OrderedMap.get?_erase m.blobs other key

/-- **Run:** under a key is stored what waits under it. -/
theorem get?_after (calls : List Call) (key : String) :
    (after call {} calls).blobs.get? key
      = if isPlainKey key then waiting? calls key else none := by
  induction calls using List.reverseRecOn with
  | nil => exact (ite_self none).symm
  | append_singleton calls c ih =>
    rw [after_append_singleton, get?_call, ih, waiting?_append_singleton]
    by_cases hplain : isPlainKey key <;> by_cases hkey : c.key = key <;> simp [hplain, hkey]

/-- **In memory** calls are answered as the calls before them say. -/
theorem answer_call_after (calls : List Call) (c : Call) :
    ((after call {} calls).call c).1 = answerAfter calls c := by
  unfold answerAfter
  cases hplain : isPlainKey c.key with
  | false =>
    rw [call_of_rejected hplain]
    rfl
  | true =>
    rw [if_pos rfl]
    cases c with
    | put key data => rw [call_put (show isPlainKey key = true from hplain)]
    | take key =>
      have hkey : isPlainKey key = true := hplain
      rw [call_take hkey, get?_after, if_pos hkey]

/-- **The answers of the store in memory** are those that are asked. -/
theorem answers_eq_expected (calls : List Call) : answers call {} calls = expected [] calls := by
  induction calls using List.reverseRecOn with
  | nil => rfl
  | append_singleton calls c ih =>
    rw [answers_append_singleton, expected_append_singleton, ih, answer_call_after]
    rfl

end MemoryTempStore

/-! ### The store in a directory -/

namespace Disk

/-- Temporary names to come are those that were to come at the start. -/
theorem temporaryAfter_of_le {d start : Disk} (h : start.temporaries ≤ d.temporaries) (i : Nat) :
    d.temporaryAfter i = start.temporaryAfter (d.temporaries - start.temporaries + i) := by
  unfold temporaryAfter temporaryName
  congr 2
  show d.temporaries + i = start.temporaries + (d.temporaries - start.temporaries + i)
  omega

end Disk

namespace DirTempStore

variable {s : DirTempStore} {d d' start : Disk} {l : Location} {key : String}
  {m : MemoryTempStore} {calls : List Call}

/-- The steps of a call. -/
def steps (s : DirTempStore) : Call → DiskM RecordError (Option ByteArray)
  | .put key data => do
    s.put key data
    return none
  | .take key => s.take key

/-- What a call answers, and the disk after it. -/
def call (s : DirTempStore) (d : Disk) (c : Call) : Answer × Disk := (s.steps c).run.run d

/-- No call fails for a reason that lies with the files. -/
def Succeeds (s : DirTempStore) (start : Disk) (calls : List Call) : Prop :=
  ∀ e, .error (.file e) ∉ answers s.call start calls

/-- Calls succeed when the last one and those before it do. -/
theorem succeeds_append_singleton {c : Call} (h : s.Succeeds start (calls ++ [c])) :
    s.Succeeds start calls ∧ ∀ e, (s.call (after s.call start calls) c).1 ≠ .error (.file e) := by
  unfold Succeeds at h ⊢
  simp only [answers_append_singleton, List.mem_append, List.mem_singleton, not_or] at h
  exact ⟨fun e => (h e).1, fun e => Ne.symm (h e).2⟩

/-- **Distinct accepted keys never share a file.** -/
theorem eq_of_locate_pathOf {key' : String} {at' : Location} (hkey : isPlainKey key = true)
    (hkey' : isPlainKey key' = true) (h : d.locate (s.pathOf key) = .ok at')
    (h' : d.locate (s.pathOf key') = .ok at') : key = key' := by
  rw [pathOf_eq hkey] at h
  rw [pathOf_eq hkey'] at h'
  have hl := Disk.locate_child_eq (ne_up_of_isPlainKey hkey) h
  have hl' := Disk.locate_child_eq (ne_up_of_isPlainKey hkey') h'
  exact List.singleton_inj.1 (List.append_cancel_left (hl.symm.trans hl'))

/-- A call for a rejected key fails and changes nothing. -/
theorem call_of_rejected {c : Call} (hkey : isPlainKey c.key = false) (s : DirTempStore)
    (d : Disk) : s.call d c = (.error (.invalidKey c.key), d) := by
  cases c with
  | put key data => exact DiskM.run_bind_of_error (run_put_of_rejected hkey s data d)
  | take key => exact run_take_of_rejected hkey s d

/-- Putting fails for a reason that lies with the files, or replaces the file of the key. -/
theorem call_put (h : d.DirectoryAt s.root l) (hkey : isPlainKey key = true)
    (htemporary : key ≠ d.temporaryName) (data : ByteArray) :
    (∃ e, (s.call d (.put key data)).1 = .error (.file e))
      ∨ (d.entryAt? (l ++ [d.temporaryName]) ≠ some .directory
          ∧ d.entryAt? (l ++ [key]) ≠ some .directory)
        ∧ s.call d (.put key data) = (.ok none, d.replaced l key data) := by
  rcases hput : (s.put key data).run.run d with ⟨e | _, d'⟩
  · refine .inl ?_
    have hcall : s.call d (.put key data) = (.error e, d') := DiskM.run_bind_of_error hput
    rw [run_put hkey, DiskM.run_adapt] at hput
    rcases hwrite : (Disk.writeAtomically (s.root.child key) data).run.run d with ⟨e' | _, d₁⟩
    · rw [hwrite] at hput
      obtain rfl : .file e' = e := Except.error.inj (Prod.mk.inj hput).1
      exact ⟨e', by rw [hcall]⟩
    · rw [hwrite] at hput
      cases (Prod.mk.inj hput).1
  · obtain ⟨⟨-, hvacant⟩, ⟨-, hvacant'⟩, rfl⟩ :=
      (run_put_eq_ok_iff h hkey htemporary).1 hput
    exact .inr ⟨⟨hvacant, hvacant'⟩, DiskM.run_bind_of_ok hput⟩

/-- The entries of the directory are the files of the blobs in memory, and no temporary name
that is still to come is among them. -/
structure Mirrors (s : DirTempStore) (l : Location) (m : MemoryTempStore) (d : Disk) : Prop where
  directoryAt : d.DirectoryAt s.root l
  files : ∀ name, d.entryAt? (l ++ [name]) = (m.blobs.get? name).map .file
  fresh : ∀ i, m.blobs.get? (d.temporaryAfter i) = none

/-- A directory of blobs holds no directory. -/
theorem Mirrors.ne_directory (h : s.Mirrors l m d) (name : String) :
    d.entryAt? (l ++ [name]) ≠ some .directory := by
  rw [h.files]
  cases m.blobs.get? name <;> simp

/-- What a call does to the disk: nothing but to the entries of the directory, and it uses up
one temporary name at most. -/
structure Touches (l : Location) (d d' : Disk) (count : Nat) : Prop where
  rest : ∀ at', (∀ name, at' ≠ l ++ [name]) → d'.entryAt? at' = d.entryAt? at'
  first : d.temporaries ≤ d'.temporaries
  last : d'.temporaries ≤ d.temporaries + count

/-- Changes one after the other touch what each of them touches. -/
theorem Touches.trans {d₁ : Disk} {count : Nat} (h : Touches l d d₁ count)
    (h' : Touches l d₁ d' 1) : Touches l d d' (count + 1) where
  rest at' hat := (h'.rest at' hat).trans (h.rest at' hat)
  first := Nat.le_trans h.first h'.first
  last := by
    have hlast := h.last
    have hlast' := h'.last
    omega

/-- **Step:** putting a blob keeps directory and memory alike. -/
theorem Mirrors.put (h : s.Mirrors l m d) (hname : ∀ i, key ≠ d.temporaryAfter i)
    (data : ByteArray) :
    s.Mirrors l ⟨m.blobs.insert key data⟩ (d.replaced l key data) where
  directoryAt :=
    h.directoryAt.mono (Disk.keepsDirectories_replaced (h.ne_directory _) (h.ne_directory _) data)
  files name := by
    rw [Disk.entryAt?_replaced, OrderedMap.get?_insert]
    by_cases hkey : name = key
    · simp [hkey]
    · by_cases htemporary : name = d.temporaryName
      · -- The temporary file has gone, and no blob is called like it.
        have hnone : m.blobs.get? d.temporaryName = none := h.fresh 0
        rw [htemporary] at hkey ⊢
        simp [hkey, hnone]
      · simp [hkey, htemporary, h.files]
  fresh i := by
    have hnext : (d.replaced l key data).temporaryAfter i = d.temporaryAfter (i + 1) := by
      have hle : d.temporaries ≤ (d.replaced l key data).temporaries := Nat.le_succ _
      rw [Disk.temporaryAfter_of_le hle]
      congr 1
      show d.temporaries + 1 - d.temporaries + i = i + 1
      omega
    rw [hnext, OrderedMap.get?_insert, if_neg (hname (i + 1)).symm, h.fresh]

/-- **Step:** taking a blob keeps directory and memory alike. -/
theorem Mirrors.take (h : s.Mirrors l m d) {content : ByteArray}
    (hfile : d.entryAt? (l ++ [key]) = some (.file content)) :
    s.Mirrors l ⟨m.blobs.erase key⟩ { d with entries := d.entries.erase (l ++ [key]) } where
  directoryAt := h.directoryAt.mono (Disk.keepsDirectories_erase hfile)
  files name := by
    rw [OrderedMap.get?_erase]
    by_cases hkey : name = key
    · rw [hkey, if_pos rfl, Disk.entryAt?_erase_self (Disk.concat_ne_nil _ _)]
      rfl
    · have hother : l ++ [name] ≠ l ++ [key] := by simpa using hkey
      rw [if_neg hkey, Disk.entryAt?_erase_of_ne hother, h.files]
  fresh i := by
    rw [OrderedMap.get?_erase]
    split
    · rfl
    · exact h.fresh i

/-- **Step:** a call of each store answers alike and keeps the memory mirrored. -/
theorem Mirrors.call (h : s.Mirrors l m d) {c : Call} (hname : ∀ i, c.key ≠ d.temporaryAfter i)
    (hok : ∀ e, (s.call d c).1 ≠ .error (.file e)) :
    (s.call d c).1 = (m.call c).1 ∧ s.Mirrors l (m.call c).2 (s.call d c).2
      ∧ Touches l d (s.call d c).2 1 := by
  have hsame : Touches l d d 1 := ⟨fun _ _ => rfl, Nat.le_refl _, Nat.le_succ _⟩
  cases hplain : isPlainKey c.key with
  | false =>
    rw [call_of_rejected hplain, MemoryTempStore.call_of_rejected hplain]
    exact ⟨rfl, h, hsame⟩
  | true =>
    cases c with
    | put key data =>
      have hkey : isPlainKey key = true := hplain
      obtain ⟨e, he⟩ | ⟨-, hcall⟩ := call_put h.directoryAt hkey (hname 0) data
      · exact absurd he (hok e)
      · rw [hcall, MemoryTempStore.call_put hkey]
        refine ⟨rfl, h.put hname data, fun at' hat => ?_, Nat.le_succ _, Nat.le_refl _⟩
        rw [Disk.entryAt?_replaced, if_neg (hat key), if_neg (hat d.temporaryName)]
    | take key =>
      have hkey : isPlainKey key = true := hplain
      have hcall : s.call d (.take key) = _ := run_take h.directoryAt hkey
      rw [hcall] at hok ⊢
      rw [MemoryTempStore.call_take hkey]
      -- a key too long for a file name is refused by the directory alone, which `hok` excludes
      by_cases hshort : key.utf8ByteSize ≤ 255
      · rw [if_pos hshort]
        have hfile := h.files key
        cases hget : m.blobs.get? key with
        | none =>
          simp only [hget, Option.map_none] at hfile
          rw [hfile, OrderedMap.erase_of_get?_eq_none hget]
          exact ⟨rfl, h, hsame⟩
        | some data =>
          simp only [hget, Option.map_some] at hfile
          rw [hfile]
          refine ⟨rfl, h.take hfile, fun at' hat => ?_, Nat.le_refl _, Nat.le_succ _⟩
          exact Disk.entryAt?_erase_of_ne (hat key) d
      · rw [if_neg hshort] at hok
        exact absurd rfl (hok .nameTooLong)

/-- A call with a short key does not fail for a reason that lies with the files. -/
theorem Mirrors.call_ne_file (h : s.Mirrors l m d) {c : Call} (hname : c.key ≠ d.temporaryName)
    (htemporary : Disk.CanName d.temporaryName)
    (hshort : isPlainKey c.key = true → c.key.utf8ByteSize ≤ 255) (e : FileError) :
    (s.call d c).1 ≠ .error (.file e) := by
  cases hplain : isPlainKey c.key with
  | false =>
    rw [call_of_rejected hplain]
    simp
  | true =>
    cases c with
    | put key data =>
      have hkey : isPlainKey key = true := hplain
      have hcan := (canName_iff_of_isPlainKey hkey).2 (hshort hkey)
      have hput : (s.put key data).run.run d = (.ok (), d.replaced l key data) :=
        (run_put_eq_ok_iff h.directoryAt hkey hname).2
          ⟨⟨htemporary, h.ne_directory _⟩, ⟨hcan, h.ne_directory _⟩, rfl⟩
      have hcall : s.call d (.put key data) = (.ok none, d.replaced l key data) :=
        DiskM.run_bind_of_ok hput
      rw [hcall]
      simp
    | take key =>
      have hkey : isPlainKey key = true := hplain
      have hcall : s.call d (.take key) = _ := run_take h.directoryAt hkey
      have hkeyShort : key.utf8ByteSize ≤ 255 := hshort hkey
      rw [hcall, if_pos hkeyShort, h.files]
      cases m.blobs.get? key <;> simp

/-- The empty store is mirrored by an empty directory. -/
theorem mirrors_empty (h : start.EmptyAt s.root l) : s.Mirrors l {} start where
  directoryAt := h.directoryAt
  files name := h.vacant [name] (by simp)
  fresh _ := rfl

/-- **Run:** after calls that succeed both stores have answered alike, and the memory is
mirrored. -/
theorem mirrors_after (h : start.EmptyAt s.root l)
    (hname : ∀ c ∈ calls, ∀ i, c.key ≠ start.temporaryAfter i) (hok : s.Succeeds start calls) :
    answers s.call start calls = answers MemoryTempStore.call {} calls
      ∧ s.Mirrors l (after MemoryTempStore.call {} calls) (after s.call start calls)
      ∧ Touches l start (after s.call start calls) calls.length := by
  induction calls using List.reverseRecOn with
  | nil => exact ⟨rfl, mirrors_empty h, fun _ _ => rfl, Nat.le_refl _, Nat.le_refl _⟩
  | append_singleton calls c ih =>
    obtain ⟨hbefore, hlast⟩ := succeeds_append_singleton hok
    obtain ⟨hsame, hmirrors, htouches⟩ :=
      ih (fun c hc => hname c (List.mem_append_left _ hc)) hbefore
    have hfresh : ∀ i, c.key ≠ (after s.call start calls).temporaryAfter i := by
      intro i
      rw [Disk.temporaryAfter_of_le htouches.first]
      exact hname c (by simp) _
    obtain ⟨hanswer, hmirrors', htouches'⟩ := hmirrors.call hfresh hlast
    rw [answers_append_singleton, answers_append_singleton, after_append_singleton,
      after_append_singleton, hsame, hanswer, List.length_append]
    exact ⟨rfl, hmirrors', htouches.trans htouches'⟩

/-- **Calls succeed** when their keys, and the temporary names, can be given to files. -/
theorem succeeds_of_short (h : start.EmptyAt s.root l)
    (hname : ∀ c ∈ calls, ∀ i, c.key ≠ start.temporaryAfter i)
    (htemporary : ∀ i < calls.length, Disk.CanName (start.temporaryAfter i))
    (hshort : ∀ c ∈ calls, isPlainKey c.key = true → c.key.utf8ByteSize ≤ 255) :
    s.Succeeds start calls := by
  induction calls using List.reverseRecOn with
  | nil => exact fun _ => List.not_mem_nil
  | append_singleton calls c ih =>
    rw [List.length_append, List.length_singleton] at htemporary
    have hname' : ∀ c ∈ calls, ∀ i, c.key ≠ start.temporaryAfter i :=
      fun c hc => hname c (List.mem_append_left _ hc)
    have hbefore := ih hname' (fun i hi => htemporary i (Nat.lt_succ_of_lt hi))
      fun c hc => hshort c (List.mem_append_left _ hc)
    obtain ⟨-, hmirrors, htouches⟩ := mirrors_after h hname' hbefore
    have hnext := Disk.temporaryAfter_of_le htouches.first 0
    have hcount := htouches.last
    intro e he
    rw [answers_append_singleton, List.mem_append, List.mem_singleton] at he
    refine he.elim (hbefore e) fun hlast => ?_
    refine hmirrors.call_ne_file ?_ ?_ (hshort c (by simp)) e hlast.symm
    · rw [show (after s.call start calls).temporaryName = _ from hnext]
      exact hname c (by simp) _
    · rw [show (after s.call start calls).temporaryName = _ from hnext]
      exact htemporary _ (by omega)

/-! ### Interchangeable stores -/

/-- A directory that was empty at first serves calls as a memory does. -/
structure Interchangeable (s : DirTempStore) (start : Disk) (l : Location) (calls : List Call) :
    Prop where
  /-- Both answer alike, call by call. -/
  same : answers s.call start calls = answers MemoryTempStore.call {} calls
  /-- The answers are those that are asked. -/
  asked : answers s.call start calls = expected [] calls
  /-- A call for a rejected key would change neither of them. -/
  rejected : ∀ c, isPlainKey c.key = false →
    s.call (after s.call start calls) c = (.error (.invalidKey c.key), after s.call start calls)
      ∧ (after MemoryTempStore.call {} calls).call c
        = (.error (.invalidKey c.key), after MemoryTempStore.call {} calls)
  /-- The directory holds a file for each accepted key under which a blob waits, and no
  other. -/
  files : ∀ name, (after s.call start calls).entryAt? (l ++ [name])
    = ((if isPlainKey name then waiting? calls name else none).map .file)
  /-- What is not directly in the directory is as it was. -/
  rest : ∀ at', (∀ name, at' ≠ l ++ [name]) →
    (after s.call start calls).entryAt? at' = start.entryAt? at'
  /-- The file of an accepted key is directly in the directory, and no other key has it. -/
  apart : ∀ key, isPlainKey key = true → ∀ at',
    (after s.call start calls).locate (s.pathOf key) = .ok at' →
      at' = l ++ [key] ∧ ∀ key', isPlainKey key' = true →
        (after s.call start calls).locate (s.pathOf key') = .ok at' → key' = key

/-- **The two stores are interchangeable.** Take any calls of a store in a directory that is
empty at first, none of them for a key that is a temporary name. If no operation on files
fails, the store answers them as a store in memory does, and each take gives the blob that
waits under its key; rejected keys fail and change nothing; every accepted key has a file of
its own; and nothing outside the directory changes. Operations on files do not fail when the
accepted keys and the temporary names are short enough for files. -/
theorem interchangeable (h : start.EmptyAt s.root l)
    (hname : ∀ c ∈ calls, ∀ i, c.key ≠ start.temporaryAfter i) :
    (s.Succeeds start calls → s.Interchangeable start l calls)
      ∧ ((∀ i < calls.length, Disk.CanName (start.temporaryAfter i)) →
        (∀ c ∈ calls, isPlainKey c.key = true → c.key.utf8ByteSize ≤ 255) →
        s.Succeeds start calls) := by
  refine ⟨fun hok => ?_, succeeds_of_short h hname⟩
  obtain ⟨hsame, hmirrors, htouches⟩ := mirrors_after h hname hok
  refine ⟨hsame, ?_, fun c hc => ⟨?_, ?_⟩, fun name => ?_, htouches.rest,
    fun key hkey at' hat => ⟨?_, ?_⟩⟩
  · rw [hsame, MemoryTempStore.answers_eq_expected]
  · exact call_of_rejected hc s _
  · exact MemoryTempStore.call_of_rejected hc _
  · rw [hmirrors.files, MemoryTempStore.get?_after]
  · rw [pathOf_eq hkey] at hat
    exact ((Disk.locate_child_iff hmirrors.directoryAt (ne_up_of_isPlainKey hkey)).1 hat).2
  · intro key' hkey' hat'
    exact eq_of_locate_pathOf hkey' hkey hat' hat

/-- Calls that put a private key and take it twice, and one for a key that is a path. -/
def keyPairCalls : List Call :=
  [.put "kp.pem" "-----BEGIN".toUTF8, .take "kp.pem", .take "kp.pem", .take "a/b"]

/-- In an empty directory the private key is handed out once, as it is in memory. -/
theorem interchangeable_keyPair :
    DirTempStore.Interchangeable ⟨.ofText "registry"⟩ emptyRegistry ["registry"] keyPairCalls
      ∧ expected [] keyPairCalls
        = [.ok none, .ok (some "-----BEGIN".toUTF8), .ok none, .error (.invalidKey "a/b")] := by
  have hname : ∀ c ∈ keyPairCalls, ∀ i, c.key ≠ emptyRegistry.temporaryAfter i := by
    intro c hc i
    have hhead : ∀ c ∈ keyPairCalls, c.key.toList.head? ≠ some '.' := by decide
    exact Disk.ne_temporaryName_of_head? (hhead c hc) _
  obtain ⟨hinterchangeable, hsucceeds⟩ :=
    interchangeable (s := ⟨.ofText "registry"⟩) emptyAt_emptyRegistry hname
  exact ⟨hinterchangeable (hsucceeds (by decide +kernel) (by decide)), rfl⟩

end DirTempStore
end Inventory
