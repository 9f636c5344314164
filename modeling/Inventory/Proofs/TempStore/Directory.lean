/-
# A directory of blobs

`put` and `take` of `DirTempStore`.

The file of an accepted key stands in the directory under the key itself
(`DirTempStore.pathOf_eq`), so the operations on a key come down to the entry of that name:

| step | succeeds when | afterwards |
| --- | --- | --- |
| put | temporary name and key can be given to files | the blob under the key, nothing under the temporary name |
| read | the key can be the name of a file | nothing changed |
| remove | there is a file under the key | nothing under the key |

Taking a blob is reading and removing, one after the other (`DirTempStore.run_take`).
-/

import Inventory.Proofs.Files.Proper
import Inventory.Proofs.Text.Numerals
import Inventory.TempStore

namespace Inventory

/-! ### Keys -/

namespace TempStore

variable {key : String}

/-- A key is accepted when it is a name of one part, does not lead up, and has no backslash. -/
theorem isPlainKey_iff :
    isPlainKey key = true ↔
      Path.IsPart key ∧ key ≠ ".." ∧ '\\' ∉ key.toList ∧ '\x00' ∉ key.toList := by
  simp only [isPlainKey, Bool.and_eq_true, decide_eq_true_eq, List.all_eq_true]
  constructor
  · rintro ⟨⟨⟨hempty, hdot⟩, hdots⟩, hplain⟩
    exact ⟨⟨hempty, fun h => (hplain _ h).1 rfl, hdot⟩, hdots, fun h => (hplain _ h).2.1 rfl,
      fun h => (hplain _ h).2.2 rfl⟩
  · rintro ⟨⟨hempty, hslash, hdot⟩, hdots, hbackslash, hnul⟩
    refine ⟨⟨⟨hempty, hdot⟩, hdots⟩, fun c hc => ⟨?_, ?_, ?_⟩⟩
    · exact fun h => hslash (h ▸ hc)
    · exact fun h => hbackslash (h ▸ hc)
    · exact fun h => hnul (h ▸ hc)

/-- An accepted key is a name of one part. -/
theorem isPart_of_isPlainKey (h : isPlainKey key = true) : Path.IsPart key :=
  (isPlainKey_iff.1 h).1

/-- An accepted key does not lead up. -/
theorem ne_up_of_isPlainKey (h : isPlainKey key = true) : key ≠ ".." :=
  (isPlainKey_iff.1 h).2.1

/-- An accepted key can be the name of a file unless it is too long. -/
theorem canName_iff_of_isPlainKey (h : isPlainKey key = true) :
    Disk.CanName key ↔ key.utf8ByteSize ≤ 255 :=
  ⟨Disk.CanName.short,
    fun hshort => ⟨ne_up_of_isPlainKey h, (isPlainKey_iff.1 h).2.2.2, hshort⟩⟩

end TempStore

namespace Disk

variable {d d' : Disk} {l : Location} {p : Path} {part : String} {content : ByteArray}

theorem isPart_temporaryName (d : Disk) : Path.IsPart d.temporaryName where
  nonempty h := by
    have hlist := congrArg String.toList h
    simp [toList_temporaryName] at hlist
  noSlash h := by
    rw [temporaryName, String.toList_append, List.mem_append] at h
    exact h.elim (by decide) (Text.notMem_toString_nat (by decide) _)
  notHere h := by
    have hlist := congrArg String.toList h
    simp [toList_temporaryName] at hlist

/-! ### Reading and removing -/

/-- Removing a file takes no directory away. -/
theorem keepsDirectories_erase {m : Location} (hfile : d.entryAt? m = some (.file content)) :
    KeepsDirectories d { d with entries := d.entries.erase m } := by
  intro m' hm'
  have hother : m' ≠ m := by
    rintro rfl
    rw [hfile] at hm'
    cases hm'
  rw [entryAt?_erase_of_ne hother, hm']

/-- A name that is too long leads nowhere. -/
theorem locate_child_of_long (h : d.DirectoryAt p l) (hup : part ≠ "..")
    (hnul : '\x00' ∉ part.toList) (hlong : 255 < part.utf8ByteSize) :
    d.locate (p.child part) = .error .nameTooLong := by
  have hnone : (p.child part).parts.any (·.toList.contains '\x00') = false := by
    rw [Path.child, List.any_append, Bool.or_eq_false_iff]
    refine ⟨List.any_eq_false.2 fun other hother => ?_, by simp [hnul]⟩
    simpa using h.noNul other hother
  have hsome : ¬ ((p.child part).parts = [] ∧ (p.child part).absolute = false) := fun heq =>
    child_parts_ne_nil p part heq.1
  rw [locate, hnone, if_neg Bool.false_ne_true, if_neg hsome, Path.child, walk_append h.walked,
    walk, step, h.directory]
  simp [hup, hlong]

/-- Removing a file of a directory succeeds exactly when it is there. -/
theorem remove_child_eq_ok_iff (h : d.DirectoryAt p l) (hup : part ≠ "..") :
    d.remove (p.child part) = .ok d' ↔
      CanName part ∧ (∃ content, d.entryAt? (l ++ [part]) = some (.file content))
        ∧ d' = { d with entries := d.entries.erase (l ++ [part]) } := by
  unfold remove entryAtPath
  cases hlocate : d.locate (p.child part) with
  | error e =>
    refine iff_of_false (fun h => by cases h) fun hremove => ?_
    rw [locate_child h hremove.1] at hlocate
    cases hlocate
  | ok m =>
    obtain ⟨hcan, rfl⟩ := (locate_child_iff h hup).1 hlocate
    rcases hentry : d.entryAt? (l ++ [part]) with _ | _ | content <;>
      simp [hentry, hcan, Path.child, eq_comm]

end Disk

namespace DirTempStore

variable {s : DirTempStore} {d d' : Disk} {l : Location} {key : String} {data : ByteArray}

/-- The file of an accepted key stands in the directory under the key. -/
theorem pathOf_eq (hkey : TempStore.isPlainKey key = true) (s : DirTempStore) :
    s.pathOf key = s.root.child key :=
  Path.join_ofText (TempStore.isPart_of_isPlainKey hkey) _

/-! ### Putting -/

/-- Putting a blob replaces the file of its key as a whole. -/
theorem run_put (hkey : TempStore.isPlainKey key = true) (s : DirTempStore) (data : ByteArray)
    (d : Disk) :
    (s.put key data).run.run d
      = (ExceptT.adapt RecordError.file (Disk.writeAtomically (s.root.child key) data)).run.run
        d := by
  let d₁ : Disk := { d with temporaries := d.temporaries + 1 }
  let steps (temporary : Path) : DiskM FileError Unit := do
    Disk.change (·.write temporary data)
    Disk.change (·.rename temporary (s.root.child key))
  have hreplace : (Disk.writeAtomically (s.root.child key) data).run.run d
      = (steps (s.root.child d.temporaryName)).run.run d₁ := by
    rw [Disk.writeAtomically, Path.parent?_child]
    rfl
  have hput : (do
        let temporary ← s.stage data
        Disk.change (·.rename temporary (s.root.child key)) : DiskM FileError Unit).run.run d
      = (steps (s.root.join (.ofText d.temporaryName))).run.run d₁ := by
    simp only [DirTempStore.stage, bind_assoc, pure_bind]
    rfl
  rw [DirTempStore.put, if_pos hkey, pathOf_eq hkey, DiskM.run_adapt, DiskM.run_adapt, hput,
    hreplace, Path.join_ofText (Disk.isPart_temporaryName d)]

/-- **Putting a blob** succeeds exactly when the temporary name and the key can be given to
files of the directory. -/
theorem run_put_eq_ok_iff (h : d.DirectoryAt s.root l) (hkey : TempStore.isPlainKey key = true)
    (htemporary : key ≠ d.temporaryName) :
    (s.put key data).run.run d = (.ok (), d') ↔
      (Disk.CanName d.temporaryName ∧ d.entryAt? (l ++ [d.temporaryName]) ≠ some .directory)
        ∧ (Disk.CanName key ∧ d.entryAt? (l ++ [key]) ≠ some .directory)
        ∧ d' = d.replaced l key data := by
  rw [run_put hkey, DiskM.run_adapt_eq_ok_iff]
  exact Disk.run_writeAtomically_eq_ok_iff h (TempStore.ne_up_of_isPlainKey hkey) htemporary

/-- A put that fails leaves the blob of its key as it was, and takes no directory away. -/
theorem entryAt?_of_run_put_error (h : d.DirectoryAt s.root l)
    (hkey : TempStore.isPlainKey key = true) (htemporary : key ≠ d.temporaryName)
    {e : RecordError} (hrun : (s.put key data).run.run d = (.error e, d')) :
    d'.entryAt? (l ++ [key]) = d.entryAt? (l ++ [key]) ∧ Disk.KeepsDirectories d d' := by
  rw [run_put hkey, DiskM.run_adapt] at hrun
  rcases hwrite : (Disk.writeAtomically (s.root.child key) data).run.run d with ⟨e' | _, d₁⟩
  · have hreplaced := Disk.replaced_of_run h (TempStore.ne_up_of_isPlainKey hkey) htemporary hwrite
    rw [hwrite] at hrun
    obtain ⟨-, rfl⟩ := Prod.mk.inj hrun
    exact ⟨hreplaced.failed e' rfl, hreplaced.directories⟩
  · rw [hwrite] at hrun
    cases (Prod.mk.inj hrun).1

/-- A rejected key is put nowhere. -/
theorem run_put_of_rejected (hkey : TempStore.isPlainKey key = false) (s : DirTempStore)
    (data : ByteArray) (d : Disk) : (s.put key data).run.run d = (.error (.invalidKey key), d) := by
  rw [DirTempStore.put, hkey, if_neg Bool.false_ne_true]
  rfl

/-! ### Taking -/

/-- What reading the file of a key gives: an error for a key that is too long, otherwise what
stands under it. -/
theorem read_pathOf (h : d.DirectoryAt s.root l) (hkey : TempStore.isPlainKey key = true) :
    d.read (s.pathOf key)
      = if key.utf8ByteSize ≤ 255 then
          match d.entryAt? (l ++ [key]) with
          | none => .error .notFound
          | some .directory => .error .isADirectory
          | some (.file data) => .ok data
        else .error .nameTooLong := by
  obtain ⟨-, hup, -, hnul⟩ := TempStore.isPlainKey_iff.1 hkey
  rw [pathOf_eq hkey, Disk.read, Disk.entryAtPath]
  by_cases hshort : key.utf8ByteSize ≤ 255
  · have hcan := (TempStore.canName_iff_of_isPlainKey hkey).2 hshort
    rw [if_pos hshort, Disk.locate_child h hcan]
    rcases hentry : d.entryAt? (l ++ [key]) with _ | _ | data <;> simp [hentry, Path.child]
  · rw [if_neg hshort, Disk.locate_child_of_long h hup hnul (Nat.not_le.1 hshort)]

/-- **Reading** the blob of a key changes nothing. A file that is missing is no error. -/
theorem run_peek (h : d.DirectoryAt s.root l) (hkey : TempStore.isPlainKey key = true) :
    (s.peek key).run.run d
      = (if key.utf8ByteSize ≤ 255 then
          match d.entryAt? (l ++ [key]) with
          | none => .ok none
          | some .directory => .error .isADirectory
          | some (.file data) => .ok (some data)
        else .error .nameTooLong, d) := by
  have hget : (get : DiskM FileError Disk).run.run d = (.ok d, d) := rfl
  rw [peek, DiskM.run_bind_of_ok hget, read_pathOf h hkey]
  by_cases hshort : key.utf8ByteSize ≤ 255
  · rw [if_pos hshort, if_pos hshort]
    rcases d.entryAt? (l ++ [key]) with _ | _ | data <;> rfl
  · rw [if_neg hshort, if_neg hshort]
    rfl

/-- A blob is read exactly when it is in the file of its key. -/
theorem run_peek_eq_some_iff (h : d.DirectoryAt s.root l)
    (hkey : TempStore.isPlainKey key = true) :
    (s.peek key).run.run d = (.ok (some data), d') ↔
      Disk.CanName key ∧ d.entryAt? (l ++ [key]) = some (.file data) ∧ d' = d := by
  rw [run_peek h hkey, TempStore.canName_iff_of_isPlainKey hkey, Prod.mk.injEq, eq_comm (a := d)]
  by_cases hshort : key.utf8ByteSize ≤ 255
  · rcases d.entryAt? (l ++ [key]) with _ | _ | data' <;> simp [hshort]
  · simp [hshort]

/-- **Removing** the blob of a key succeeds exactly when there is one, whichever it is. -/
theorem run_remove_eq_ok_iff (h : d.DirectoryAt s.root l)
    (hkey : TempStore.isPlainKey key = true) {u : Unit} :
    (Disk.change (·.remove (s.pathOf key))).run.run d = (.ok u, d') ↔
      Disk.CanName key ∧ (∃ data, d.entryAt? (l ++ [key]) = some (.file data))
        ∧ d' = { d with entries := d.entries.erase (l ++ [key]) } := by
  rw [DiskM.run_change_eq_ok_iff, pathOf_eq hkey]
  exact Disk.remove_child_eq_ok_iff h (TempStore.ne_up_of_isPlainKey hkey)

/-- **Taking** the blob of a key: nothing changes unless there is one, which goes then. -/
theorem run_take (h : d.DirectoryAt s.root l) (hkey : TempStore.isPlainKey key = true) :
    (s.take key).run.run d
      = if key.utf8ByteSize ≤ 255 then
          match d.entryAt? (l ++ [key]) with
          | none => (.ok none, d)
          | some .directory => (.error (.file .isADirectory), d)
          | some (.file data) =>
            (.ok (some data), { d with entries := d.entries.erase (l ++ [key]) })
        else (.error (.file .nameTooLong), d) := by
  -- taking looks first, and what it finds decides whether anything is removed
  have hpeek := run_peek h hkey
  rw [DirTempStore.take, if_pos hkey, DiskM.run_adapt]
  by_cases hshort : key.utf8ByteSize ≤ 255
  · rw [if_pos hshort] at hpeek ⊢
    rcases hentry : d.entryAt? (l ++ [key]) with _ | _ | data
    · rw [hentry] at hpeek
      rw [DiskM.run_bind_of_ok hpeek]
      rfl
    · rw [hentry] at hpeek
      rw [DiskM.run_bind_of_error hpeek]
      rfl
    · have hcan := (TempStore.canName_iff_of_isPlainKey hkey).2 hshort
      have hremove := (run_remove_eq_ok_iff (u := ()) h hkey).2 ⟨hcan, ⟨data, hentry⟩, rfl⟩
      rw [hentry] at hpeek
      rw [DiskM.run_bind_of_ok hpeek, Option.isSome_some, if_pos rfl, DiskM.run_bind_of_ok hremove]
      rfl
  · rw [if_neg hshort] at hpeek ⊢
    rw [DiskM.run_bind_of_error hpeek]
    rfl

/-- A rejected key is taken nowhere. -/
theorem run_take_of_rejected (hkey : TempStore.isPlainKey key = false) (s : DirTempStore)
    (d : Disk) : (s.take key).run.run d = (.error (.invalidKey key), d) := by
  rw [DirTempStore.take, hkey, if_neg Bool.false_ne_true]
  rfl

end DirTempStore
end Inventory
