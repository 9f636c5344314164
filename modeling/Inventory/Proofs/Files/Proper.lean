/-
# Disks as a file system keeps them

On a *proper* disk there is one entry at a location, under a name that entries can have
(`Disk.Proper`). So the listing of a directory names each entry once
(`Disk.nodup_namesIn`), and what stands in it is reached by its name. Making a directory,
replacing a file and removing one keep a disk proper.

| in a directory | what stands where afterwards |
| --- | --- |
| make a directory | a directory there, the rest as before, also when there was one |
| replace a file | the content there, nothing under the temporary name, the rest as before |
| remove a file | nothing there, the rest as before, also when there was no such file |
-/

import Inventory.Proofs.Files.Disk

namespace Inventory
namespace Disk

variable {d d' : Disk} {l m : Location} {p : Path} {part : String}

/-- One entry at a location, under a name that entries can have. -/
structure Proper (d : Disk) : Prop where
  nodup : d.entries.keys.Nodup
  named : ∀ l part, (d.entryAt? (l ++ [part])).isSome = true → Path.IsPart part ∧ CanName part

/-- Whether a disk is proper is seen from the locations of its entries. -/
theorem proper_of_keys (hnodup : d.entries.keys.Nodup)
    (hnamed : ∀ k ∈ d.entries.keys, ∀ part ∈ k.getLast?, Path.IsPart part ∧ CanName part) :
    d.Proper where
  nodup := hnodup
  named l part hsome := by
    rw [entryAt?_of_ne_nil (concat_ne_nil l part), OrderedMap.isSome_get?_iff] at hsome
    exact hnamed _ hsome part (by simp)

/-- A name that entries can have may be given to one. -/
theorem Proper.put (h : d.Proper) (hpart : Path.IsPart part) (hcan : CanName part)
    (e : FileEntry) : (d.put (l ++ [part]) e).Proper where
  nodup := OrderedMap.nodup_keys_insert h.nodup _ _
  named l' part' hsome := by
    by_cases heq : l' ++ [part'] = l ++ [part]
    · obtain ⟨-, hlast⟩ := List.append_inj' heq rfl
      obtain rfl := List.singleton_inj.1 hlast
      exact ⟨hpart, hcan⟩
    · rw [entryAt?_put_of_ne heq] at hsome
      exact h.named l' part' hsome

/-- A disk stays proper when an entry is removed. -/
theorem Proper.erase (h : d.Proper) (m : Location) :
    ({ d with entries := d.entries.erase m } : Disk).Proper where
  nodup := OrderedMap.nodup_keys_filter h.nodup _
  named l' part' hsome := by
    by_cases heq : l' ++ [part'] = m
    · rw [← heq, entryAt?_erase_self (concat_ne_nil _ _)] at hsome
      cases hsome
    · rw [entryAt?_erase_of_ne heq] at hsome
      exact h.named l' part' hsome

/-! ### Directories -/

/-- The listing of a directory names each entry once. -/
theorem nodup_namesIn (h : d.entries.keys.Nodup) {names : List String}
    (hnames : d.namesIn p = .ok names) : names.Nodup := by
  unfold namesIn at hnames
  split at hnames
  · cases hnames
  · cases hnames
  · cases hnames
  · rename_i l _ _
    rw [← Except.ok.inj hnames]
    refine h.filterMap fun k k' name hk hk' => ?_
    have hlast : ∀ k : Location, name ∈ (if k.dropLast = l then k.getLast? else none) →
        k = l ++ [name] := fun k hk => by
      split at hk
      · rename_i hl
        rw [← hl, List.dropLast_append_getLast? name hk]
      · cases hk
    rw [hlast k hk, hlast k' hk']

/-- Something is held at the path of a name exactly when the directory has an entry. -/
theorem holds_child (h : d.DirectoryAt p l) (hcan : CanName part) :
    d.holds (p.child part) = (d.entryAt? (l ++ [part])).isSome := by
  simp only [holds, entryAtPath, locate_child h hcan]
  rcases d.entryAt? (l ++ [part]) with _ | _ | content <;> rfl

/-- **Making a directory** where no file stands leaves a directory there and the rest as it
was. -/
theorem exists_createDirectories_child (hproper : d.Proper) (h : d.DirectoryAt p l)
    (hpart : Path.IsPart part) (hcan : CanName part)
    (hfile : ∀ content, d.entryAt? (l ++ [part]) ≠ some (.file content)) :
    ∃ d', d.createDirectories (p.child part) = .ok d' ∧ d'.Proper
      ∧ d'.DirectoryAt (p.child part) (l ++ [part]) ∧ d'.temporaries = d.temporaries
      ∧ ∀ m, d'.entryAt? m = if m = l ++ [part] then some .directory else d.entryAt? m := by
  cases hentry : d.entryAt? (l ++ [part]) with
  | none =>
    have hput (m : Location) : (d.put (l ++ [part]) .directory).entryAt? m
        = if m = l ++ [part] then some .directory else d.entryAt? m := by
      split
      · rename_i hm
        rw [hm, entryAt?_put_self (concat_ne_nil _ _)]
      · rename_i hm
        rw [entryAt?_put_of_ne hm]
    have hkeeps : KeepsDirectories d (d.put (l ++ [part]) .directory) := fun m hm => by
      rw [hput, hm, ite_self]
    exact ⟨_, createDirectories_of_vacant h hcan hentry, hproper.put hpart hcan _,
      (h.mono hkeeps).child hcan (by rw [hput, if_pos rfl]), rfl, hput⟩
  | some entry =>
    cases entry with
    | file content => exact absurd hentry (hfile content)
    | directory =>
      have hchild := h.child hcan hentry
      refine ⟨d, createDirectories_of_directoryAt hchild, hproper, hchild, rfl, fun m => ?_⟩
      split
      · rename_i hm
        rw [hm, hentry]
      · rfl

/-! ### Replacing a file -/

/-- The temporary name that is given out after `i` others. -/
def temporaryAfter (d : Disk) (i : Nat) : String :=
  ({ d with temporaries := d.temporaries + i } : Disk).temporaryName

/-- The next temporary names can be given to files of a directory, and none of them is. -/
def FreshIn (d : Disk) (l : Location) (count : Nat) : Prop :=
  ∀ i < count, CanName (d.temporaryAfter i) ∧ d.entryAt? (l ++ [d.temporaryAfter i]) = none

/-- The disk after a file of a directory was replaced: the content was written under the
temporary name, which is given up for the name of the file. -/
def replaced (d : Disk) (l : Location) (part : String) (content : ByteArray) : Disk :=
  let staged := ({ d with temporaries := d.temporaries + 1 } : Disk).put (l ++ [d.temporaryName])
    (.file content)
  ({ staged with entries := staged.entries.erase (l ++ [d.temporaryName]) } : Disk).put
    (l ++ [part]) (.file content)

/-- A file that is replaced has its new content, and no temporary file is left. -/
theorem entryAt?_replaced (d : Disk) (l : Location) (part : String) (content : ByteArray)
    (m : Location) :
    (d.replaced l part content).entryAt? m
      = if m = l ++ [part] then some (.file content)
        else if m = l ++ [d.temporaryName] then none
        else d.entryAt? m := by
  unfold replaced
  split
  · rename_i hm
    rw [hm, entryAt?_put_self (concat_ne_nil _ _)]
  · rename_i hm
    rw [entryAt?_put_of_ne hm]
    split
    · rename_i htemporary
      rw [htemporary, entryAt?_erase_self (concat_ne_nil _ _)]
    · rename_i htemporary
      rw [entryAt?_erase_of_ne htemporary, entryAt?_put_of_ne htemporary]
      rfl

/-- Replacing a file takes no directory away. -/
theorem keepsDirectories_replaced (htemporary : d.entryAt? (l ++ [d.temporaryName]) ≠ some .directory)
    (hfile : d.entryAt? (l ++ [part]) ≠ some .directory) (content : ByteArray) :
    KeepsDirectories d (d.replaced l part content) := fun m hm => by
  have hm₁ : m ≠ l ++ [part] := fun heq => hfile (heq ▸ hm)
  have hm₂ : m ≠ l ++ [d.temporaryName] := fun heq => htemporary (heq ▸ hm)
  rw [entryAt?_replaced, if_neg hm₁, if_neg hm₂, hm]

/-- A disk stays proper when a file is replaced. -/
theorem Proper.replaced (h : d.Proper) (hpart : Path.IsPart part) (hcan : CanName part)
    (content : ByteArray) : (d.replaced l part content).Proper where
  nodup := by
    have hstaged := OrderedMap.nodup_keys_insert h.nodup (l ++ [d.temporaryName])
      (.file content)
    exact OrderedMap.nodup_keys_insert (OrderedMap.nodup_keys_filter hstaged _) _ _
  named l' part' hsome := by
    rw [entryAt?_replaced] at hsome
    split at hsome
    · rename_i heq
      obtain ⟨-, hlast⟩ := List.append_inj' heq rfl
      obtain rfl := List.singleton_inj.1 hlast
      exact ⟨hpart, hcan⟩
    · split at hsome
      · cases hsome
      · exact h.named l' part' hsome

/-- Replacing a file uses up one temporary name. -/
theorem FreshIn.replaced {count : Nat} (h : d.FreshIn l (count + 1))
    (hpart : ∀ i, part ≠ d.temporaryAfter i) (content : ByteArray) :
    (d.replaced l part content).FreshIn l count := fun i hi => by
  have hname : (d.replaced l part content).temporaryAfter i = d.temporaryAfter (i + 1) := by
    change ".tmp_" ++ toString (d.temporaries + 1 + i) = ".tmp_" ++ toString (d.temporaries + (i + 1))
    rw [Nat.add_right_comm, Nat.add_assoc]
  obtain ⟨hcan, hvacant⟩ := h (i + 1) (Nat.succ_lt_succ hi)
  have hne : l ++ [d.temporaryAfter (i + 1)] ≠ l ++ [part] := by simpa using (hpart (i + 1)).symm
  rw [hname, entryAt?_replaced, if_neg hne, hvacant, ite_self]
  exact ⟨hcan, rfl⟩

/-- **Replacing a file** of a directory succeeds exactly when the temporary name and its own
can be given to files there. -/
theorem run_writeAtomically_eq_ok_iff (h : d.DirectoryAt p l) (hup : part ≠ "..")
    (htemporary : part ≠ d.temporaryName) {content : ByteArray} :
    (writeAtomically (p.child part) content).run.run d = (.ok (), d') ↔
      (CanName d.temporaryName ∧ d.entryAt? (l ++ [d.temporaryName]) ≠ some .directory)
        ∧ (CanName part ∧ d.entryAt? (l ++ [part]) ≠ some .directory)
        ∧ d' = d.replaced l part content := by
  let d₁ : Disk := { d with temporaries := d.temporaries + 1 }
  have h₁ : d₁.DirectoryAt p l := h.mono fun _ hm => hm
  have hne : l ++ [part] ≠ l ++ [d.temporaryName] := by simpa using htemporary
  have hsteps : (writeAtomically (p.child part) content).run.run d
      = (change (·.write (p.child d.temporaryName) content) >>= fun _ =>
        change (·.rename (p.child d.temporaryName) (p.child part))).run.run d₁ := by
    rw [writeAtomically, Path.parent?_child]
    rfl
  -- The file is renamed on a disk where the temporary one stands.
  have hrename (hcan : CanName d.temporaryName)
      (hvacant : d.entryAt? (l ++ [d.temporaryName]) ≠ some .directory) (d₃ : Disk) :
      (d₁.put (l ++ [d.temporaryName]) (.file content)).rename (p.child d.temporaryName)
          (p.child part) = .ok d₃ ↔
        CanName part ∧ d.entryAt? (l ++ [part]) ≠ some .directory
          ∧ d₃ = d.replaced l part content := by
    have hkeeps : KeepsDirectories d₁ (d₁.put (l ++ [d.temporaryName]) (.file content)) :=
      fun m hm => by
        have hother : m ≠ l ++ [d.temporaryName] := fun heq => hvacant (heq ▸ hm)
        rw [entryAt?_put_of_ne hother, hm]
    rw [rename_child_eq_ok_iff (h₁.mono hkeeps) hcan hup
      (entryAt?_put_self (concat_ne_nil _ _) _ _), entryAt?_put_of_ne hne]
    rfl
  rw [hsteps, DiskM.run_bind_eq_ok_iff]
  simp only [DiskM.run_change_eq_ok_iff, write_child_eq_ok_iff h₁ (temporaryName_ne_up d)]
  constructor
  · rintro ⟨-, d₂, ⟨hcan, hvacant, rfl⟩, hrenamed⟩
    exact ⟨⟨hcan, hvacant⟩, (and_assoc.2 ((hrename hcan hvacant d').1 hrenamed))⟩
  · rintro ⟨⟨hcan, hvacant⟩, hrenamed⟩
    exact ⟨(), _, ⟨hcan, hvacant, rfl⟩, (hrename hcan hvacant d').2 (and_assoc.1 hrenamed)⟩

/-! ### Removing a file -/

/-- The disk after a file was removed, or could not be. -/
def tryRemove (d : Disk) (p : Path) : Disk :=
  match d.remove p with
  | .ok d' => d'
  | .error _ => d

/-- Where there is no file, nothing is removed. -/
theorem tryRemove_child_of_none (h : d.DirectoryAt p l) (hup : part ≠ "..")
    (hentry : d.entryAt? (l ++ [part]) = none) : d.tryRemove (p.child part) = d := by
  have hnotFound : ∃ e, d.entryAtPath (p.child part) = .error e := by
    rw [entryAtPath]
    cases hlocate : d.locate (p.child part) with
    | error e => exact ⟨e, rfl⟩
    | ok m =>
      obtain ⟨-, rfl⟩ := (locate_child_iff h hup).1 hlocate
      exact ⟨.notFound, by simp only [hentry]⟩
  obtain ⟨e, he⟩ := hnotFound
  simp only [tryRemove, remove, he]

/-- Where there is a file, its entry is removed. -/
theorem tryRemove_child_of_file (h : d.DirectoryAt p l) (hcan : CanName part)
    {content : ByteArray} (hentry : d.entryAt? (l ++ [part]) = some (.file content)) :
    d.tryRemove (p.child part) = { d with entries := d.entries.erase (l ++ [part]) } := by
  simp only [tryRemove, remove, entryAtPath_child h hcan hentry, locate_child h hcan]

/-- **Trying to remove a file** leaves nothing under its name and the rest as it was. -/
theorem tryRemove_child (hproper : d.Proper) (h : d.DirectoryAt p l) (hup : part ≠ "..")
    (hfile : d.entryAt? (l ++ [part]) ≠ some .directory) :
    (d.tryRemove (p.child part)).Proper ∧ KeepsDirectories d (d.tryRemove (p.child part))
      ∧ ∀ m, (d.tryRemove (p.child part)).entryAt? m
        = if m = l ++ [part] then none else d.entryAt? m := by
  cases hentry : d.entryAt? (l ++ [part]) with
  | none =>
    rw [tryRemove_child_of_none h hup hentry]
    refine ⟨hproper, fun _ hm => hm, fun m => ?_⟩
    split
    · rename_i hm
      rw [hm, hentry]
    · rfl
  | some entry =>
    cases entry with
    | directory => exact absurd hentry hfile
    | file content =>
      have hcan : CanName part := (hproper.named l part (by rw [hentry]; rfl)).2
      rw [tryRemove_child_of_file h hcan hentry]
      refine ⟨hproper.erase _, fun m hm => ?_, fun m => ?_⟩
      · have hother : m ≠ l ++ [part] := fun heq => hfile (heq ▸ hm)
        rw [entryAt?_erase_of_ne hother, hm]
      · split
        · rename_i hm
          rw [hm, entryAt?_erase_self (concat_ne_nil _ _)]
        · rename_i hm
          rw [entryAt?_erase_of_ne hm]

end Disk
end Inventory
