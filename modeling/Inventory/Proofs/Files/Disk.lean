/-
# What operations on files do to a disk

`atomic_write`, and creating, reading and removing files.

A directory at a path is there on every disk that still has the directories on the way
(`Disk.DirectoryAt.mono`), and no operation on a file takes a directory away. So the path
leads to the same location before and after it.

In a directory, a path with one more part leads to the entry of that name
(`Disk.locate_child_iff`). Replacing such a file changes what stands there, when it
succeeds, and where the temporary file was; nothing else (`Disk.replaced_of_run`).
-/

import Inventory.Proofs.Files.Run
import Inventory.Proofs.OrderedMap

namespace Inventory

/-! ### Paths -/

namespace Path

/-- The path with one more part. -/
def child (p : Path) (part : String) : Path := ⟨p.absolute, p.parts ++ [part], false⟩

/-- A text that is one part of a path. -/
structure IsPart (text : String) : Prop where
  nonempty : text ≠ ""
  noSlash : '/' ∉ text.toList
  notHere : text ≠ "."

instance (text : String) : Decidable (IsPart text) :=
  decidable_of_iff (text ≠ "" ∧ '/' ∉ text.toList ∧ text ≠ ".")
    ⟨fun h => ⟨h.1, h.2.1, h.2.2⟩, fun h => ⟨h.nonempty, h.noSlash, h.notHere⟩⟩

/-- Without a slash a text is one part. -/
theorem splitSlash_of_notMem {l : List Char} (h : '/' ∉ l) : splitSlash l = [l] := by
  induction l with
  | nil => rfl
  | cons c rest ih =>
    rw [List.mem_cons, not_or] at h
    rw [splitSlash, if_neg (Ne.symm h.1), ih h.2]

/-- A name alone is a path of one part. -/
theorem IsPart.ofText_eq {text : String} (h : IsPart text) :
    ofText text = ⟨false, [text], false⟩ := by
  have hlist {l : List Char} (hl : text.toList = l) : text = String.ofList l :=
    hl ▸ (String.ofList_toList).symm
  have hempty : text.toList ≠ [] := fun hl => h.nonempty (hlist hl)
  have hhere : text.toList ≠ ['.'] := fun hl => h.notHere (hlist hl)
  have hfirst : text.toList.head? ≠ some '/' := fun hl => h.noSlash (List.mem_of_mem_head? hl)
  have hlast : text.toList.getLast? ≠ some '/' := fun hl => h.noSlash (List.mem_of_getLast? hl)
  simp [ofText, splitSlash_of_notMem h.noSlash, hempty, hhere, hfirst, hlast]

/-- Joining a name leads to that name in the directory. -/
theorem join_ofText {text : String} (h : IsPart text) (p : Path) :
    p.join (ofText text) = p.child text := by
  rw [h.ofText_eq]
  rfl

/-- The parent of a name in a directory is the directory. -/
theorem parent?_child (p : Path) (part : String) :
    (p.child part).parent? = some ⟨p.absolute, p.parts, false⟩ := by
  simp [parent?, child]

end Path

namespace Disk

variable {d d' : Disk} {l m : Location} {p : Path} {part : String}

/-! ### Entries -/

/-- Anything but the root is looked up among the entries. -/
theorem entryAt?_of_ne_nil (h : l ≠ []) (d : Disk) : d.entryAt? l = d.entries.get? l := if_neg h

/-- What is put is there. -/
theorem entryAt?_put_self (h : l ≠ []) (d : Disk) (e : FileEntry) :
    (d.put l e).entryAt? l = some e := by
  rw [entryAt?_of_ne_nil h]
  exact OrderedMap.get?_insert_self _ _ _

/-- Putting an entry leaves the other locations. -/
theorem entryAt?_put_of_ne (h : m ≠ l) (d : Disk) (e : FileEntry) :
    (d.put l e).entryAt? m = d.entryAt? m := by
  unfold entryAt?
  split
  · rfl
  · exact OrderedMap.get?_insert_of_ne h _ _

/-- What is removed is gone. -/
theorem entryAt?_erase_self (h : l ≠ []) (d : Disk) :
    ({ d with entries := d.entries.erase l } : Disk).entryAt? l = none := by
  rw [entryAt?_of_ne_nil h]
  change (d.entries.erase l).get? l = none
  rw [OrderedMap.get?_erase, if_pos rfl]

/-- Removing an entry leaves the other locations. -/
theorem entryAt?_erase_of_ne (h : m ≠ l) (d : Disk) :
    ({ d with entries := d.entries.erase l } : Disk).entryAt? m = d.entryAt? m := by
  unfold entryAt?
  split
  · rfl
  · change (d.entries.erase l).get? m = _
    rw [OrderedMap.get?_erase, if_neg h]

/-! ### Locations -/

/-- Every directory is still there. -/
def KeepsDirectories (d d' : Disk) : Prop :=
  ∀ l, d.entryAt? l = some .directory → d'.entryAt? l = some .directory

/-- A step starts in a directory. -/
theorem step_eq_ok (h : d.step l part = .ok m) : d.entryAt? l = some .directory := by
  unfold step at h
  split at h
  · cases h
  · cases h
  · assumption

/-- Where directories are kept, steps succeed as before. -/
theorem step_mono (hkeeps : KeepsDirectories d d') (h : d.step l part = .ok m) :
    d'.step l part = .ok m := by
  have hdirectory := step_eq_ok h
  rw [← h]
  simp only [step, hdirectory, hkeeps l hdirectory]

/-- The directories on a way that still has them are found again. -/
theorem walk_mono (hkeeps : KeepsDirectories d d') {parts : List String}
    (h : d.walk l parts = .ok m) : d'.walk l parts = .ok m := by
  induction parts generalizing l with
  | nil => exact h
  | cons part rest ih =>
    rw [walk] at h ⊢
    cases hstep : d.step l part with
    | error e => simp [hstep] at h
    | ok l' =>
      rw [hstep] at h
      rw [step_mono hkeeps hstep]
      exact ih h

/-- A walk goes on where its first part has led. -/
theorem walk_append {parts : List String} (h : d.walk l parts = .ok m) (rest : List String) :
    d.walk l (parts ++ rest) = d.walk m rest := by
  induction parts generalizing l with
  | nil =>
    obtain rfl := Except.ok.inj h
    rfl
  | cons part others ih =>
    rw [walk] at h
    rw [List.cons_append, walk]
    cases hstep : d.step l part with
    | error e => simp [hstep] at h
    | ok l' =>
      rw [hstep] at h
      exact ih h

/-- A path is found when its names can be looked up and it leads from directory to directory. -/
theorem locate_eq_ok_iff : d.locate p = .ok l ↔
    (∀ part ∈ p.parts, '\x00' ∉ part.toList) ∧ (p.parts ≠ [] ∨ p.absolute = true)
      ∧ d.walk [] p.parts = .ok l := by
  unfold locate
  by_cases hnul : p.parts.any (·.toList.contains '\x00') = true
  · rw [if_pos hnul]
    refine iff_of_false (fun h => by cases h) fun h => ?_
    obtain ⟨part, hpart, hmem⟩ := List.any_eq_true.1 hnul
    exact h.1 part hpart (by simpa using hmem)
  · have hnone : ∀ part ∈ p.parts, '\x00' ∉ part.toList := fun part hpart hmem =>
      hnul (List.any_eq_true.2 ⟨part, hpart, by simpa using hmem⟩)
    rw [if_neg hnul]
    by_cases hempty : p.parts = [] ∧ p.absolute = false
    · rw [if_pos hempty]
      simp [hempty]
    · rw [if_neg hempty, not_and_or, Bool.not_eq_false] at *
      exact ⟨fun h => ⟨hnone, hempty, h⟩, fun h => h.2.2⟩

/-- A name that an entry of a directory can have. -/
structure CanName (part : String) : Prop where
  notUp : part ≠ ".."
  noNul : '\x00' ∉ part.toList
  short : part.utf8ByteSize ≤ 255

instance (part : String) : Decidable (CanName part) :=
  decidable_of_iff (part ≠ ".." ∧ '\x00' ∉ part.toList ∧ part.utf8ByteSize ≤ 255)
    ⟨fun h => ⟨h.1, h.2.1, h.2.2⟩, fun h => ⟨h.notUp, h.noNul, h.short⟩⟩

/-- A directory at a path. The empty path stands for the directory one is in. -/
structure DirectoryAt (d : Disk) (p : Path) (l : Location) : Prop where
  noNul : ∀ part ∈ p.parts, '\x00' ∉ part.toList
  walked : d.walk [] p.parts = .ok l
  directory : d.entryAt? l = some .directory

/-- A directory is still there where directories are kept. -/
theorem DirectoryAt.mono (h : d.DirectoryAt p l) (hkeeps : KeepsDirectories d d') :
    d'.DirectoryAt p l :=
  ⟨h.noNul, walk_mono hkeeps h.walked, hkeeps l h.directory⟩

/-- The path of a directory leads to it. -/
theorem DirectoryAt.locate_eq (h : d.DirectoryAt p l) (hp : p.parts ≠ []) : d.locate p = .ok l :=
  locate_eq_ok_iff.2 ⟨h.noNul, .inl hp, h.walked⟩

/-- **In a directory** a path with one more part leads to the entry of that name. -/
theorem locate_child_iff (h : d.DirectoryAt p l) (hup : part ≠ "..") :
    d.locate (p.child part) = .ok m ↔ CanName part ∧ m = l ++ [part] := by
  obtain ⟨hnul, hwalk, hdirectory⟩ := h
  have hstep : d.walk [] (p.child part).parts = .ok m
      ↔ part.utf8ByteSize ≤ 255 ∧ m = l ++ [part] := by
    rw [Path.child, walk_append hwalk, walk, step, hdirectory]
    by_cases hlong : 255 < part.utf8ByteSize
    · simp only [hup, hlong, if_true, if_false, reduceCtorEq, false_iff, not_and]
      omega
    · simp only [hup, hlong, if_false, walk, Except.ok.injEq]
      exact ⟨fun h => ⟨by omega, h.symm⟩, fun h => h.2.symm⟩
  rw [locate_eq_ok_iff, hstep]
  constructor
  · rintro ⟨hnone, -, hshort, hm⟩
    exact ⟨⟨hup, hnone part (by simp [Path.child]), hshort⟩, hm⟩
  · rintro ⟨hcan, hm⟩
    refine ⟨fun part' hpart' => ?_, .inl (by simp [Path.child]), hcan.short, hm⟩
    rcases List.mem_append.1 hpart' with hbefore | hlast
    · exact hnul part' hbefore
    · exact List.mem_singleton.1 hlast ▸ hcan.noNul

/-- A name in a directory leads one further down. -/
theorem locate_child (h : d.DirectoryAt p l) (hcan : CanName part) :
    d.locate (p.child part) = .ok (l ++ [part]) :=
  (locate_child_iff h hcan.notUp).2 ⟨hcan, rfl⟩

/-- A directory in a directory. -/
theorem DirectoryAt.child (h : d.DirectoryAt p l) (hcan : CanName part)
    (hdirectory : d.entryAt? (l ++ [part]) = some .directory) :
    d.DirectoryAt (p.child part) (l ++ [part]) :=
  have hlocate := locate_eq_ok_iff.1 (locate_child h hcan)
  ⟨hlocate.1, hlocate.2.2, hdirectory⟩

theorem child_parts_ne_nil (p : Path) (part : String) : (p.child part).parts ≠ [] := by
  simp [Path.child]

theorem concat_ne_nil (l : Location) (part : String) : l ++ [part] ≠ [] := by simp

/-! ### Questions -/

/-- A file in a directory is found by its path. -/
theorem entryAtPath_child (h : d.DirectoryAt p l) (hcan : CanName part) {content : ByteArray}
    (hfile : d.entryAt? (l ++ [part]) = some (.file content)) :
    d.entryAtPath (p.child part) = .ok (.file content) := by
  rw [entryAtPath, locate_child h hcan]
  simp [hfile, Path.child]

/-- The text of a file is read. -/
theorem readText_child (h : d.DirectoryAt p l) (hcan : CanName part) {text : String}
    (hfile : d.entryAt? (l ++ [part]) = some (.file text.toUTF8)) :
    d.readText (p.child part) = .ok text := by
  have hdecode : String.fromUTF8? text.toUTF8 = some text := dif_pos text.isValidUTF8
  simp only [readText, read, entryAtPath_child h hcan hfile, hdecode]

/-- Content that is no text cannot be read as one. -/
theorem readText_child_of_not_isValidUTF8 (h : d.DirectoryAt p l) (hcan : CanName part)
    {content : ByteArray} (hfile : d.entryAt? (l ++ [part]) = some (.file content))
    (hcontent : ¬ content.IsValidUTF8) : d.readText (p.child part) = .error .invalidUtf8 := by
  have hdecode : String.fromUTF8? content = none := dif_neg hcontent
  simp only [readText, read, entryAtPath_child h hcan hfile, hdecode]

/-- The names in a directory are those of its entries. -/
theorem mem_namesIn (h : d.DirectoryAt p l) (hp : p.parts ≠ []) :
    ∃ names, d.namesIn p = .ok names
      ∧ ∀ name, name ∈ names ↔ (d.entryAt? (l ++ [name])).isSome = true := by
  have hentry : d.entryAtPath p = .ok .directory := by
    rw [entryAtPath, h.locate_eq hp]
    simp [h.directory]
  refine ⟨_, by rw [namesIn, hentry, h.locate_eq hp], fun name => ?_⟩
  rw [List.mem_filterMap, entryAt?_of_ne_nil (concat_ne_nil l name), OrderedMap.isSome_get?_iff]
  constructor
  · rintro ⟨k, hk, hname⟩
    split at hname
    · rename_i hl
      rw [← hl, List.dropLast_append_getLast? name hname]
      exact hk
    · cases hname
  · exact fun hk => ⟨_, hk, by simp⟩

/-! ### Writing and renaming -/

/-- **A file is written** when its name can be used and no directory has it. -/
theorem write_child_eq_ok_iff (h : d.DirectoryAt p l) (hup : part ≠ "..") {content : ByteArray} :
    d.write (p.child part) content = .ok d' ↔
      CanName part ∧ d.entryAt? (l ++ [part]) ≠ some .directory
        ∧ d' = d.put (l ++ [part]) (.file content) := by
  unfold write
  cases hlocate : d.locate (p.child part) with
  | error e =>
    refine iff_of_false (fun h => by cases h) fun hwrite => ?_
    rw [locate_child h hwrite.1] at hlocate
    cases hlocate
  | ok m =>
    obtain ⟨hcan, rfl⟩ := (locate_child_iff h hup).1 hlocate
    rcases hentry : d.entryAt? (l ++ [part]) with _ | _ | content' <;>
      simp [hentry, hcan, Path.child, eq_comm]

/-- **A file is renamed** when the new name can be used and no directory has it. -/
theorem rename_child_eq_ok_iff (h : d.DirectoryAt p l) {source target : String}
    (hsource : CanName source) (hup : target ≠ "..") {entry : FileEntry}
    (hentry : d.entryAt? (l ++ [source]) = some entry) :
    d.rename (p.child source) (p.child target) = .ok d' ↔
      CanName target ∧ d.entryAt? (l ++ [target]) ≠ some .directory
        ∧ d' = ({ d with entries := d.entries.erase (l ++ [source]) } : Disk).put (l ++ [target])
          entry := by
  unfold rename
  rw [locate_child h hsource]
  cases hlocate : d.locate (p.child target) with
  | error e =>
    refine iff_of_false (fun h => by cases h) fun hrename => ?_
    rw [locate_child h hrename.1] at hlocate
    cases hlocate
  | ok m =>
    obtain ⟨hcan, rfl⟩ := (locate_child_iff h hup).1 hlocate
    rcases htarget : d.entryAt? (l ++ [target]) with _ | _ | content' <;>
      simp [hentry, htarget, hcan, hup, Path.child, eq_comm]

/-! ### Replacing a file -/

/-- The name of a temporary file starts with a point. -/
theorem toList_temporaryName (d : Disk) :
    d.temporaryName.toList = '.' :: ("tmp_".toList ++ (toString d.temporaries).toList) := by
  rw [temporaryName, String.toList_append]
  rfl

/-- Temporary names begin with a point, so other names are none. -/
theorem ne_temporaryName_of_head? {part : String} (h : part.toList.head? ≠ some '.') (d : Disk) :
    part ≠ d.temporaryName := by
  rintro rfl
  rw [toList_temporaryName] at h
  exact h rfl

theorem temporaryName_ne_up (d : Disk) : d.temporaryName ≠ ".." := by
  intro h
  have hlist := congrArg String.toList h
  simp [toList_temporaryName] at hlist

/-- What replacing a file makes of a disk, whether it succeeds or not: nothing changes
but the file and, beside it, the temporary one. -/
structure Replaced (d d' : Disk) (l : Location) (part : String) (content : ByteArray)
    (result : Except FileError Unit) : Prop where
  rest : ∀ m, m ≠ l ++ [part] → m ≠ l ++ [d.temporaryName] → d'.entryAt? m = d.entryAt? m
  directories : KeepsDirectories d d'
  failed : ∀ e, result = .error e → d'.entryAt? (l ++ [part]) = d.entryAt? (l ++ [part])
  done : result = .ok () → CanName part ∧ d'.entryAt? (l ++ [part]) = some (.file content)

/-- **Replacing a file** of a directory. -/
theorem replaced_of_run (h : d.DirectoryAt p l) (hup : part ≠ "..")
    (htemporary : part ≠ d.temporaryName) {content : ByteArray} {result : Except FileError Unit}
    (hrun : (writeAtomically (p.child part) content).run.run d = (result, d')) :
    Replaced d d' l part content result := by
  let d₁ : Disk := { d with temporaries := d.temporaries + 1 }
  have hd₁ (m : Location) : d₁.entryAt? m = d.entryAt? m := rfl
  have h₁ : d₁.DirectoryAt p l := h.mono fun _ hm => hm
  have hne : l ++ [part] ≠ l ++ [d.temporaryName] := by simpa using htemporary
  have hsteps : (change (·.write (p.child d.temporaryName) content) >>= fun _ =>
      change (·.rename (p.child d.temporaryName) (p.child part))).run.run d₁ = (result, d') := by
    rw [← hrun, writeAtomically, Path.parent?_child]
    rfl
  cases hwrite : d₁.write (p.child d.temporaryName) content with
  | error e =>
    -- The temporary file could not be written.
    have hfirst : (change (·.write (p.child d.temporaryName) content)).run.run d₁
        = (.error e, d₁) := by
      rw [DiskM.run_change, hwrite]
    rw [DiskM.run_bind_of_error hfirst] at hsteps
    obtain ⟨rfl, rfl⟩ := Prod.mk.inj hsteps
    exact ⟨fun m _ _ => hd₁ m, fun _ hm => hm, fun _ _ => hd₁ _, fun h => by cases h⟩
  | ok d₂ =>
    obtain ⟨hcan, hvacant, hd₂⟩ := (write_child_eq_ok_iff h₁ (temporaryName_ne_up d)).1 hwrite
    have hrest₂ : ∀ m, m ≠ l ++ [d.temporaryName] → d₂.entryAt? m = d.entryAt? m := fun m hm => by
      rw [hd₂, entryAt?_put_of_ne hm, hd₁]
    have hkeeps₂ : KeepsDirectories d d₂ := fun m hm => by
      have hother : m ≠ l ++ [d.temporaryName] := fun heq => hvacant (heq ▸ hm)
      rw [hrest₂ m hother, hm]
    have htemp : d₂.entryAt? (l ++ [d.temporaryName]) = some (.file content) := by
      rw [hd₂, entryAt?_put_self (concat_ne_nil _ _)]
    have hfirst : (change (·.write (p.child d.temporaryName) content)).run.run d₁
        = (.ok (), d₂) := by
      rw [DiskM.run_change, hwrite]
    rw [DiskM.run_bind_of_ok hfirst, DiskM.run_change] at hsteps
    cases hrename : d₂.rename (p.child d.temporaryName) (p.child part) with
    | error e =>
      -- The temporary file stays.
      rw [hrename] at hsteps
      obtain ⟨rfl, rfl⟩ := Prod.mk.inj hsteps
      exact ⟨fun m _ hm => hrest₂ m hm, hkeeps₂, fun _ _ => hrest₂ _ hne, fun h => by cases h⟩
    | ok d₃ =>
      rw [hrename] at hsteps
      obtain ⟨rfl, rfl⟩ := Prod.mk.inj hsteps
      obtain ⟨hcan', hvacant', hd₃⟩ :=
        (rename_child_eq_ok_iff (h₁.mono hkeeps₂) hcan hup htemp).1 hrename
      have hrest₃ : ∀ m, m ≠ l ++ [part] → m ≠ l ++ [d.temporaryName] →
          d₃.entryAt? m = d.entryAt? m := fun m hm hm' => by
        rw [hd₃, entryAt?_put_of_ne hm, entryAt?_erase_of_ne hm', hrest₂ m hm']
      refine ⟨hrest₃, fun m hm => ?_, (fun e he => by cases he), fun _ => ⟨hcan', ?_⟩⟩
      · have hfile : m ≠ l ++ [part] := fun heq => hvacant' (heq ▸ hkeeps₂ m hm)
        have htmp : m ≠ l ++ [d.temporaryName] := fun heq => hvacant (heq ▸ hm)
        rw [hrest₃ m hfile htmp, hm]
      · rw [hd₃, entryAt?_put_self (concat_ne_nil _ _)]

/-! ### Removing a file -/

/-- **Removing a file** that is there succeeds, and nothing else changes. -/
theorem remove_child (h : d.DirectoryAt p l) (hcan : CanName part) {content : ByteArray}
    (hfile : d.entryAt? (l ++ [part]) = some (.file content)) :
    ∃ d', d.remove (p.child part) = .ok d' ∧ d'.entryAt? (l ++ [part]) = none
      ∧ (∀ m, m ≠ l ++ [part] → d'.entryAt? m = d.entryAt? m) ∧ KeepsDirectories d d' := by
  have hrest : ∀ m, m ≠ l ++ [part] →
      ({ d with entries := d.entries.erase (l ++ [part]) } : Disk).entryAt? m = d.entryAt? m :=
    fun m hm => entryAt?_erase_of_ne hm d
  refine ⟨{ d with entries := d.entries.erase (l ++ [part]) }, ?_,
    entryAt?_erase_self (concat_ne_nil _ _) d, hrest, fun m hm => ?_⟩
  · rw [remove, entryAtPath_child h hcan hfile, locate_child h hcan]
  · have hother : m ≠ l ++ [part] := fun heq => by
      rw [heq, hfile] at hm
      cases hm
    rw [hrest m hother, hm]

/-! ### Making a directory -/

/-- Creating directories goes through the parts from the last one on. -/
theorem createDirectories_child (d : Disk) (p : Path) (part : String) :
    d.createDirectories (p.child part)
      = d.createDirectoriesFrom p.absolute (part :: p.parts.reverse) := by
  have hparts : (p.child part).parts.reverse = part :: p.parts.reverse := by simp [Path.child]
  rw [createDirectories, hparts]
  rfl

/-- The parts of a path are kept in their order. -/
theorem reverse_child (p : Path) (part : String) :
    ({ absolute := p.absolute, parts := (part :: p.parts.reverse).reverse } : Path)
      = p.child part := by
  simp [Path.child]

/-- A directory that is there is not made again. -/
theorem createDirectories_of_directoryAt (h : d.DirectoryAt (p.child part) l) :
    d.createDirectories (p.child part) = .ok d := by
  have hlocate := h.locate_eq (child_parts_ne_nil p part)
  have hcreate : d.createDirectory (p.child part) = .error .exists := by
    rw [createDirectory, hlocate]
    simp [h.directory]
  have hfound : d.isDirectory (p.child part) = true := by
    rw [isDirectory, entryAtPath, hlocate]
    simp [h.directory]
  rw [createDirectories_child, createDirectoriesFrom, reverse_child, hcreate]
  exact if_pos hfound

/-- A directory is made in a directory where nothing stands. -/
theorem createDirectories_of_vacant (h : d.DirectoryAt p l) (hcan : CanName part)
    (hvacant : d.entryAt? (l ++ [part]) = none) :
    d.createDirectories (p.child part) = .ok (d.put (l ++ [part]) .directory) := by
  have hcreate : d.createDirectory (p.child part) = .ok (d.put (l ++ [part]) .directory) := by
    rw [createDirectory, locate_child h hcan]
    simp [hvacant]
  rw [createDirectories_child, createDirectoriesFrom, reverse_child, hcreate]

end Disk
end Inventory
