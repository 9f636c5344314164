/-
# Where operations on files lead

The paths that the operations on files resolve.

If a path leads anywhere, it leads to its *destination*, which is found in the path alone: every
part is a name, except that `..` takes one back (`Disk.walk_eq`). So the operations on a file
change what stands directly in the directory that the path of the file leads into, and no other
file:

| operation on a path | files that change |
| --- | --- |
| make it a directory | none |
| write, remove | the one at its destination |
| replace as a whole | the one at its destination, and the temporary one beside it |

For every path there is a disk with the directories on the way and no files, on which the
directory is reached (`Disk.directoryAt_ofWay`).
-/

import Inventory.Proofs.Files.Disk

namespace Inventory

namespace Path

/-- Where one part leads from a location when everything there is a directory. -/
def next (l : Location) (part : String) : Location :=
  if part = ".." then l.dropLast else l ++ [part]

/-- Where a path leads when everything on the way is a directory. -/
def destination (p : Path) : Location := p.parts.foldl next []

/-- A name leads one further down. -/
theorem destination_child {part : String} (hup : part ≠ "..") (p : Path) :
    (p.child part).destination = p.destination ++ [part] := by
  simp [destination, child, next, hup]

end Path

namespace Disk

variable {d d' d₁ : Disk} {l m : Location} {p : Path} {part : String}

/-- A step that succeeds leads where the path alone says. -/
theorem step_eq (h : d.step l part = .ok m) : m = Path.next l part := by
  unfold step at h
  unfold Path.next
  rcases hentry : d.entryAt? l with _ | _ | content
  · simp [hentry] at h
  · by_cases hup : part = ".."
    · simpa [hentry, hup, eq_comm] using h
    · by_cases hlong : 255 < part.utf8ByteSize
      · simp [hentry, hup, hlong] at h
      · simpa [hentry, hup, hlong, eq_comm] using h
  · simp [hentry] at h

/-- **A way that can be gone** leads to the destination. -/
theorem walk_eq {parts : List String} (h : d.walk l parts = .ok m) :
    m = parts.foldl Path.next l := by
  induction parts generalizing l with
  | nil => exact (Except.ok.inj h).symm
  | cons part rest ih =>
    rw [walk] at h
    cases hstep : d.step l part with
    | error e => simp [hstep] at h
    | ok l' =>
      rw [hstep] at h
      rw [List.foldl_cons, ← step_eq hstep]
      exact ih h

/-- **A path that is found** leads to its destination. -/
theorem locate_eq (h : d.locate p = .ok m) : m = p.destination := walk_eq (locate_eq_ok_iff.1 h).2.2

/-- A name that is found leads one further than the directory it is looked up in. -/
theorem locate_child_eq (hup : part ≠ "..") (h : d.locate (p.child part) = .ok m) :
    m = p.destination ++ [part] := by
  rw [locate_eq h, Path.destination_child hup]

/-! ### Files that change -/

/-- The content of the file at a location. -/
def fileAt? (d : Disk) (l : Location) : Option ByteArray :=
  match d.entryAt? l with
  | some (.file content) => some content
  | _ => none

/-- The file at a location depends on the entry there. -/
theorem fileAt?_congr (h : d'.entryAt? m = d.entryAt? m) : d'.fileAt? m = d.fileAt? m := by
  rw [fileAt?, fileAt?, h]

/-- The files are the same, except directly in a directory. -/
def SameOutside (l : Location) (d d' : Disk) : Prop :=
  ∀ m, (∀ part, m ≠ l ++ [part]) → d'.fileAt? m = d.fileAt? m

theorem SameOutside.refl (l : Location) (d : Disk) : SameOutside l d d := fun _ _ => rfl

/-- What two changes leave alone, both together do. -/
theorem SameOutside.trans (h : SameOutside l d d₁) (h' : SameOutside l d₁ d') :
    SameOutside l d d' :=
  fun m hm => (h' m hm).trans (h m hm)

/-- An entry of a directory is put in that directory. -/
theorem sameOutside_put (d : Disk) (l : Location) (part : String) (e : FileEntry) :
    SameOutside l d (d.put (l ++ [part]) e) :=
  fun _ hm => fileAt?_congr (entryAt?_put_of_ne (hm part) d e)

/-- An entry of a directory is removed from that directory. -/
theorem sameOutside_erase (d : Disk) (l : Location) (part : String) :
    SameOutside l d { d with entries := d.entries.erase (l ++ [part]) } :=
  fun _ hm => fileAt?_congr (entryAt?_erase_of_ne (hm part) d)

/-- Writing a file changes the directory that its path names. -/
theorem sameOutside_write (hup : part ≠ "..") {content : ByteArray}
    (h : d.write (p.child part) content = .ok d') : SameOutside p.destination d d' := by
  unfold write at h
  split at h
  · cases h
  · rename_i m hlocate
    obtain rfl := locate_child_eq hup hlocate
    split at h
    · cases h
    · split at h
      · cases h
      · rw [← Except.ok.inj h]
        exact sameOutside_put d p.destination part _

/-- Renaming within a directory changes that directory. -/
theorem sameOutside_rename {source target : String} (hsource : source ≠ "..")
    (htarget : target ≠ "..") (h : d.rename (p.child source) (p.child target) = .ok d') :
    SameOutside p.destination d d' := by
  unfold rename at h
  split at h
  · cases h
  · cases h
  · rename_i s t hlocate hlocate'
    obtain rfl := locate_child_eq hsource hlocate
    obtain rfl := locate_child_eq htarget hlocate'
    split at h
    · cases h
    · split at h
      · cases h
      · split at h
        · cases h
        · split at h
          · cases h
          · rw [← Except.ok.inj h]
            exact (sameOutside_erase d p.destination source).trans (sameOutside_put _ _ _ _)

/-- Removing a file changes the directory that its path names. -/
theorem sameOutside_remove (hup : part ≠ "..") (h : d.remove (p.child part) = .ok d') :
    SameOutside p.destination d d' := by
  unfold remove at h
  split at h
  · cases h
  · cases h
  · rename_i hlocate
    obtain rfl := locate_child_eq hup hlocate
    rw [← Except.ok.inj h]
    exact sameOutside_erase d p.destination part
  · cases h

/-- Creating a directory changes no file. -/
theorem fileAt?_createDirectory (h : d.createDirectory p = .ok d') : d'.fileAt? = d.fileAt? := by
  unfold createDirectory at h
  cases hlocate : d.locate p with
  | error e => simp [hlocate] at h
  | ok l =>
    cases hentry : d.entryAt? l with
    | some entry => simp [hlocate, hentry] at h
    | none =>
      have hl : l ≠ [] := by
        rintro rfl
        cases hentry
      obtain rfl : d.put l .directory = d' := by simpa [hlocate, hentry] using h
      funext m
      by_cases hm : m = l
      · rw [hm, fileAt?, fileAt?, entryAt?_put_self hl, hentry]
      · exact fileAt?_congr (entryAt?_put_of_ne hm d _)

/-- Creating directories changes no file. -/
theorem fileAt?_createDirectoriesFrom {absolute : Bool} {parts : List String}
    (h : d.createDirectoriesFrom absolute parts = .ok d') : d'.fileAt? = d.fileAt? := by
  induction parts generalizing d d' with
  | nil => rw [Except.ok.inj h]
  | cons part above ih =>
    rw [createDirectoriesFrom] at h
    -- Made at once, made after those above it, or there already.
    split at h
    · rename_i hmade
      rw [← Except.ok.inj h]
      exact fileAt?_createDirectory hmade
    · split at h
      · cases h
      · rename_i d₁ habove
        rw [← ih habove]
        split at h
        · rename_i hmade
          rw [← Except.ok.inj h]
          exact fileAt?_createDirectory hmade
        · split at h
          · rw [Except.ok.inj h]
          · cases h
    · split at h
      · rw [Except.ok.inj h]
      · cases h

/-- **Making directories** changes no file. -/
theorem fileAt?_createDirectories (h : d.createDirectories p = .ok d') :
    d'.fileAt? = d.fileAt? :=
  fileAt?_createDirectoriesFrom h

end Disk

/-! ### Steps -/

namespace DiskM

variable {ε ε' α β : Type} {x : DiskM ε α} {f : α → DiskM ε β} {l : Location}

/-- Whether they fail or not, the steps change no file except directly in a directory. -/
def Within (l : Location) (x : DiskM ε α) : Prop := ∀ d, Disk.SameOutside l d (x.run.run d).2

theorem within_pure (l : Location) (a : α) : Within l (pure a : DiskM ε α) :=
  fun d => .refl l d

theorem within_throw (l : Location) (e : ε) : Within l (throw e : DiskM ε α) :=
  fun d => .refl l d

/-- Steps that stay in a directory stay in it one after another. -/
theorem Within.bind (hx : Within l x) (hf : ∀ a, Within l (f a)) : Within l (x >>= f) := by
  intro d
  have hfirst := hx d
  rcases hrun : x.run.run d with ⟨e | a, d₁⟩
  · rw [run_bind_of_error hrun]
    rwa [hrun] at hfirst
  · rw [run_bind_of_ok hrun]
    rw [hrun] at hfirst
    exact hfirst.trans (hf a d₁)

/-- How errors are reported does not matter. -/
theorem Within.adapt (hx : Within l x) (report : ε → ε') : Within l (ExceptT.adapt report x) :=
  hx

/-- An operation that changes nothing outside a directory stays in it. -/
theorem within_change {operation : Disk → Except FileError Disk}
    (h : ∀ d d', operation d = .ok d' → Disk.SameOutside l d d') :
    Within l (Disk.change operation) := by
  intro d
  rw [run_change]
  cases hoperation : operation d with
  | ok d' => exact h d d' hoperation
  | error e => exact .refl l d

/-- A question changes nothing. -/
theorem within_ask (l : Location) (question : Disk → Except FileError α) :
    Within l (Disk.ask question) := by
  intro d
  have hget : (get : DiskM FileError Disk).run.run d = (.ok d, d) := rfl
  rw [Disk.ask, run_bind_of_ok hget]
  cases question d with
  | ok a => exact .refl l d
  | error e => exact .refl l d

/-- **Replacing a file** changes no other, except for the temporary one beside it. -/
theorem within_writeAtomically {part : String} (hup : part ≠ "..") (p : Path)
    (content : ByteArray) :
    Within p.destination (Disk.writeAtomically (p.child part) content) := by
  intro d
  have hsteps : Within p.destination
      (Disk.change (·.write (p.child d.temporaryName) content) >>= fun _ =>
        Disk.change (·.rename (p.child d.temporaryName) (p.child part))) :=
    Within.bind
      (within_change fun _ _ h => Disk.sameOutside_write (Disk.temporaryName_ne_up d) h)
      fun _ => within_change fun _ _ h =>
        Disk.sameOutside_rename (Disk.temporaryName_ne_up d) hup h
  rw [Disk.writeAtomically, Path.parent?_child]
  exact hsteps { d with temporaries := d.temporaries + 1 }

end DiskM

/-! ### Directories on the way -/

namespace Disk

variable {d : Disk} {l m : Location} {p : Path} {part : String} {parts : List String}

/-- The locations on the way of some parts, with both its ends. -/
def stations (l : Location) : List String → List Location
  | [] => [l]
  | part :: rest => l :: stations (Path.next l part) rest

/-- Where the names of a path lead is one of its stations. -/
theorem foldl_mem_stations (l : Location) (parts : List String) :
    parts.foldl Path.next l ∈ stations l parts := by
  induction parts generalizing l with
  | nil => exact List.mem_singleton_self l
  | cons part rest ih => exact List.mem_cons_of_mem _ (ih _)

/-- The names on the way are those of the parts. -/
theorem mem_of_mem_stations {name : String} (hm : m ∈ stations l parts) (hname : name ∈ m) :
    name ∈ l ∨ name ∈ parts := by
  induction parts generalizing l with
  | nil =>
    obtain rfl := List.mem_singleton.1 hm
    exact .inl hname
  | cons part rest ih =>
    rcases List.mem_cons.1 hm with rfl | hrest
    · exact .inl hname
    · refine (ih hrest).elim (fun hnext => ?_) fun hlater => .inr (List.mem_cons_of_mem _ hlater)
      unfold Path.next at hnext
      split at hnext
      · exact .inl (List.dropLast_subset l hnext)
      · rcases List.mem_append.1 hnext with hbefore | hlast
        · exact .inl hbefore
        · exact .inr (List.mem_singleton.1 hlast ▸ List.mem_cons_self)

/-- A way with all its directories can be gone. -/
theorem walk_of_stations (hstations : ∀ m ∈ stations l parts, d.entryAt? m = some .directory)
    (hshort : ∀ part ∈ parts, part = ".." ∨ CanName part) :
    d.walk l parts = .ok (parts.foldl Path.next l) := by
  induction parts generalizing l with
  | nil => rfl
  | cons part rest ih =>
    have hstep : d.step l part = .ok (Path.next l part) := by
      rw [step, hstations l List.mem_cons_self, Path.next]
      rcases hshort part List.mem_cons_self with rfl | hcan
      · rfl
      · simp [hcan.notUp, Nat.not_lt.2 hcan.short]
    rw [walk, hstep]
    exact ih (fun m hm => hstations m (List.mem_cons_of_mem _ hm))
      fun part hpart => hshort part (List.mem_cons_of_mem _ hpart)

/-- The directories on the way of a path, and no files. -/
def ofWay (p : Path) : Disk where
  entries := ⟨(stations [] p.parts).map fun l => (l, .directory)⟩

/-- The disk of a way has the directories on the way and nothing else. -/
theorem entryAt?_ofWay (p : Path) (m : Location) :
    (ofWay p).entryAt? m = if m = [] ∨ m ∈ stations [] p.parts then some .directory else none := by
  have hlookup (ls : List Location) :
      OrderedMap.lookupIn m (ls.map fun l => (l, FileEntry.directory))
        = if m ∈ ls then some .directory else none := by
    induction ls with
    | nil => rfl
    | cons l rest ih =>
      by_cases hm : l = m
      · simp [OrderedMap.lookupIn, hm]
      · simp [OrderedMap.lookupIn, hm, Ne.symm hm, ih]
  by_cases hm : m = []
  · simp [entryAt?, hm]
  · rw [entryAt?_of_ne_nil hm]
    simp only [hm, false_or]
    exact hlookup (stations [] p.parts)

theorem fileAt?_ofWay (p : Path) (m : Location) : (ofWay p).fileAt? m = none := by
  rw [fileAt?, entryAt?_ofWay]
  split <;> simp_all

/-- **On the disk of its way** a path is found. -/
theorem directoryAt_ofWay (h : ∀ part ∈ p.parts, part = ".." ∨ CanName part) :
    (ofWay p).DirectoryAt p p.destination where
  noNul part hpart := by
    rcases h part hpart with rfl | hcan
    · decide
    · exact hcan.noNul
  walked := by
    refine walk_of_stations (fun m hm => ?_) h
    rw [entryAt?_ofWay, if_pos (.inr hm)]
  directory := by
    rw [entryAt?_ofWay, if_pos (.inr (foldl_mem_stations [] p.parts))]

/-- **Replacing a file there** leaves a file in the directory, the temporary one if need be. -/
theorem exists_fileAt?_writeAtomically (h : ∀ part ∈ p.parts, part = ".." ∨ CanName part)
    (htemporary : ∀ d : Disk, d.temporaryName ∉ p.parts) (hup : part ≠ "..")
    (content : ByteArray) :
    ∃ name, ((writeAtomically (p.child part) content).run.run (ofWay p)).2.fileAt?
      (p.destination ++ [name]) ≠ none := by
  -- the directory with the name of the temporary file given away, and then with the file
  let d₁ : Disk := { ofWay p with temporaries := 1 }
  let name := (ofWay p).temporaryName
  let d₂ : Disk := d₁.put (p.destination ++ [name]) (.file content)
  have hcan : CanName name := show CanName (".tmp_" ++ toString 0) by decide +kernel
  have hdirectory : d₁.DirectoryAt p p.destination := (directoryAt_ofWay h).mono fun _ hm => hm
  have hvacant : d₁.entryAt? (p.destination ++ [name]) ≠ some .directory := by
    have hnot : ¬ (p.destination ++ [name] = []
        ∨ p.destination ++ [name] ∈ stations [] p.parts) := by
      rintro (hnil | hmem)
      · exact concat_ne_nil _ _ hnil
      · have hlast : name ∈ p.destination ++ [name] := by simp
        exact (mem_of_mem_stations hmem hlast).elim List.not_mem_nil (htemporary _)
    change (ofWay p).entryAt? (p.destination ++ [name]) ≠ some .directory
    rw [entryAt?_ofWay, if_neg hnot]
    simp
  have hwrite : d₁.write (p.child name) content = .ok d₂ :=
    (write_child_eq_ok_iff hdirectory hcan.notUp).2 ⟨hcan, hvacant, rfl⟩
  have hstaged : d₂.entryAt? (p.destination ++ [name]) = some (.file content) :=
    entryAt?_put_self (concat_ne_nil _ _) _ _
  have hdirectory₂ : d₂.DirectoryAt p p.destination := hdirectory.mono fun m hm => by
    have hother : m ≠ p.destination ++ [name] := fun heq => hvacant (heq ▸ hm)
    rw [entryAt?_put_of_ne hother, hm]
  have hrun : (writeAtomically (p.child part) content).run.run (ofWay p)
      = (change (·.rename (p.child name) (p.child part))).run.run d₂ := by
    have hfirst : (change (·.write (p.child name) content)).run.run d₁ = (.ok (), d₂) :=
      DiskM.run_change_eq_ok_iff.2 hwrite
    rw [writeAtomically, Path.parent?_child]
    exact DiskM.run_bind_of_ok hfirst
  rw [hrun, DiskM.run_change]
  cases hrename : d₂.rename (p.child name) (p.child part) with
  | error e =>
    -- a rename that fails leaves the temporary file where it was written
    refine ⟨name, ?_⟩
    simp [fileAt?, hstaged]
  | ok d₃ =>
    obtain ⟨-, -, rfl⟩ := (rename_child_eq_ok_iff hdirectory₂ hcan hup hstaged).1 hrename
    refine ⟨part, ?_⟩
    simp [fileAt?, entryAt?_put_self (concat_ne_nil _ _)]

end Disk
end Inventory
