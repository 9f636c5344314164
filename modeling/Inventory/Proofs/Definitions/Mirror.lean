/-
# Definitions in memory and in their folder

`open`, writing and deleting, on the folder of a `SchemaContext` or a `ViewsContext`.

Definitions are held twice, in memory and in the files of a folder. They are *mirrored*
when the files are a map from names to definitions and the memory holds its valid ones
(`Definitions.Mirrors`). Then opening the folder again, without defaults, finds what is
in memory (`Definitions.Mirrors.reopen`).

| operation | the files | in memory |
| --- | --- | --- |
| opening a folder | gain the defaults without a file, also invalid ones | the valid ones of the files |
| writing a valid definition | gain it, or stay as they are when writing fails | likewise |
| writing an invalid one | stay as they are | stays as it is |
| deleting a definition | lose it | likewise |
| deleting an unknown one | stay as they are | stays as it is |

So on a directory that was empty at first they are mirrored after any sequence of these
operations (`FolderOperations.mirrors_of_reached`).
-/

import Inventory.Page.ViewFolder
import Inventory.Proofs.Definitions.Stored
import Inventory.Schema.Folder

namespace Inventory

/-- A format whose folder has a name that entries of a directory can have. -/
structure DefinitionFormat.Placed {α : Type} (format : DefinitionFormat α) : Prop where
  isPart : Path.IsPart format.folder
  canName : Disk.CanName format.folder

/-- The folder stands directly below the root. -/
theorem DefinitionFormat.Placed.folderIn_eq {α : Type} {format : DefinitionFormat α}
    (h : format.Placed) (root : Path) : format.folderIn root = root.child format.folder :=
  Path.join_ofText h.isPart root

/-- An empty directory at a path. -/
structure Disk.EmptyAt (d : Disk) (root : Path) (l : Location) : Prop where
  directoryAt : d.DirectoryAt root l
  vacant : ∀ m, m ≠ [] → d.entryAt? (l ++ m) = none

namespace Definitions

variable {α ε : Type} {format : DefinitionFormat α} {l : Location} {root : Path}
  {held held' : Definitions α} {d d₁ d' : Disk} {g : String → Option α}
  {report reportWriting : FileError → ε}

/-- The files are a map from names to definitions, and the memory holds its valid ones. -/
def Mirrors (format : DefinitionFormat α) (l : Location) (held : Definitions α) (d : Disk) : Prop :=
  ∃ g, format.Stores held.root l g d ∧ ∀ name, held.get? name = (g name).filter format.isValid

/-! ### Opening -/

/-- In an empty directory a folder is made that holds nothing. -/
theorem exists_stores_none (h : d.EmptyAt root l) (hformat : format.Placed) :
    ∃ d₁, d.createDirectories (format.folderIn root) = .ok d₁
      ∧ format.Stores root (l ++ [format.folder]) (fun _ => none) d₁ := by
  have hvacant : d.entryAt? (l ++ [format.folder]) = none := h.vacant _ (by simp)
  have hkeeps : d.KeepsDirectories (d.put (l ++ [format.folder]) .directory) := fun m hm => by
    have hne : m ≠ l ++ [format.folder] := fun heq => by
      rw [heq, hvacant] at hm
      cases hm
    rw [Disk.entryAt?_put_of_ne hne, hm]
  refine ⟨d.put (l ++ [format.folder]) .directory, ?_,
    DefinitionFormat.stores_none ?_ fun file => ?_⟩
  · rw [hformat.folderIn_eq]
    exact Disk.createDirectories_of_vacant h.directoryAt hformat.canName hvacant
  · rw [hformat.folderIn_eq]
    exact (h.directoryAt.mono hkeeps).child hformat.canName
      (Disk.entryAt?_put_self (Disk.concat_ne_nil _ _) _ _)
  · rw [Disk.entryAt?_put_of_ne (by simp), List.append_assoc]
    exact h.vacant _ (by simp)

/-- A folder that is there is not made again. -/
theorem createDirectories_of_stores (hformat : format.Placed) (h : format.Stores root l g d) :
    d.createDirectories (format.folderIn root) = .ok d := by
  have hfolder := h.folder
  rw [hformat.folderIn_eq] at hfolder ⊢
  exact Disk.createDirectories_of_directoryAt hfolder

/-- The path of the folder has a last part. -/
theorem parts_folderIn_ne_nil (hformat : format.Placed) (root : Path) :
    (format.folderIn root).parts ≠ [] := by
  rw [hformat.folderIn_eq]
  exact Disk.child_parts_ne_nil root format.folder

/-- What has to succeed for a folder to open. -/
theorem openAt_eq_ok_iff {defaults : List α} :
    (openAt format report reportWriting root defaults).run.run d = (.ok held, d') ↔
      ∃ d₁ d₂ byName, d.createDirectories (format.folderIn root) = .ok d₁
        ∧ (format.seed root defaults).run.run d₁ = (.ok (), d₂)
        ∧ (format.load root).run.run d₂ = (.ok byName, d')
        ∧ held = ⟨root, byName⟩ := by
  unfold openAt
  simp only [DiskM.run_bind_eq_ok_iff, DiskM.run_adapt_eq_ok_iff, DiskM.run_change_eq_ok_iff]
  constructor
  · rintro ⟨⟨⟩, d₁, hcreated, ⟨⟩, d₂, hseeded, byName, d₃, hloaded, hheld⟩
    obtain ⟨rfl, rfl⟩ := DiskM.run_pure_eq_ok_iff.1 hheld
    exact ⟨d₁, d₂, byName, hcreated, hseeded, hloaded, rfl⟩
  · rintro ⟨d₁, d₂, byName, hcreated, hseeded, hloaded, rfl⟩
    exact ⟨(), d₁, hcreated, (), d₂, hseeded, byName, d', hloaded, rfl⟩

/-- **Opening a folder** leaves its files and the memory mirrored. -/
theorem mirrors_of_openAt (hformat : format.Placed)
    (hcreate : d.createDirectories (format.folderIn root) = .ok d₁)
    (hstores : format.Stores root l g d₁) {defaults : List α}
    (hdefaults : ∀ a ∈ defaults, format.Storable a)
    (hrun : (openAt format report reportWriting root defaults).run.run d = (.ok held, d')) :
    held.root = root ∧ Mirrors format l held d' := by
  obtain ⟨d₁', d₂, byName, hcreated, hseeded, hloaded, rfl⟩ := openAt_eq_ok_iff.1 hrun
  obtain rfl := Except.ok.inj (hcreate.symm.trans hcreated)
  obtain ⟨g', hstores'⟩ := hstores.seed hdefaults hseeded
  obtain ⟨read, hread, hget⟩ := hstores'.load (parts_folderIn_ne_nil hformat root)
  obtain ⟨hbyName, rfl⟩ := Prod.mk.inj (hread.symm.trans hloaded)
  obtain rfl := Except.ok.inj hbyName
  exact ⟨rfl, g', hstores', hget⟩

/-- **Opening the folder again** without defaults changes no file and finds what is in
memory. -/
theorem Mirrors.reopen (hformat : format.Placed) (h : Mirrors format l held d)
    (report reportWriting : FileError → ε) :
    ∃ held', (openAt format report reportWriting held.root []).run.run d = (.ok held', d)
      ∧ ∀ name, held'.get? name = held.get? name := by
  obtain ⟨g, hstores, hget⟩ := h
  obtain ⟨byName, hloaded, hbyName⟩ := hstores.load (parts_folderIn_ne_nil hformat held.root)
  refine ⟨⟨held.root, byName⟩, openAt_eq_ok_iff.2 ⟨d, d, byName, ?_, rfl, hloaded, rfl⟩,
    fun name => (hbyName name).trans (hget name).symm⟩
  exact createDirectories_of_stores hformat hstores

/-! ### Writing and deleting -/

/-- **Writing a valid definition** keeps files and memory mirrored. -/
theorem Mirrors.write (h : Mirrors format l held d) {a : α} (ha : format.Storable a)
    (hvalid : format.isValid a = true) {result : Except FileError (Definitions α)}
    (hrun : (Definitions.write format held a).run.run d = (result, d')) :
    (∀ held', result = .ok held' → held'.root = held.root ∧ Mirrors format l held' d')
      ∧ ∀ e, result = .error e → Mirrors format l held d' := by
  obtain ⟨g, hstores, hget⟩ := h
  unfold Definitions.write at hrun
  rcases hwrite : (format.writeFile held.root a).run.run d with ⟨e | u, d₁⟩
  · rw [DiskM.run_bind_of_error hwrite] at hrun
    obtain ⟨rfl, rfl⟩ := Prod.mk.inj hrun
    exact ⟨(fun _ h => by cases h), fun _ _ => ⟨g, hstores.writeFile_error ha hwrite, hget⟩⟩
  · rw [DiskM.run_bind_of_ok hwrite] at hrun
    obtain ⟨rfl, rfl⟩ := Prod.mk.inj hrun
    refine ⟨fun held' h => ?_, fun _ h => by cases h⟩
    obtain rfl := Except.ok.inj h
    refine ⟨rfl, _, hstores.writeFile ha hwrite, fun name => ?_⟩
    change (held.byName.insert (format.nameOf a) a).get? name = _
    by_cases hname : name = format.nameOf a
    · subst hname
      rw [OrderedMap.get?_insert_self, Function.update_self, Option.filter_some, if_pos hvalid]
    · rw [OrderedMap.get?_insert_of_ne hname, Function.update_of_ne hname]
      exact hget name

/-- **Deleting a definition** that is there keeps files and memory mirrored. -/
theorem Mirrors.delete (h : Mirrors format l held d) {name : String}
    (hname : (held.get? name).isSome = true) :
    ((Definitions.delete format held name).run d).1.root = held.root
      ∧ Mirrors format l ((Definitions.delete format held name).run d).1
        ((Definitions.delete format held name).run d).2 := by
  obtain ⟨g, hstores, hget⟩ := h
  obtain ⟨a, ha⟩ := Option.isSome_iff_exists.1 hname
  have hstored : g name = some a := by
    rw [hget, Option.filter_eq_some_iff] at ha
    exact ha.1
  obtain ⟨d', hremove, hstores'⟩ := hstores.removeFile hstored
  have hrun : (Definitions.delete format held name).run d
      = ({ held with byName := held.byName.erase name }, d') := by
    simp only [Definitions.delete, StateT.run_bind, StateT.run_get, pure_bind, hremove]
    rfl
  rw [hrun]
  refine ⟨rfl, _, hstores', fun other => ?_⟩
  change (held.byName.erase name).get? other = _
  rw [OrderedMap.get?_erase]
  by_cases hother : other = name
  · rw [hother, if_pos rfl, Function.update_self]
    rfl
  · rw [if_neg hother, Function.update_of_ne hother]
    exact hget other

end Definitions

/-! ### Sequences of operations -/

/-- The operations on a folder of definitions of one kind. -/
structure FolderOperations (ε α : Type) where
  openAt : Path → List α → DiskM ε (Definitions α)
  write : Definitions α → α → DiskM ε (Definitions α)
  delete : Definitions α → String → DiskM ε (Definitions α)

namespace FolderOperations

variable {ε α : Type} {ops : FolderOperations ε α} {format : DefinitionFormat α}
  {root : Path} {start : Disk} {l : Location}

/-- What is in memory after an operation: a failed one leaves what was there. -/
def inMemory (held : Definitions α) : Except ε (Definitions α) → Definitions α
  | .ok held' => held'
  | .error _ => held

/-- What is in memory and on the disk after operations on a folder, the first of which
opens it. The definitions that are given to them can be stored, and opening succeeds. -/
inductive Reached (ops : FolderOperations ε α) (format : DefinitionFormat α) (root : Path)
    (start : Disk) : Definitions α → Disk → Prop
  | opened {defaults : List α} {held : Definitions α} {disk : Disk}
      (hdefaults : ∀ a ∈ defaults, format.Storable a)
      (hrun : (ops.openAt root defaults).run.run start = (.ok held, disk)) :
      Reached ops format root start held disk
  | reopened {defaults : List α} {held held' : Definitions α} {disk disk' : Disk}
      (h : Reached ops format root start held disk) (hdefaults : ∀ a ∈ defaults, format.Storable a)
      (hrun : (ops.openAt root defaults).run.run disk = (.ok held', disk')) :
      Reached ops format root start held' disk'
  | wrote {a : α} {held : Definitions α} {disk disk' : Disk}
      {result : Except ε (Definitions α)} (h : Reached ops format root start held disk)
      (ha : format.Storable a) (hrun : (ops.write held a).run.run disk = (result, disk')) :
      Reached ops format root start (inMemory held result) disk'
  | deleted {name : String} {held : Definitions α} {disk disk' : Disk}
      {result : Except ε (Definitions α)} (h : Reached ops format root start held disk)
      (hrun : (ops.delete held name).run.run disk = (result, disk')) :
      Reached ops format root start (inMemory held result) disk'

/-- Operations that keep definitions in files of a format: they write valid definitions
only, and delete those that are there. -/
structure Keep (ops : FolderOperations ε α) (format : DefinitionFormat α) : Prop where
  placed : format.Placed
  openAt : ∃ report reportWriting, ∀ root defaults,
    ops.openAt root defaults = Definitions.openAt format report reportWriting root defaults
  write : ∀ held a, format.isValid a = true →
    ∃ report, ops.write held a = ExceptT.adapt report (Definitions.write format held a)
  refuse : ∀ held a, format.isValid a = false → ∃ e, ops.write held a = throw e
  delete : ∀ held name, (held.get? name).isSome = true → ∀ disk,
    (ops.delete held name).run.run disk
      = (.ok ((Definitions.delete format held name).run disk).1,
        ((Definitions.delete format held name).run disk).2)
  unknown : ∀ held name, held.get? name = none → ∃ e, ops.delete held name = throw e

/-- **Step:** writing keeps files and memory mirrored. -/
theorem Keep.mirrors_write (hops : ops.Keep format) {held : Definitions α} {disk disk' : Disk}
    (h : held.Mirrors format l disk) {a : α} (ha : format.Storable a)
    {result : Except ε (Definitions α)}
    (hrun : (ops.write held a).run.run disk = (result, disk')) :
    (inMemory held result).root = held.root ∧ (inMemory held result).Mirrors format l disk' := by
  cases hvalid : format.isValid a with
  | false =>
    obtain ⟨e, he⟩ := hops.refuse held a hvalid
    rw [he] at hrun
    obtain ⟨rfl, rfl⟩ := Prod.mk.inj hrun
    exact ⟨rfl, h⟩
  | true =>
    obtain ⟨report, hwrite⟩ := hops.write held a hvalid
    rw [hwrite, DiskM.run_adapt] at hrun
    rcases hstored : (Definitions.write format held a).run.run disk with ⟨e | held', disk₁⟩
    · rw [hstored] at hrun
      obtain ⟨rfl, rfl⟩ := Prod.mk.inj hrun
      exact ⟨rfl, (h.write ha hvalid hstored).2 e rfl⟩
    · rw [hstored] at hrun
      obtain ⟨rfl, rfl⟩ := Prod.mk.inj hrun
      exact (h.write ha hvalid hstored).1 held' rfl

/-- **Step:** deleting keeps files and memory mirrored. -/
theorem Keep.mirrors_delete (hops : ops.Keep format) {held : Definitions α} {disk disk' : Disk}
    (h : held.Mirrors format l disk) {name : String} {result : Except ε (Definitions α)}
    (hrun : (ops.delete held name).run.run disk = (result, disk')) :
    (inMemory held result).root = held.root ∧ (inMemory held result).Mirrors format l disk' := by
  cases hname : held.get? name with
  | none =>
    obtain ⟨e, he⟩ := hops.unknown held name hname
    rw [he] at hrun
    obtain ⟨rfl, rfl⟩ := Prod.mk.inj hrun
    exact ⟨rfl, h⟩
  | some a =>
    have hsome : (held.get? name).isSome = true := by rw [hname]; rfl
    rw [hops.delete held name hsome] at hrun
    obtain ⟨rfl, rfl⟩ := Prod.mk.inj hrun
    exact h.delete hsome

/-- **Run:** after any operations on a directory that was empty at first, files and memory
are mirrored. -/
theorem mirrors_of_reached (hops : ops.Keep format) (hstart : start.EmptyAt root l)
    {held : Definitions α} {disk : Disk} (h : Reached ops format root start held disk) :
    held.root = root ∧ held.Mirrors format (l ++ [format.folder]) disk := by
  obtain ⟨report, reportWriting, hopen⟩ := hops.openAt
  induction h with
  | opened hdefaults hrun =>
    obtain ⟨d₁, hcreate, hstores⟩ := Definitions.exists_stores_none hstart hops.placed
    rw [hopen] at hrun
    exact Definitions.mirrors_of_openAt hops.placed hcreate hstores hdefaults hrun
  | reopened _ hdefaults hrun ih =>
    obtain ⟨hroot, g, hstores, -⟩ := ih
    rw [hroot] at hstores
    rw [hopen] at hrun
    exact Definitions.mirrors_of_openAt hops.placed
      (Definitions.createDirectories_of_stores hops.placed hstores) hstores hdefaults hrun
  | wrote _ ha hrun ih =>
    obtain ⟨hroot, hmirrors⟩ := hops.mirrors_write ih.2 ha hrun
    exact ⟨hroot.trans ih.1, hmirrors⟩
  | deleted _ hrun ih =>
    obtain ⟨hroot, hmirrors⟩ := hops.mirrors_delete ih.2 hrun
    exact ⟨hroot.trans ih.1, hmirrors⟩

/-- After any operations, opening the folder again without defaults changes no file and
finds what is in memory. -/
theorem reopen_of_reached (hops : ops.Keep format) (hstart : start.EmptyAt root l)
    {held : Definitions α} {disk : Disk} (h : Reached ops format root start held disk) :
    ∃ held', (ops.openAt root []).run.run disk = (.ok held', disk)
      ∧ ∀ name, held'.get? name = held.get? name := by
  obtain ⟨report, reportWriting, hopen⟩ := hops.openAt
  obtain ⟨rfl, hmirrors⟩ := mirrors_of_reached hops hstart h
  rw [hopen]
  exact hmirrors.reopen hops.placed report reportWriting

end FolderOperations

/-! ### Schemas and views -/

/-- The operations on a folder of schemas. -/
def SchemaFolder.operations : FolderOperations SchemaError Schema :=
  ⟨SchemaFolder.openAt, SchemaFolder.write, SchemaFolder.delete⟩

/-- The operations on a folder of views. -/
def ViewFolder.operations : FolderOperations ViewError View :=
  ⟨ViewFolder.openAt, ViewFolder.write, ViewFolder.delete⟩

/-- A schema that is not there cannot be deleted. -/
theorem SchemaFolder.delete_unknown {held : SchemaFolder} {name : String}
    (h : held.get? name = none) : SchemaFolder.delete held name = throw (.schemaNotFound name) := by
  have hget : held.byName.get? name = none := h
  simp [SchemaFolder.delete, OrderedMap.contains, hget]

/-- A view that is not there cannot be deleted. -/
theorem ViewFolder.delete_unknown {held : ViewFolder} {name : String}
    (h : held.get? name = none) : ViewFolder.delete held name = throw (.viewNotFound name) := by
  have hget : held.byName.get? name = none := h
  simp [ViewFolder.delete, OrderedMap.contains, hget]

/-- A schema that is not valid is not written. -/
theorem SchemaFolder.write_invalid {held : SchemaFolder} {s : Schema} {e : SchemaError}
    (h : s.validate = .error e) : SchemaFolder.write held s = throw e := by
  simp [SchemaFolder.write, h]

/-- Schemas are written and deleted as definitions are. -/
theorem SchemaFolder.keep : SchemaFolder.operations.Keep Schema.format where
  placed := ⟨⟨by decide, by decide, by decide⟩, ⟨by decide, by decide, by decide⟩⟩
  openAt := ⟨.file, .file, fun _ _ => rfl⟩
  write held s hvalid := by
    refine ⟨.file, ?_⟩
    change SchemaFolder.write held s = _
    unfold SchemaFolder.write
    cases hs : s.validate with
    | ok _ => rfl
    | error e => simp [Schema.format, hs, Except.isOk, Except.toBool] at hvalid
  refuse held s hvalid := by
    cases hs : s.validate with
    | ok _ => simp [Schema.format, hs, Except.isOk, Except.toBool] at hvalid
    | error e => exact ⟨e, SchemaFolder.write_invalid hs⟩
  delete held name hname disk := by
    change (SchemaFolder.delete held name).run.run disk = _
    unfold SchemaFolder.delete
    have hcontains : held.byName.contains name = true := hname
    rw [if_pos hcontains]
    rfl
  unknown _ name hname := ⟨.schemaNotFound name, SchemaFolder.delete_unknown hname⟩

/-- Views are written and deleted as definitions are. -/
theorem ViewFolder.keep : ViewFolder.operations.Keep View.format where
  placed := ⟨⟨by decide, by decide, by decide⟩, ⟨by decide, by decide, by decide⟩⟩
  openAt := ⟨.file, writingError, fun _ _ => rfl⟩
  write _ _ _ := ⟨writingError, rfl⟩
  refuse _ _ hvalid := by cases hvalid
  delete held name hname disk := by
    change (ViewFolder.delete held name).run.run disk = _
    unfold ViewFolder.delete
    have hcontains : held.byName.contains name = true := hname
    rw [if_pos hcontains]
    rfl
  unknown _ name hname := ⟨.viewNotFound name, ViewFolder.delete_unknown hname⟩

/-- **What is in memory is what the files hold.** Take any opening, writing and deleting
of schemas on a directory that was empty at first. Then opening the folder again without
defaults succeeds, changes no file, and finds the schema of every name that is in memory;
and an invalid schema or an unknown name is refused without a change. The same holds for
views. -/
theorem Definitions.reopens_as_held {root : Path} {start : Disk} {l : Location}
    (hstart : start.EmptyAt root l) :
    (∀ held disk, FolderOperations.Reached SchemaFolder.operations Schema.format root start
        held disk →
      (∃ held', (SchemaFolder.openAt root []).run.run disk = (.ok held', disk)
          ∧ ∀ name, held'.get? name = held.get? name)
        ∧ (∀ s e, s.validate = .error e →
          (SchemaFolder.write held s).run.run disk = (.error e, disk))
        ∧ ∀ name, held.get? name = none →
          (SchemaFolder.delete held name).run.run disk = (.error (.schemaNotFound name), disk))
      ∧ ∀ held disk, FolderOperations.Reached ViewFolder.operations View.format root start
          held disk →
        (∃ held', (ViewFolder.openAt root []).run.run disk = (.ok held', disk)
            ∧ ∀ name, held'.get? name = held.get? name)
          ∧ ∀ name, held.get? name = none →
            (ViewFolder.delete held name).run.run disk = (.error (.viewNotFound name), disk) := by
  refine ⟨fun held disk h => ⟨?_, fun s e hs => ?_, fun name hname => ?_⟩,
    fun held disk h => ⟨?_, fun name hname => ?_⟩⟩
  · exact FolderOperations.reopen_of_reached SchemaFolder.keep hstart h
  · rw [SchemaFolder.write_invalid hs]
    rfl
  · rw [SchemaFolder.delete_unknown hname]
    rfl
  · exact FolderOperations.reopen_of_reached ViewFolder.keep hstart h
  · rw [ViewFolder.delete_unknown hname]
    rfl

/-- A disk with an empty directory. -/
def emptyRegistry : Disk := ⟨.ofList [(["registry"], .directory)], 0⟩

theorem emptyAt_emptyRegistry : emptyRegistry.EmptyAt (.ofText "registry") ["registry"] where
  directoryAt := ⟨by decide, by decide, rfl⟩
  vacant m hm := by
    have hne : ["registry"] ≠ "registry" :: m := fun h => hm (List.cons.inj h).2.symm
    simp [Disk.entryAt?, emptyRegistry, OrderedMap.ofList, OrderedMap.merge, OrderedMap.insert,
      OrderedMap.insertIn, OrderedMap.empty, OrderedMap.get?, OrderedMap.lookupIn, hne]

/-- Volumes with a name. -/
def volumeSchema : Schema where
  name := "volume"
  label := "Volume"
  labelField := "name"
  fields := [.string "name" "Name"]

/-- A schema that does not declare its label field. -/
def unlabelledSchema : Schema where
  name := "tag"
  label := "Tag"
  labelField := "name"

/-- The schema of volumes is read back as it was written. -/
theorem storable_volumeSchema : Schema.format.Storable volumeSchema :=
  ⟨by decide, by decide, by decide +kernel⟩

theorem storable_unlabelledSchema : Schema.format.Storable unlabelledSchema :=
  ⟨by decide, by decide, by decide +kernel⟩

/-- A folder is opened with an invalid default, and a valid schema is written. The default
has a file but is not in memory, nor is it when the folder is opened again. -/
theorem Definitions.reopens_as_held_volume :
    ∃ held disk, FolderOperations.Reached SchemaFolder.operations Schema.format
        (.ofText "registry") emptyRegistry held disk
      ∧ held.get? "volume" = some volumeSchema ∧ held.get? "tag" = none
      ∧ ∃ held', (SchemaFolder.openAt (.ofText "registry") []).run.run disk = (.ok held', disk)
        ∧ ∀ name, held'.get? name = held.get? name := by
  have hdefaults : ∀ s ∈ [unlabelledSchema], Schema.format.Storable s := fun s hs =>
    List.mem_singleton.1 hs ▸ storable_unlabelledSchema
  have hruns : (match (SchemaFolder.operations.openAt (.ofText "registry")
        [unlabelledSchema]).run.run emptyRegistry with
      | (.error _, _) => false
      | (.ok held, disk) =>
        match (SchemaFolder.operations.write held volumeSchema).run.run disk with
        | (.error _, _) => false
        | (.ok held', _) => decide (held'.get? "volume" = some volumeSchema
          ∧ held'.get? "tag" = none)) = true := by
    decide +kernel
  generalize hopen : (SchemaFolder.operations.openAt (.ofText "registry")
    [unlabelledSchema]).run.run emptyRegistry = opened at hruns
  rcases opened with ⟨e | held, disk⟩
  · cases hruns
  dsimp only at hruns
  generalize hwrite : (SchemaFolder.operations.write held volumeSchema).run.run disk = written
    at hruns
  rcases written with ⟨e | held', disk'⟩
  · cases hruns
  obtain ⟨hvolume, hunlabelled⟩ := of_decide_eq_true hruns
  have hopened := FolderOperations.Reached.opened hdefaults hopen
  have hreached := hopened.wrote storable_volumeSchema hwrite
  exact ⟨held', disk', hreached, hvolume, hunlabelled,
    ((Definitions.reopens_as_held emptyAt_emptyRegistry).1 held' disk' hreached).1⟩

end Inventory
