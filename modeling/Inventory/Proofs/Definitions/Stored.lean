/-
# What a folder of definitions holds

The folder that writing and deleting definitions leave behind.

The files of a folder are a map from names to definitions (`DefinitionFormat.Stores`):
the file of a name holds the text of a definition of that name, and there are no other
definition files. Opening a folder reads this map off and keeps the valid definitions
(`DefinitionFormat.Stores.load`); writing and deleting change it under one name
(`DefinitionFormat.Stores.writeFile`, `DefinitionFormat.Stores.removeFile`).

Files with other endings do not count, so the temporary file that a failed writing
leaves behind is not seen.
-/

import Inventory.Definitions
import Inventory.Proofs.Files.Disk
import Inventory.Proofs.Text.Numerals
import Mathlib.Logic.Function.Basic

namespace Inventory
namespace DefinitionFormat

/-! ### Names of files -/

/-- The name of the file of a definition. -/
def fileName (name : String) : String := name ++ "." ++ definitionEnding

/-- The name of a file is that of the definition with the ending behind it. -/
theorem toList_fileName (name : String) :
    (fileName name).toList = name.toList ++ ".yaml".toList := by
  simp [fileName, definitionEnding, String.toList_append]

/-- Definitions with different names have different files. -/
theorem fileName_injective : Function.Injective fileName := by
  intro a b h
  have hlist := congrArg String.toList h
  rw [toList_fileName, toList_fileName, List.append_left_inj] at hlist
  exact String.toList_inj.1 hlist

theorem fileName_ne_up (name : String) : fileName name ≠ ".." := by
  intro h
  have hlist := congrArg (fun s => s.toList.getLast?) h
  simp [toList_fileName] at hlist

/-- A name without slash makes one part of a path. -/
theorem isPart_fileName {name : String} (h : '/' ∉ name.toList) : Path.IsPart (fileName name) where
  nonempty heq := by
    have hlist := congrArg String.toList heq
    simp [toList_fileName] at hlist
  noSlash hmem := by
    rw [toList_fileName, List.mem_append] at hmem
    exact hmem.elim h (by decide)
  notHere heq := by
    have hlist := congrArg (fun s => s.toList.getLast?) heq
    simp [toList_fileName] at hlist

/-- The file of a definition is read when the folder is opened. -/
theorem isDefinitionFile_fileName {name : String} (h : name ≠ "") :
    isDefinitionFile (fileName name) = true := by
  have hreverse : (fileName name).toList.reverse
      = ['l', 'm', 'a', 'y'] ++ '.' :: name.toList.reverse := by
    simp [toList_fileName]
  have hname : name.toList.reverse ≠ [] := fun hnil =>
    h (String.toList_eq_nil_iff.1 (List.reverse_eq_nil_iff.1 hnil))
  obtain ⟨c, rest, hrest⟩ := List.exists_cons_of_ne_nil hname
  have hextension : Path.extensionOf? (fileName name) = some definitionEnding := by
    simp only [Path.extensionOf?, hreverse, hrest]
    simp [List.takeWhile, fileName_ne_up, definitionEnding]
  simp [isDefinitionFile, hextension]

/-- A name that starts with its only point has no ending. -/
theorem extensionOf?_hidden {name : String} {rest : List Char} (h : name.toList = '.' :: rest)
    (hrest : '.' ∉ rest) : Path.extensionOf? name = none := by
  have hreverse : name.toList.reverse = rest.reverse ++ ['.'] := by simp [h]
  have hending : (rest.reverse ++ ['.']).takeWhile (· ≠ '.') = rest.reverse := by
    rw [List.takeWhile_append_of_pos]
    · simp [List.takeWhile]
    · intro c hc
      have hne : c ≠ '.' := fun heq => hrest (heq ▸ List.mem_reverse.1 hc)
      simpa using hne
  simp only [Path.extensionOf?, hreverse, hending, List.drop_left]

/-- A temporary file is not read when the folder is opened. -/
theorem isDefinitionFile_temporaryName (d : Disk) : isDefinitionFile d.temporaryName = false := by
  have hdigits : '.' ∉ (toString d.temporaries).toList := Text.notMem_toString_nat (by decide) _
  have hrest : '.' ∉ "tmp_".toList ++ (toString d.temporaries).toList := by
    rw [List.mem_append]
    exact fun h => h.elim (by decide) hdigits
  simp [isDefinitionFile, extensionOf?_hidden (Disk.toList_temporaryName d) hrest]

/-- A definition file does not have the name of a temporary one. -/
theorem ne_temporaryName {file : String} (h : isDefinitionFile file = true) (d : Disk) :
    file ≠ d.temporaryName := fun heq => by
  rw [heq, isDefinitionFile_temporaryName] at h
  cases h

/-! ### What the files hold -/

variable {α : Type} {format : DefinitionFormat α} {root : Path} {l : Location}
  {g : String → Option α} {d d' : Disk}

/-- The file of a name without slash stands directly in the folder. -/
theorem fileOf_eq {name : String} (h : '/' ∉ name.toList) (root : Path) :
    format.fileOf root name = (format.folderIn root).child (fileName name) :=
  Path.join_ofText (isPart_fileName h) _

/-- A default is written unless its file is there. -/
theorem run_seed_cons (a : α) (rest : List α) (d : Disk) :
    (format.seed root (a :: rest)).run.run d
      = if d.holds (format.fileOf root (format.nameOf a)) then (format.seed root rest).run.run d
        else (format.writeFile root a >>= fun _ => format.seed root rest).run.run d := by
  change ((if (!d.holds (format.fileOf root (format.nameOf a))) = true then
    (format.writeFile root a >>= fun _ => format.seed root rest)
    else format.seed root rest) : DiskM FileError Unit).run.run d = _
  cases d.holds (format.fileOf root (format.nameOf a)) <;> rfl

/-- A map in which definitions are found under their own names. -/
def Named (format : DefinitionFormat α) (m : OrderedMap String α) : Prop :=
  ∀ name a, m.get? name = some a → format.nameOf a = name

/-- A definition that is held under its name leaves all of them under their names. -/
theorem Named.insert {m : OrderedMap String α} (h : format.Named m) (a : α) :
    format.Named (m.insert (format.nameOf a) a) := fun name b hb => by
  rw [OrderedMap.get?_insert] at hb
  split at hb
  · rename_i hname
    rw [hname, Option.some.inj hb]
  · exact h name b hb

/-- Definitions that are loaded are held under their names. -/
theorem Named.addFiles {m m' : OrderedMap String α} {files : List String}
    (h : format.Named m) (hrun : (format.addFiles root m files).run.run d = (.ok m', d')) :
    format.Named m' := by
  induction files generalizing m d with
  | nil =>
    obtain ⟨rfl, -⟩ := DiskM.run_pure_eq_ok_iff.1 hrun
    exact h
  | cons file rest ih =>
    obtain ⟨text, d₁, -, hrest⟩ := DiskM.run_bind_eq_ok_iff.1 hrun
    refine ih ?_ hrest
    unfold addText
    split
    · exact h.insert _
    · exact h

/-- **Whatever a folder holds**, what is read from it is found under its own name. -/
theorem named_of_load {m : OrderedMap String α}
    (hrun : (format.load root).run.run d = (.ok m, d')) : format.Named m := by
  obtain ⟨names, d₁, -, hfiles⟩ := DiskM.run_bind_eq_ok_iff.1 hrun
  exact Named.addFiles (fun name a ha => by cases ha) hfiles

/-- A definition whose name is a plain file name, and that comes back from its text. -/
structure Storable (format : DefinitionFormat α) (a : α) : Prop where
  nonempty : format.nameOf a ≠ ""
  noSlash : '/' ∉ (format.nameOf a).toList
  decodes : format.decode? (format.encode a) = some a

/-- The text of a storable definition is read as that definition, if it is valid. -/
theorem Storable.valid?_encode {a : α} (h : format.Storable a) :
    format.valid? (format.encode a) = (some a).filter format.isValid := by
  rw [valid?, h.decodes]

/-- A text is read from the file of the folder that holds it. -/
theorem run_readText (hfolder : d.DirectoryAt (format.folderIn root) l) {file text : String}
    (hpart : Path.IsPart file) (hcan : Disk.CanName file)
    (hentry : d.entryAt? (l ++ [file]) = some (.file text.toUTF8)) :
    (Disk.ask (·.readText ((format.folderIn root).join (.ofText file)))).run.run d
      = (.ok text, d) := by
  refine DiskM.run_ask ?_
  rw [Path.join_ofText hpart]
  exact Disk.readText_child hfolder hcan hentry

/-- The definition files of a folder hold the definitions of a map, each under the name of
the definition. -/
structure Stores (format : DefinitionFormat α) (root : Path) (l : Location)
    (g : String → Option α) (d : Disk) : Prop where
  folder : d.DirectoryAt (format.folderIn root) l
  storable : ∀ name a, g name = some a → format.Storable a ∧ format.nameOf a = name
  files : ∀ name a, g name = some a → Disk.CanName (fileName name)
    ∧ d.entryAt? (l ++ [fileName name]) = some (.file (format.encode a).toUTF8)
  only : ∀ file, isDefinitionFile file = true → (d.entryAt? (l ++ [file])).isSome = true →
    ∃ name a, g name = some a ∧ file = fileName name

/-- A disk with the same definition files holds the same definitions. -/
theorem Stores.congr (h : format.Stores root l g d) (hkeeps : d.KeepsDirectories d')
    (hfiles : ∀ file, isDefinitionFile file = true →
      d'.entryAt? (l ++ [file]) = d.entryAt? (l ++ [file])) : format.Stores root l g d' where
  folder := h.folder.mono hkeeps
  storable := h.storable
  files name a ha := by
    have hname : name ≠ "" := by
      obtain ⟨hstorable, rfl⟩ := h.storable name a ha
      exact hstorable.nonempty
    rw [hfiles _ (isDefinitionFile_fileName hname)]
    exact h.files name a ha
  only file hfile hentry := h.only file hfile (hfiles file hfile ▸ hentry)

/-- A folder without definition files holds none. -/
theorem stores_none (hfolder : d.DirectoryAt (format.folderIn root) l)
    (hempty : ∀ file, d.entryAt? (l ++ [file]) = none) :
    format.Stores root l (fun _ => none) d where
  folder := hfolder
  storable _ _ ha := by cases ha
  files _ _ ha := by cases ha
  only file _ hentry := by simp [hempty] at hentry

namespace Stores

/-! ### Reading the folder -/

/-- What is read from definition files, one after another. -/
theorem addFiles (h : format.Stores root l g d) {files : List String}
    (hfiles : ∀ file ∈ files, ∃ name a, g name = some a ∧ file = fileName name)
    (held : OrderedMap String α) :
    ∃ held', (format.addFiles root held files).run.run d = (.ok held', d)
      ∧ ∀ name, held'.get? name = ((if fileName name ∈ files then g name else none).filter
        format.isValid).or (held.get? name) := by
  induction files generalizing held with
  | nil => exact ⟨held, rfl, by simp⟩
  | cons file rest ih =>
    obtain ⟨⟨name, a, ha, rfl⟩, hrest⟩ := List.forall_mem_cons.1 hfiles
    obtain ⟨hstorable, rfl⟩ := h.storable name a ha
    obtain ⟨hcan, hentry⟩ := h.files _ a ha
    have hread := run_readText h.folder (isPart_fileName hstorable.noSlash) hcan hentry
    obtain ⟨held', hrun, hget⟩ := ih hrest (format.addText held (format.encode a))
    refine ⟨held', ?_, fun name => ?_⟩
    · rw [DefinitionFormat.addFiles, DiskM.run_bind_of_ok hread]
      exact hrun
    · -- each file adds the definition it is named after, so the order of the files does not count
      have hadded : (format.addText held (format.encode a)).get? name
          = ((if name = format.nameOf a then some a else none).filter format.isValid).or
            (held.get? name) := by
        rw [addText, hstorable.valid?_encode]
        by_cases hvalid : format.isValid a = true
        · by_cases hname : name = format.nameOf a
          · subst hname
            simp [Option.filter_some, hvalid]
          · simp [Option.filter_some, hvalid, hname, OrderedMap.get?_insert_of_ne hname]
        · by_cases hname : name = format.nameOf a <;> simp [Option.filter_some, hvalid, hname]
      rw [hget, hadded]
      by_cases hname : name = format.nameOf a
      · subst hname
        by_cases hmem : fileName (format.nameOf a) ∈ rest <;> simp [ha, hmem, ← Option.or_assoc]
      · have hne : fileName name ≠ fileName (format.nameOf a) := fun heq =>
          hname (fileName_injective heq)
        simp [hname, hne]

/-- **Reading the folder** gives the valid definitions of its files. -/
theorem load (h : format.Stores root l g d) (hroot : (format.folderIn root).parts ≠ []) :
    ∃ held, (format.load root).run.run d = (.ok held, d)
      ∧ ∀ name, held.get? name = (g name).filter format.isValid := by
  obtain ⟨names, hnames, hmem⟩ := Disk.mem_namesIn h.folder hroot
  have hfiles : ∀ file ∈ (names.filter isDefinitionFile).mergeSort fun a b => decide (a ≤ b),
      ∃ name a, g name = some a ∧ file = fileName name := by
    intro file hfile
    obtain ⟨hname, hdefinition⟩ := List.mem_filter.1 ((List.mergeSort_perm _ _).mem_iff.1 hfile)
    exact h.only file hdefinition ((hmem file).1 hname)
  obtain ⟨held, hrun, hget⟩ := h.addFiles hfiles .empty
  refine ⟨held, ?_, fun name => ?_⟩
  · rw [DefinitionFormat.load, DiskM.run_bind_of_ok (DiskM.run_ask hnames)]
    exact hrun
  · rw [hget, OrderedMap.get?_empty, Option.or_none]
    cases ha : g name with
    | none => simp
    | some a =>
      obtain ⟨hstorable, rfl⟩ := h.storable name a ha
      have hfile : fileName (format.nameOf a) ∈ (names.filter isDefinitionFile).mergeSort
          fun a b => decide (a ≤ b) := by
        rw [(List.mergeSort_perm _ _).mem_iff, List.mem_filter, hmem, (h.files _ a ha).2]
        exact ⟨rfl, isDefinitionFile_fileName hstorable.nonempty⟩
      rw [if_pos hfile]

/-! ### Changing the folder -/

/-- What writing the file of a definition changes. -/
theorem replaced (h : format.Stores root l g d) {a : α} (ha : format.Storable a)
    {result : Except FileError Unit} (hrun : (format.writeFile root a).run.run d = (result, d')) :
    Disk.Replaced d d' l (fileName (format.nameOf a)) (format.encode a).toUTF8 result
      ∧ ∀ file, isDefinitionFile file = true → file ≠ fileName (format.nameOf a) →
        d'.entryAt? (l ++ [file]) = d.entryAt? (l ++ [file]) := by
  rw [DefinitionFormat.writeFile, fileOf_eq ha.noSlash] at hrun
  have hreplaced := Disk.replaced_of_run h.folder (fileName_ne_up _)
    (ne_temporaryName (isDefinitionFile_fileName ha.nonempty) d) hrun
  exact ⟨hreplaced, fun file hfile hne =>
    hreplaced.rest _ (by simpa using hne) (by simpa using ne_temporaryName hfile d)⟩

/-- Changing the file of one name changes the map under this name. -/
theorem update (h : format.Stores root l g d) (hkeeps : d.KeepsDirectories d') {name : String}
    (hrest : ∀ file, isDefinitionFile file = true → file ≠ fileName name →
      d'.entryAt? (l ++ [file]) = d.entryAt? (l ++ [file])) {new : Option α}
    (hnew : ∀ a, new = some a → (format.Storable a ∧ format.nameOf a = name)
      ∧ Disk.CanName (fileName name)
      ∧ d'.entryAt? (l ++ [fileName name]) = some (.file (format.encode a).toUTF8))
    (hnone : new = none → d'.entryAt? (l ++ [fileName name]) = none) :
    format.Stores root l (Function.update g name new) d' := by
  -- Only the file of the one name is new; every other file has another name, since a name can be
  -- read off its file.
  refine ⟨h.folder.mono hkeeps, fun other b hb => ?_, fun other b hb => ?_,
    fun file hfile hsome => ?_⟩
  · by_cases hname : other = name
    · rw [hname, Function.update_self] at hb
      exact hname ▸ (hnew b hb).1
    · rw [Function.update_of_ne hname] at hb
      exact h.storable other b hb
  · by_cases hname : other = name
    · rw [hname, Function.update_self] at hb
      exact hname ▸ (hnew b hb).2
    · rw [Function.update_of_ne hname] at hb
      obtain ⟨hstorable, rfl⟩ := h.storable other b hb
      rw [hrest _ (isDefinitionFile_fileName hstorable.nonempty)
        fun heq => hname (fileName_injective heq)]
      exact h.files _ b hb
  · by_cases hname : file = fileName name
    · cases new with
      | none => simp [hname, hnone rfl] at hsome
      | some a => exact ⟨name, a, Function.update_self _ _ _, hname⟩
    · rw [hrest file hfile hname] at hsome
      obtain ⟨other, b, hb, rfl⟩ := h.only file hfile hsome
      have hother : other ≠ name := fun heq => hname (congrArg fileName heq)
      exact ⟨other, b, by rwa [Function.update_of_ne hother], rfl⟩

/-- **Writing the file** of a definition stores it under its name. -/
theorem writeFile (h : format.Stores root l g d) {a : α} (ha : format.Storable a)
    (hrun : (format.writeFile root a).run.run d = (.ok (), d')) :
    format.Stores root l (Function.update g (format.nameOf a) (some a)) d' := by
  obtain ⟨hreplaced, hrest⟩ := h.replaced ha hrun
  refine h.update hreplaced.directories hrest (fun b hb => ?_) fun hb => by cases hb
  exact Option.some.inj hb ▸ ⟨⟨ha, rfl⟩, hreplaced.done rfl⟩

/-- A failed writing leaves the stored definitions as they were. -/
theorem writeFile_error (h : format.Stores root l g d) {a : α} (ha : format.Storable a)
    {e : FileError} (hrun : (format.writeFile root a).run.run d = (.error e, d')) :
    format.Stores root l g d' := by
  obtain ⟨hreplaced, hrest⟩ := h.replaced ha hrun
  refine h.congr hreplaced.directories fun file hfile => ?_
  by_cases hname : file = fileName (format.nameOf a)
  · exact hname ▸ hreplaced.failed e rfl
  · exact hrest file hfile hname

/-- **Removing the file** of a definition forgets it. -/
theorem removeFile (h : format.Stores root l g d) {a : α} {name : String} (ha : g name = some a) :
    ∃ d', d.remove (format.fileOf root name) = .ok d'
      ∧ format.Stores root l (Function.update g name none) d' := by
  obtain ⟨hstorable, rfl⟩ := h.storable name a ha
  obtain ⟨hcan, hentry⟩ := h.files _ a ha
  obtain ⟨d', hremove, hnone, hrest, hkeeps⟩ := Disk.remove_child h.folder hcan hentry
  refine ⟨d', by rwa [fileOf_eq hstorable.noSlash], h.update hkeeps (fun file _ hfile => ?_)
    (fun b hb => by cases hb) fun _ => hnone⟩
  exact hrest _ (by simpa using hfile)

/-- **Writing defaults** leaves files of definitions, as far as it came. -/
theorem seed (h : format.Stores root l g d) {defaults : List α}
    (hdefaults : ∀ a ∈ defaults, format.Storable a) {result : Except FileError Unit}
    (hrun : (format.seed root defaults).run.run d = (result, d')) :
    ∃ g', format.Stores root l g' d' := by
  induction defaults generalizing g d with
  | nil =>
    obtain ⟨-, rfl⟩ := Prod.mk.inj hrun
    exact ⟨g, h⟩
  | cons a rest ih =>
    obtain ⟨ha, hrest⟩ := List.forall_mem_cons.1 hdefaults
    rw [run_seed_cons] at hrun
    split at hrun
    · exact ih h hrest hrun
    · rcases hwrite : (format.writeFile root a).run.run d with ⟨e | u, d₁⟩
      · rw [DiskM.run_bind_of_error hwrite] at hrun
        obtain ⟨-, rfl⟩ := Prod.mk.inj hrun
        exact ⟨g, h.writeFile_error ha hwrite⟩
      · rw [DiskM.run_bind_of_ok hwrite] at hrun
        exact ih (h.writeFile ha hwrite) hrest hrun

end Stores

end DefinitionFormat
end Inventory
