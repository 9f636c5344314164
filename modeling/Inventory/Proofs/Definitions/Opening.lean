/-
# Opening a folder of any texts

`open` of a `SchemaContext` or a `ViewsContext`, with `seed_defaults`.

A directory may hold anything in the folder of definitions, under any names, as long as
the definition files are texts (`DefinitionFormat.Openable`). Opening the folder with
defaults whose names are plain file names succeeds.

| what | afterwards |
| --- | --- |
| the folder | is there |
| files that were there | as they were |
| defaults that had no file | have one |
| definitions in memory | the valid ones of the files, inserted in the order of the names of the files |

Every default has a file then, so opening the folder again writes nothing and reads the
same (`Definitions.opened_of_openable`). The folder is made and the defaults are written
before any file is read, whatever the files hold (`DefinitionFormat.Prepared.exists_seeded`).
-/

import Inventory.Proofs.Definitions.Mirror
import Inventory.Proofs.Definitions.Texts

namespace Inventory
namespace DefinitionFormat

variable {α : Type} {format : DefinitionFormat α} {root : Path} {l : Location} {d d' : Disk}
  {defaults : List α} {a : α}

/-! ### Writing defaults -/

/-- A definition whose name is a plain file name. -/
structure Plain (format : DefinitionFormat α) (a : α) : Prop where
  nonempty : format.nameOf a ≠ ""
  noSlash : '/' ∉ (format.nameOf a).toList
  canName : Disk.CanName (fileName (format.nameOf a))

instance (format : DefinitionFormat α) (a : α) : Decidable (format.Plain a) :=
  decidable_of_iff (format.nameOf a ≠ "" ∧ '/' ∉ (format.nameOf a).toList
      ∧ Disk.CanName (fileName (format.nameOf a)))
    ⟨fun h => ⟨h.1, h.2.1, h.2.2⟩, fun h => ⟨h.nonempty, h.noSlash, h.canName⟩⟩

/-- The file of the first default of a name. -/
def seeded? (format : DefinitionFormat α) (l : Location) (defaults : List α) (m : Location) :
    Option FileEntry :=
  (defaults.find? fun a => l ++ [fileName (format.nameOf a)] = m).map fun a =>
    .file (format.encode a).toUTF8

/-- What is seeded at a location is the first default whose file stands there. -/
theorem seeded?_cons (a : α) (rest : List α) (m : Location) :
    format.seeded? l (a :: rest) m
      = if m = l ++ [fileName (format.nameOf a)] then some (.file (format.encode a).toUTF8)
        else format.seeded? l rest m := by
  unfold seeded?
  rw [List.find?_cons]
  split <;> rename_i h
  · rw [if_pos (of_decide_eq_true h).symm]
    rfl
  · rw [if_neg fun heq => of_decide_eq_false h heq.symm]

theorem isSome_seeded? (h : a ∈ defaults) :
    (format.seeded? l defaults (l ++ [fileName (format.nameOf a)])).isSome = true := by
  rw [seeded?, Option.isSome_map, List.find?_isSome]
  exact ⟨a, h, decide_eq_true rfl⟩

/-- A default that has a file is not written. -/
theorem seed_cons_of_isSome (h : d.DirectoryAt (format.folderIn root) l) (ha : format.Plain a)
    (hfile : (d.entryAt? (l ++ [fileName (format.nameOf a)])).isSome = true) :
    (format.seed root (a :: defaults)).run.run d = (format.seed root defaults).run.run d := by
  rw [run_seed_cons, fileOf_eq ha.noSlash, Disk.holds_child h ha.canName, if_pos hfile]

/-- When all defaults have files, none is written. -/
theorem run_seed_of_isSome (h : d.DirectoryAt (format.folderIn root) l)
    (hdefaults : ∀ a ∈ defaults, format.Plain a)
    (hfiles : ∀ a ∈ defaults, (d.entryAt? (l ++ [fileName (format.nameOf a)])).isSome = true) :
    (format.seed root defaults).run.run d = (.ok (), d) := by
  induction defaults with
  | nil => rfl
  | cons a rest ih =>
    obtain ⟨ha, hrest⟩ := List.forall_mem_cons.1 hdefaults
    obtain ⟨hfile, hothers⟩ := List.forall_mem_cons.1 hfiles
    rw [seed_cons_of_isSome h ha hfile]
    exact ih hrest hothers

/-- **Step:** a default that has no file gets one. -/
theorem Orderly.seed_cons (h : format.Orderly root l d) (ha : format.Plain a)
    (hfresh : d.FreshIn l (defaults.length + 1)) :
    ∃ d₁, (format.seed root (a :: defaults)).run.run d = (format.seed root defaults).run.run d₁
      ∧ format.Orderly root l d₁ ∧ d₁.FreshIn l defaults.length
      ∧ ∀ m, d₁.entryAt? m = (d.entryAt? m).or (if m = l ++ [fileName (format.nameOf a)] then
        some (.file (format.encode a).toUTF8) else none) := by
  have hfile := isDefinitionFile_fileName ha.nonempty
  cases hentry : d.entryAt? (l ++ [fileName (format.nameOf a)]) with
  | some e =>
    -- a file that is there is not written, whatever it holds
    refine ⟨d, seed_cons_of_isSome h.folder ha (by rw [hentry]; rfl), h,
      fun i hi => hfresh i (Nat.lt_succ_of_lt hi), fun m => ?_⟩
    split
    · rename_i hm
      rw [hm, hentry, Option.some_or]
    · rw [Option.or_none]
  | none =>
    -- one of the names for temporary files that are still free is used up
    obtain ⟨hcan, hvacant⟩ := hfresh 0 (Nat.succ_pos _)
    have hnone : d.entryAt? (l ++ [d.temporaryName]) = none := hvacant
    have htemporary : d.entryAt? (l ++ [d.temporaryName]) ≠ some .directory := fun heq => by
      rw [hnone] at heq
      cases heq
    have hwrite := (h.run_writeFile_eq_ok_iff ha.nonempty ha.noSlash).2
      ⟨⟨hcan, htemporary⟩, ha.canName, rfl⟩
    refine ⟨d.replaced l (fileName (format.nameOf a)) (format.encode a).toUTF8, ?_,
      h.replaced hfile (isPart_fileName ha.noSlash) ha.canName htemporary _,
      hfresh.replaced (fun i => ne_temporaryName hfile _) _, fun m => ?_⟩
    · have hholds : d.holds ((format.folderIn root).child (fileName (format.nameOf a))) = false := by
        rw [Disk.holds_child h.folder ha.canName, hentry]
        rfl
      rw [run_seed_cons, fileOf_eq ha.noSlash, hholds, DiskM.run_bind_of_ok hwrite]
      rfl
    · rw [Disk.entryAt?_replaced]
      split
      · rename_i hm
        rw [hm, hentry, Option.none_or]
      · rw [Option.or_none]
        split
        · rename_i hm
          rw [hm, hnone]
        · rfl

/-- **Run:** writing defaults succeeds and adds the files that are missing. -/
theorem Orderly.seed (h : format.Orderly root l d) (hdefaults : ∀ a ∈ defaults, format.Plain a)
    (hfresh : d.FreshIn l defaults.length) :
    ∃ d', (format.seed root defaults).run.run d = (.ok (), d') ∧ format.Orderly root l d'
      ∧ ∀ m, d'.entryAt? m = (d.entryAt? m).or (format.seeded? l defaults m) := by
  induction defaults generalizing d with
  | nil => exact ⟨d, rfl, h, fun m => (Option.or_none).symm⟩
  | cons a rest ih =>
    obtain ⟨ha, hrest⟩ := List.forall_mem_cons.1 hdefaults
    obtain ⟨d₁, hstep, horderly, hfresh', hentries⟩ := h.seed_cons ha hfresh
    obtain ⟨d', hrun, horderly', hentries'⟩ := ih horderly hrest hfresh'
    refine ⟨d', hstep.trans hrun, horderly', fun m => ?_⟩
    rw [hentries', hentries, Option.or_assoc, seeded?_cons]
    split
    · rw [Option.some_or]
    · rw [Option.none_or]

/-! ### Opening -/

/-- A folder that is there is not made again. -/
theorem Orderly.createDirectories_eq (h : format.Orderly root l d) (hformat : format.Placed) :
    d.createDirectories (format.folderIn root) = .ok d := by
  have hfolder := h.folder
  rw [hformat.folderIn_eq] at hfolder ⊢
  exact Disk.createDirectories_of_directoryAt hfolder

/-- Opening a folder of texts with defaults that all have files changes nothing and finds
what its files define. -/
theorem Legible.openAt_of_isSome (h : format.Legible root l d) (hformat : format.Placed)
    (hdefaults : ∀ a ∈ defaults, format.Plain a)
    (hfiles : ∀ a ∈ defaults, (d.entryAt? (l ++ [fileName (format.nameOf a)])).isSome = true)
    {ε : Type} (report reportWriting : FileError → ε) :
    ∃ files, d.Holds l files
      ∧ (Definitions.openAt format report reportWriting root defaults).run.run d
        = (.ok ⟨root, format.collected files⟩, d) := by
  obtain ⟨files, hfiles', hload⟩ := h.load (Definitions.parts_folderIn_ne_nil hformat root)
  exact ⟨files, hfiles', Definitions.openAt_eq_ok_iff.2 ⟨d, d, _,
    h.orderly.createDirectories_eq hformat, run_seed_of_isSome h.folder hdefaults hfiles, hload, rfl⟩⟩

/-- Opening a folder in which only one thing is defined finds that and nothing else. -/
theorem Legible.openAt_of_forall_eq (h : format.Legible root l d) (hformat : format.Placed)
    (hdefaults : ∀ a ∈ defaults, format.Plain a)
    (hfiles : ∀ a ∈ defaults, (d.entryAt? (l ++ [fileName (format.nameOf a)])).isSome = true)
    {file : String} (ha : format.Defines d l file a)
    (honly : ∀ file b, format.Defines d l file b → b = a)
    {ε : Type} (report reportWriting : FileError → ε) :
    ∃ byName, (Definitions.openAt format report reportWriting root defaults).run.run d
        = (.ok ⟨root, byName⟩, d)
      ∧ byName.get? (format.nameOf a) = some a ∧ ∀ b ∈ byName.values, b = a := by
  obtain ⟨files, hholds, hopen⟩ := h.openAt_of_isSome hformat hdefaults hfiles report reportWriting
  obtain ⟨last, b, hlast, -⟩ := exists_definesLast hholds ha
  obtain rfl := honly last b hlast.defines
  refine ⟨_, hopen, (get?_collected_eq_some_iff hholds).2 ⟨rfl, last, hlast⟩, fun c hc => ?_⟩
  obtain ⟨file', hfile'⟩ := exists_of_mem_values_collected hholds hc
  exact honly file' c hfile'.defines

/-- A directory in which a folder of definitions can be opened with defaults: no file is in
the place of the folder, the definition files are texts, the names of the defaults are plain
file names, and the temporary names to come were not used. -/
structure Openable (format : DefinitionFormat α) (root : Path) (l : Location) (d : Disk)
    (defaults : List α) : Prop where
  proper : d.Proper
  directory : d.DirectoryAt root l
  noFile : ∀ content, d.entryAt? (l ++ [format.folder]) ≠ some (.file content)
  texts : ∀ file e, isDefinitionFile file = true →
    d.entryAt? (l ++ [format.folder] ++ [file]) = some e → ∃ text : String, e = .file text.toUTF8
  plain : ∀ a ∈ defaults, format.Plain a
  fresh : d.FreshIn (l ++ [format.folder]) defaults.length

/-- What opening a folder of definitions with defaults comes to. -/
structure Opened (format : DefinitionFormat α) (root : Path) (l : Location) (defaults : List α)
    (d d' : Disk) (held : Definitions α) : Prop where
  root_eq : held.root = root
  kept : ∀ m e, d.entryAt? m = some e → d'.entryAt? m = some e
  added : ∀ m, d.entryAt? m = none → d'.entryAt? m =
    if m = l ++ [format.folder] then some .directory
    else format.seeded? (l ++ [format.folder]) defaults m
  read : ∃ files, d'.Holds (l ++ [format.folder]) files ∧ held.byName = format.collected files
  legible : format.Legible root (l ++ [format.folder]) d'

/-- A directory in which the folder can be made and the defaults can be written, whatever the
definition files hold: no file is in the place of the folder, and no directory in that of a
definition file. -/
structure Prepared (format : DefinitionFormat α) (root : Path) (l : Location) (d : Disk)
    (defaults : List α) : Prop where
  proper : d.Proper
  directory : d.DirectoryAt root l
  noFile : ∀ content, d.entryAt? (l ++ [format.folder]) ≠ some (.file content)
  noDirectory : ∀ file, isDefinitionFile file = true →
    d.entryAt? (l ++ [format.folder] ++ [file]) ≠ some .directory
  plain : ∀ a ∈ defaults, format.Plain a
  fresh : d.FreshIn (l ++ [format.folder]) defaults.length

/-- A folder of texts is a folder of bytes. -/
theorem Openable.prepared (h : format.Openable root l d defaults) :
    format.Prepared root l d defaults where
  proper := h.proper
  directory := h.directory
  noFile := h.noFile
  noDirectory file hfile hentry := by
    obtain ⟨text, htext⟩ := h.texts file _ hfile hentry
    cases htext
  plain := h.plain
  fresh := h.fresh

/-- The disk on which the files of a folder are read: the folder is made, and each default has
a file. -/
structure Seeded (format : DefinitionFormat α) (root : Path) (l : Location) (defaults : List α)
    (d d' : Disk) : Prop where
  kept : ∀ m e, d.entryAt? m = some e → d'.entryAt? m = some e
  added : ∀ m, d.entryAt? m = none → d'.entryAt? m =
    if m = l ++ [format.folder] then some .directory
    else format.seeded? (l ++ [format.folder]) defaults m
  orderly : format.Orderly root (l ++ [format.folder]) d'

/-- The folder is made and the defaults are written, whatever the files hold. -/
theorem Prepared.exists_seeded (h : format.Prepared root l d defaults) (hformat : format.Placed) :
    ∃ d₁ d', d.createDirectories (format.folderIn root) = .ok d₁
      ∧ (format.seed root defaults).run.run d₁ = (.ok (), d')
      ∧ format.Seeded root l defaults d d' := by
  obtain ⟨d₁, hcreate, hproper, hfolder, htemporaries, hentries⟩ :=
    Disk.exists_createDirectories_child h.proper h.directory hformat.isPart hformat.canName
      h.noFile
  rw [← hformat.folderIn_eq] at hcreate hfolder
  have hbelow (part : String) : d₁.entryAt? (l ++ [format.folder] ++ [part])
      = d.entryAt? (l ++ [format.folder] ++ [part]) := by
    rw [hentries, if_neg (by simp)]
  have horderly : format.Orderly root (l ++ [format.folder]) d₁ :=
    ⟨hproper, hfolder, fun file hfile => hbelow file ▸ h.noDirectory file hfile⟩
  have hfresh : d₁.FreshIn (l ++ [format.folder]) defaults.length := fun i hi => by
    have hname : d₁.temporaryAfter i = d.temporaryAfter i := by
      rw [Disk.temporaryAfter, Disk.temporaryAfter, htemporaries]
      rfl
    rw [hname, hbelow]
    exact h.fresh i hi
  obtain ⟨d', hseed, horderly', hentries'⟩ := horderly.seed h.plain hfresh
  refine ⟨d₁, d', hcreate, hseed, fun m e he => ?_, fun m hm => ?_, horderly'⟩
  · rw [hentries', hentries]
    split
    · rename_i hm
      subst hm
      cases e with
      | directory => rw [Option.some_or]
      | file content => exact absurd he (h.noFile content)
    · rw [he, Option.some_or]
  · rw [hentries', hentries]
    split
    · rw [Option.some_or]
    · rw [hm, Option.none_or]

/-- Every default has a file then. -/
theorem Seeded.isSome_of_mem (h : format.Seeded root l defaults d d') (ha : a ∈ defaults) :
    (d'.entryAt? (l ++ [format.folder] ++ [fileName (format.nameOf a)])).isSome = true := by
  cases hentry : d.entryAt? (l ++ [format.folder] ++ [fileName (format.nameOf a)]) with
  | some e => rw [h.kept _ e hentry, Option.isSome_some]
  | none => rw [h.added _ hentry, if_neg (by simp), isSome_seeded? ha]

/-- What was not there before is the text of a default. -/
theorem Seeded.legible (h : format.Seeded root l defaults d d')
    (htexts : ∀ file e, isDefinitionFile file = true →
      d.entryAt? (l ++ [format.folder] ++ [file]) = some e → ∃ text : String, e = .file text.toUTF8) :
    format.Legible root (l ++ [format.folder]) d' := by
  refine ⟨h.orderly.proper, h.orderly.folder, fun file e hfile he => ?_⟩
  cases hentry : d.entryAt? (l ++ [format.folder] ++ [file]) with
  | some e' =>
    obtain rfl := Option.some.inj ((h.kept _ e' hentry).symm.trans he)
    exact htexts file e' hfile hentry
  | none =>
    rw [h.added _ hentry, if_neg (by simp), seeded?, Option.map_eq_some_iff] at he
    obtain ⟨a, -, rfl⟩ := he
    exact ⟨_, rfl⟩

/-- What opening a folder does to the disk, and what it finds. -/
theorem Openable.exists_opened (h : format.Openable root l d defaults) (hformat : format.Placed)
    {ε : Type} (report reportWriting : FileError → ε) :
    ∃ held d', (Definitions.openAt format report reportWriting root defaults).run.run d
        = (.ok held, d')
      ∧ format.Opened root l defaults d d' held
      ∧ (Definitions.openAt format report reportWriting root defaults).run.run d'
        = (.ok held, d') := by
  obtain ⟨d₁, d', hcreate, hseed, hseeded⟩ := h.prepared.exists_seeded hformat
  have hlegible := hseeded.legible h.texts
  obtain ⟨files, hfiles, hload⟩ := hlegible.load (Definitions.parts_folderIn_ne_nil hformat root)
  refine ⟨⟨root, format.collected files⟩, d',
    Definitions.openAt_eq_ok_iff.2 ⟨d₁, d', _, hcreate, hseed, hload, rfl⟩,
    ⟨rfl, hseeded.kept, hseeded.added, ⟨files, hfiles, rfl⟩, hlegible⟩, ?_⟩
  exact Definitions.openAt_eq_ok_iff.2 ⟨d', d', _, hseeded.orderly.createDirectories_eq hformat,
    run_seed_of_isSome hseeded.orderly.folder h.plain fun _ => hseeded.isSome_of_mem, hload, rfl⟩

/-- Opening a folder of texts has the results that opening any folder has. -/
theorem Openable.opened_of_run (h : format.Openable root l d defaults) (hformat : format.Placed)
    {ε : Type} {report reportWriting : FileError → ε} {held : Definitions α}
    (hrun : (Definitions.openAt format report reportWriting root defaults).run.run d
      = (.ok held, d')) : format.Opened root l defaults d d' held := by
  obtain ⟨held₁, d₁, hrun₁, hopened, -⟩ := h.exists_opened hformat report reportWriting
  obtain ⟨hheld, rfl⟩ := Prod.mk.inj (hrun₁.symm.trans hrun)
  exact Except.ok.inj hheld ▸ hopened

end DefinitionFormat

/-- **Opening a folder.** Take any directory in which a folder of schemas can be opened with
some defaults. Opening it succeeds; what was there is as it was; the folder and the files of
the defaults that had none are added, and nothing else; and the schemas in memory are the
valid ones of the files, inserted in the order of the names of the files. Opening it again
with the same defaults changes nothing and finds the same in the same order. The same holds
for views, of which every one is valid. -/
theorem Definitions.opened_of_openable {root : Path} {l : Location} {d : Disk} :
    (∀ defaults, Schema.format.Openable root l d defaults → ∃ held d',
        (SchemaFolder.openAt root defaults).run.run d = (.ok held, d')
          ∧ Schema.format.Opened root l defaults d d' held
          ∧ (SchemaFolder.openAt root defaults).run.run d' = (.ok held, d'))
      ∧ ∀ defaults, View.format.Openable root l d defaults → ∃ held d',
        (ViewFolder.openAt root defaults).run.run d = (.ok held, d')
          ∧ View.format.Opened root l defaults d d' held
          ∧ (ViewFolder.openAt root defaults).run.run d' = (.ok held, d') :=
  ⟨fun _ h => h.exists_opened SchemaFolder.keep.placed SchemaError.file SchemaError.file,
    fun _ h => h.exists_opened ViewFolder.keep.placed ViewError.file ViewFolder.writingError⟩

/-- Volumes with one fieldset. -/
def volumeView : View where
  entityType := "volume"
  fieldsets := [{ name := "main", title := "Main", fields := ["name"] }]

/-- A disk with definition files that are not called like what they define, and notes. -/
def customisedRegistry : Disk where
  entries := ⟨[(["registry"], .directory),
    (["registry", "schemas"], .directory),
    (["registry", "schemas", "zz.yaml"], .file volumeSchema.toYaml.toUTF8),
    (["registry", "schemas", "notes.txt"], .file "volumes only".toUTF8),
    (["registry", "views"], .directory),
    (["registry", "views", "zz.yaml"], .file volumeView.toYaml.toUTF8)]⟩

theorem proper_customisedRegistry : customisedRegistry.Proper :=
  Disk.proper_of_keys (by decide) (by decide)

theorem directoryAt_customisedRegistry :
    customisedRegistry.DirectoryAt (.ofText "registry") ["registry"] :=
  ⟨by decide, by decide, rfl⟩

theorem texts_customisedRegistry {folder file : String} {e : FileEntry}
    (h : customisedRegistry.entryAt? (["registry"] ++ [folder] ++ [file]) = some e) :
    ∃ text : String, e = .file text.toUTF8 := by
  rw [Disk.entryAt?_of_ne_nil (Disk.concat_ne_nil _ _)] at h
  have hmem := OrderedMap.mem_entries_of_get? h
  simp only [customisedRegistry, List.mem_cons, Prod.mk.injEq] at hmem
  rcases hmem with h | h | ⟨-, rfl⟩ | ⟨-, rfl⟩ | h | ⟨-, rfl⟩ | h
  · simp at h
  · simp at h
  · exact ⟨_, rfl⟩
  · exact ⟨_, rfl⟩
  · simp at h
  · exact ⟨_, rfl⟩
  · cases h

/-- A folder of `customisedRegistry` is opened with a default that one of its files defines. -/
theorem DefinitionFormat.openable_customisedRegistry {α : Type} {format : DefinitionFormat α}
    {a : α} (hfolder : customisedRegistry.entryAt? ["registry", format.folder] = some .directory)
    (hname : format.nameOf a = "volume")
    (hfresh : (customisedRegistry.entryAt? ["registry", format.folder, ".tmp_0"]) = none) :
    format.Openable (.ofText "registry") ["registry"] customisedRegistry [a] where
  proper := proper_customisedRegistry
  directory := directoryAt_customisedRegistry
  noFile content h := by cases hfolder.symm.trans h
  texts _ _ _ h := texts_customisedRegistry h
  plain := List.forall_mem_singleton.2
    ⟨by rw [hname]; decide, by rw [hname]; decide, by rw [hname]; decide⟩
  fresh i hi := by
    obtain rfl : i = 0 := Nat.lt_one_iff.1 hi
    exact ⟨by decide, hfresh⟩

/-- Opening the folders of `customisedRegistry` with a default of a name that another file
defines as well. -/
theorem Definitions.opened_of_openable_customised :
    (∃ held d', (SchemaFolder.openAt (.ofText "registry") [volumeSchema]).run.run
          customisedRegistry = (.ok held, d')
        ∧ Schema.format.Opened (.ofText "registry") ["registry"] [volumeSchema]
          customisedRegistry d' held
        ∧ (SchemaFolder.openAt (.ofText "registry") [volumeSchema]).run.run d' = (.ok held, d'))
      ∧ ∃ held d', (ViewFolder.openAt (.ofText "registry") [volumeView]).run.run
          customisedRegistry = (.ok held, d')
        ∧ View.format.Opened (.ofText "registry") ["registry"] [volumeView]
          customisedRegistry d' held
        ∧ (ViewFolder.openAt (.ofText "registry") [volumeView]).run.run d' = (.ok held, d') :=
  ⟨Definitions.opened_of_openable.1 _ (DefinitionFormat.openable_customisedRegistry rfl rfl rfl),
    Definitions.opened_of_openable.2 _ (DefinitionFormat.openable_customisedRegistry rfl rfl rfl)⟩

end Inventory
