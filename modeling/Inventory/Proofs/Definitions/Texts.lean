/-
# Reading a folder of any texts

`load_schemas` and `load_views`.

The definition files of a folder may be called anything and hold any texts
(`DefinitionFormat.Legible`). Reading the folder goes through them in the order of their
names (`DefinitionFormat.Legible.load`).

| a file that holds | adds |
| --- | --- |
| a valid definition of a new name | it, at the end |
| a valid definition of a name that was added before | it, in the place of the earlier one |
| anything else | nothing |

So the last file that defines a name counts (`DefinitionFormat.get?_collected_eq_some_iff`),
and what it is called does not matter but for the order.
-/

import Inventory.Proofs.Definitions.Stored
import Inventory.Proofs.Files.Proper

namespace Inventory

/-- The definition files of a directory with their texts, in the order of their names. -/
structure Disk.Holds (d : Disk) (l : Location) (files : List (String × String)) : Prop where
  sorted : files.Pairwise fun f f' => f.1 < f'.1
  mem_iff : ∀ file text, (file, text) ∈ files ↔
    DefinitionFormat.isDefinitionFile file = true
      ∧ d.entryAt? (l ++ [file]) = some (.file text.toUTF8)

namespace DefinitionFormat

variable {α : Type} {format : DefinitionFormat α} {root : Path} {l : Location} {d d' : Disk}
  {files : List (String × String)} {name : String} {a : α}

/-- What files with these texts define: the valid definitions, inserted one after another. -/
def collected (format : DefinitionFormat α) (files : List (String × String)) :
    OrderedMap String α :=
  .ofList (files.filterMap fun f => (format.valid? f.2).map fun a => (format.nameOf a, a))

/-- The last text is added to what the texts before it come to. -/
theorem collected_append_singleton (files : List (String × String)) (f : String × String) :
    format.collected (files ++ [f]) = format.addText (format.collected files) f.2 := by
  simp only [collected, addText, OrderedMap.ofList, List.filterMap_append, OrderedMap.merge_append]
  cases h : format.valid? f.2 <;> simp [h, OrderedMap.merge]

/-- A folder whose definition files are texts. -/
structure Legible (format : DefinitionFormat α) (root : Path) (l : Location) (d : Disk) :
    Prop where
  proper : d.Proper
  folder : d.DirectoryAt (format.folderIn root) l
  texts : ∀ file e, isDefinitionFile file = true → d.entryAt? (l ++ [file]) = some e →
    ∃ text : String, e = .file text.toUTF8

/-- A folder in which no directory is called like a definition file. -/
structure Orderly (format : DefinitionFormat α) (root : Path) (l : Location) (d : Disk) :
    Prop where
  proper : d.Proper
  folder : d.DirectoryAt (format.folderIn root) l
  noDirectory : ∀ file, isDefinitionFile file = true →
    d.entryAt? (l ++ [file]) ≠ some .directory

/-- A legible folder has its files in order. -/
theorem Legible.orderly (h : format.Legible root l d) : format.Orderly root l d where
  proper := h.proper
  folder := h.folder
  noDirectory file hfile hentry := by
    obtain ⟨text, htext⟩ := h.texts file _ hfile hentry
    cases htext

/-! ### Reading -/

/-- A text is read from the file that holds it. -/
theorem Orderly.run_readText (h : format.Orderly root l d) {file text : String}
    (hentry : d.entryAt? (l ++ [file]) = some (.file text.toUTF8)) :
    (Disk.ask (·.readText ((format.folderIn root).join (.ofText file)))).run.run d
      = (.ok text, d) := by
  obtain ⟨hpart, hcan⟩ := h.proper.named l file (by rw [hentry]; rfl)
  exact DefinitionFormat.run_readText h.folder hpart hcan hentry

/-- A file that does not hold a text cannot be read. -/
theorem Orderly.run_readText_of_not_isValidUTF8 (h : format.Orderly root l d) {file : String}
    {content : ByteArray} (hentry : d.entryAt? (l ++ [file]) = some (.file content))
    (hcontent : ¬ content.IsValidUTF8) :
    (Disk.ask (·.readText ((format.folderIn root).join (.ofText file)))).run.run d
      = (.error .invalidUtf8, d) := by
  obtain ⟨hpart, hcan⟩ := h.proper.named l file (by rw [hentry]; rfl)
  refine DiskM.run_ask_of_error ?_
  rw [Path.join_ofText hpart]
  exact Disk.readText_child_of_not_isValidUTF8 h.folder hcan hentry hcontent

/-- Reading files one after another adds what their texts define. -/
theorem Legible.addFiles (h : format.Legible root l d) (before : List (String × String))
    (hfiles : ∀ f ∈ files, d.entryAt? (l ++ [f.1]) = some (.file f.2.toUTF8)) :
    (format.addFiles root (format.collected before) (files.map Prod.fst)).run.run d
      = (.ok (format.collected (before ++ files)), d) := by
  induction files generalizing before with
  | nil =>
    rw [List.append_nil]
    rfl
  | cons f rest ih =>
    obtain ⟨hentry, hrest⟩ := List.forall_mem_cons.1 hfiles
    rw [List.map_cons, DefinitionFormat.addFiles,
      DiskM.run_bind_of_ok (h.orderly.run_readText hentry), ← collected_append_singleton,
      ih (before ++ [f]) hrest, List.append_assoc]
    rfl

/-- The definition files of the folder are listed in the order of their names. -/
theorem Orderly.exists_listed (h : format.Orderly root l d)
    (hroot : (format.folderIn root).parts ≠ []) :
    ∃ names listed, d.namesIn (format.folderIn root) = .ok names
      ∧ (names.filter isDefinitionFile).mergeSort (fun a b => decide (a ≤ b)) = listed
      ∧ listed.Pairwise (· < ·)
      ∧ ∀ file, file ∈ listed ↔ isDefinitionFile file = true
        ∧ ∃ content, d.entryAt? (l ++ [file]) = some (.file content) := by
  obtain ⟨names, hnames, hmem⟩ := Disk.mem_namesIn h.folder hroot
  refine ⟨names, _, hnames, rfl,
    pairwise_lt_mergeSort ((Disk.nodup_namesIn h.proper.nodup hnames).filter _), fun file => ?_⟩
  rw [(List.mergeSort_perm _ _).mem_iff, List.mem_filter, hmem, and_comm]
  refine and_congr_right fun hfile => ⟨fun hsome => ?_, fun ⟨content, hentry⟩ => by rw [hentry]; rfl⟩
  obtain ⟨e, he⟩ := Option.isSome_iff_exists.1 hsome
  cases e with
  | directory => exact absurd he (h.noDirectory file hfile)
  | file content => exact ⟨content, he⟩

/-- The definition files of the folder have texts, and are listed in the order of their
names. -/
theorem Legible.exists_holds (h : format.Legible root l d)
    (hroot : (format.folderIn root).parts ≠ []) :
    ∃ names files, d.namesIn (format.folderIn root) = .ok names ∧ d.Holds l files
      ∧ (names.filter isDefinitionFile).mergeSort (fun a b => decide (a ≤ b))
        = files.map Prod.fst := by
  obtain ⟨names, listed, hnames, hlisted, hsorted, hmem⟩ := h.orderly.exists_listed hroot
  have htexts : ∀ file, ∃ text : String, file ∈ listed →
      d.entryAt? (l ++ [file]) = some (.file text.toUTF8) := fun file => by
    by_cases hfile : file ∈ listed
    · obtain ⟨hdefinition, content, hentry⟩ := (hmem file).1 hfile
      obtain ⟨text, htext⟩ := h.texts file _ hdefinition hentry
      exact ⟨text, fun _ => htext ▸ hentry⟩
    · exact ⟨"", fun hf => absurd hf hfile⟩
  choose text htext using htexts
  refine ⟨names, listed.map fun file => (file, text file), hnames,
    ⟨List.pairwise_map.2 hsorted, fun file t => ?_⟩, ?_⟩
  · rw [List.mem_map]
    constructor
    · rintro ⟨file', hfile', heq⟩
      obtain ⟨rfl, rfl⟩ := Prod.mk.inj heq
      exact ⟨((hmem _).1 hfile').1, htext _ hfile'⟩
    · rintro ⟨hdefinition, hentry⟩
      have hfile : file ∈ listed := (hmem file).2 ⟨hdefinition, _, hentry⟩
      have heq : (text file).toUTF8 = t.toUTF8 :=
        FileEntry.file.inj (Option.some.inj ((htext file hfile).symm.trans hentry))
      exact ⟨file, hfile, congrArg (Prod.mk file) (String.toByteArray_inj.1 heq)⟩
  · rw [hlisted, List.map_map]
    exact (List.map_id listed).symm

/-- **Reading the folder** gives what its files define, in the order of their names. -/
theorem Legible.load (h : format.Legible root l d) (hroot : (format.folderIn root).parts ≠ []) :
    ∃ files, d.Holds l files
      ∧ (format.load root).run.run d = (.ok (format.collected files), d) := by
  obtain ⟨names, files, hnames, hfiles, hsorted⟩ := h.exists_holds hroot
  refine ⟨files, hfiles, ?_⟩
  rw [DefinitionFormat.load, DiskM.run_bind_of_ok (DiskM.run_ask hnames), hsorted]
  exact h.addFiles [] fun f hf => ((hfiles.mem_iff f.1 f.2).1 hf).2

/-! ### Writing -/

/-- The folder stays orderly when a definition file is replaced. -/
theorem Orderly.replaced (h : format.Orderly root l d) {file : String}
    (hfile : isDefinitionFile file = true) (hpart : Path.IsPart file) (hcan : Disk.CanName file)
    (htemporary : d.entryAt? (l ++ [d.temporaryName]) ≠ some .directory) (content : ByteArray) :
    format.Orderly root l (d.replaced l file content) where
  proper := h.proper.replaced hpart hcan _
  folder := h.folder.mono (Disk.keepsDirectories_replaced htemporary (h.noDirectory file hfile) _)
  noDirectory other hother hentry := by
    rw [Disk.entryAt?_replaced] at hentry
    split at hentry
    · cases hentry
    · split at hentry
      · cases hentry
      · exact h.noDirectory other hother hentry

/-- A folder of texts is one after a definition file was replaced by a text. -/
theorem Legible.replaced (h : format.Legible root l d) {file : String}
    (hfile : isDefinitionFile file = true) (hpart : Path.IsPart file) (hcan : Disk.CanName file)
    (htemporary : d.entryAt? (l ++ [d.temporaryName]) ≠ some .directory) (text : String) :
    format.Legible root l (d.replaced l file text.toUTF8) := by
  have horderly := h.orderly.replaced hfile hpart hcan htemporary text.toUTF8
  refine ⟨horderly.proper, horderly.folder, fun other e hother hentry => ?_⟩
  rw [Disk.entryAt?_replaced] at hentry
  split at hentry
  · exact ⟨text, (Option.some.inj hentry).symm⟩
  · split at hentry
    · cases hentry
    · exact h.texts other e hother hentry

/-- **Writing the file** of a definition succeeds exactly when the temporary name and its
own can be given to files of the folder. -/
theorem Orderly.run_writeFile_eq_ok_iff (h : format.Orderly root l d)
    (hname : format.nameOf a ≠ "") (hslash : '/' ∉ (format.nameOf a).toList) :
    (format.writeFile root a).run.run d = (.ok (), d') ↔
      (Disk.CanName d.temporaryName ∧ d.entryAt? (l ++ [d.temporaryName]) ≠ some .directory)
        ∧ Disk.CanName (fileName (format.nameOf a))
        ∧ d' = d.replaced l (fileName (format.nameOf a)) (format.encode a).toUTF8 := by
  have hfile := isDefinitionFile_fileName hname
  have hne := h.noDirectory _ hfile
  rw [DefinitionFormat.writeFile, fileOf_eq hslash,
    Disk.run_writeAtomically_eq_ok_iff h.folder (fileName_ne_up _) (ne_temporaryName hfile d)]
  tauto

/-! ### What is defined under a name -/

/-- A definition file that defines something. -/
def Defines (format : DefinitionFormat α) (d : Disk) (l : Location) (file : String) (a : α) :
    Prop :=
  isDefinitionFile file = true
    ∧ ∃ text : String, d.entryAt? (l ++ [file]) = some (.file text.toUTF8)
      ∧ format.valid? text = some a

/-- The last of the definition files that define a name. -/
structure DefinesLast (format : DefinitionFormat α) (d : Disk) (l : Location) (file : String)
    (a : α) : Prop where
  defines : format.Defines d l file a
  last : ∀ other b, format.Defines d l other b → format.nameOf b = format.nameOf a → other ≤ file

/-- A file defines what its text is read as. -/
theorem defines_iff (h : d.Holds l files) {file : String} :
    format.Defines d l file a ↔ ∃ text, (file, text) ∈ files ∧ format.valid? text = some a := by
  simp only [Defines, h.mem_iff]
  tauto

/-- A text adds the definition that it is read as, and replaces one of that name. -/
theorem get?_addText (held : OrderedMap String α) (text : String) (name : String) :
    (format.addText held text).get? name
      = ((format.valid? text).filter fun a => format.nameOf a = name).or (held.get? name) := by
  unfold addText
  cases format.valid? text with
  | none => rfl
  | some a =>
    rw [OrderedMap.get?_insert, Option.filter_some]
    by_cases h : format.nameOf a = name
    · simp [h]
    · simp [h, Ne.symm h]

/-- In a list of files in order, the last one that defines a name counts. -/
theorem get?_collected (h : files.Pairwise fun f f' => f.1 < f'.1) :
    (format.collected files).get? name = some a ↔
      ∃ f ∈ files, format.valid? f.2 = some a ∧ format.nameOf a = name
        ∧ ∀ f' ∈ files, ∀ b, format.valid? f'.2 = some b → format.nameOf b = name →
          f'.1 ≤ f.1 := by
  induction files using List.reverseRecOn with
  | nil => simp [collected, OrderedMap.ofList, OrderedMap.merge]
  | append_singleton before f₁ ih =>
    obtain ⟨hbefore, -, hcross⟩ := List.pairwise_append.1 h
    have hlt : ∀ f ∈ before, f.1 < f₁.1 := fun f hf => hcross f hf f₁ List.mem_cons_self
    rw [collected_append_singleton, get?_addText]
    -- The files come in the order of their names, so the last one decides where it defines the
    -- name, and otherwise nothing changes.
    by_cases hlast : ∃ b, format.valid? f₁.2 = some b ∧ format.nameOf b = name
    · obtain ⟨b, hvalid, hname⟩ := hlast
      have hfilter : (format.valid? f₁.2).filter (fun a => format.nameOf a = name) = some b := by
        rw [hvalid, Option.filter_some, if_pos (decide_eq_true hname)]
      rw [hfilter, Option.some_or, Option.some.injEq]
      constructor
      · rintro rfl
        refine ⟨f₁, List.mem_append_right _ List.mem_cons_self, hvalid, hname,
          fun f' hf' _ _ _ => ?_⟩
        rcases List.mem_append.1 hf' with hf' | hf'
        · exact Std.le_of_lt (hlt f' hf')
        · exact List.mem_singleton.1 hf' ▸ String.le_refl _
      · rintro ⟨f, hf, hfa, -, hmax⟩
        rcases List.mem_append.1 hf with hf | hf
        · have hle := hmax f₁ (List.mem_append_right _ List.mem_cons_self) b hvalid hname
          exact absurd hle (String.not_le.2 (hlt f hf))
        · rw [List.mem_singleton.1 hf, hvalid] at hfa
          exact Option.some.inj hfa
    · have hother : ∀ b, format.valid? f₁.2 = some b → format.nameOf b ≠ name :=
        fun b hb hname => hlast ⟨b, hb, hname⟩
      have hfilter : (format.valid? f₁.2).filter (fun a => format.nameOf a = name) = none :=
        Option.filter_eq_none_iff.2 fun b hb hname => hother b hb (of_decide_eq_true hname)
      rw [hfilter, Option.none_or, ih hbefore]
      constructor
      · rintro ⟨f, hf, hfa, hname, hmax⟩
        refine ⟨f, List.mem_append_left _ hf, hfa, hname, fun f' hf' b hb hb' => ?_⟩
        rcases List.mem_append.1 hf' with hf' | hf'
        · exact hmax f' hf' b hb hb'
        · rw [List.mem_singleton.1 hf'] at hb
          exact absurd hb' (hother b hb)
      · rintro ⟨f, hf, hfa, hname, hmax⟩
        rcases List.mem_append.1 hf with hf | hf
        · exact ⟨f, hf, hfa, hname, fun f' hf' => hmax f' (List.mem_append_left _ hf')⟩
        · rw [List.mem_singleton.1 hf] at hfa
          exact absurd hname (hother a hfa)

/-- **Under a name** the last file that defines it counts. -/
theorem get?_collected_eq_some_iff (h : d.Holds l files) :
    (format.collected files).get? name = some a ↔
      format.nameOf a = name ∧ ∃ file, format.DefinesLast d l file a := by
  rw [get?_collected h.sorted]
  constructor
  · rintro ⟨⟨file, text⟩, hmem, hvalid, hname, hmax⟩
    refine ⟨hname, file, (defines_iff h).2 ⟨text, hmem, hvalid⟩, fun other b hb hb' => ?_⟩
    obtain ⟨text', hmem', hvalid'⟩ := (defines_iff h).1 hb
    exact hmax (other, text') hmem' b hvalid' (hb'.trans hname)
  · rintro ⟨rfl, file, hdefines, hlast⟩
    obtain ⟨text, hmem, hvalid⟩ := (defines_iff h).1 hdefines
    exact ⟨(file, text), hmem, hvalid, rfl, fun f' hf' b hb hb' =>
      hlast f'.1 b ((defines_iff h).2 ⟨f'.2, hf', hb⟩) hb'⟩

/-- What is found is what the last file of a name defines. -/
theorem exists_of_mem_values_collected (h : d.Holds l files)
    (ha : a ∈ (format.collected files).values) : ∃ file, format.DefinesLast d l file a := by
  obtain ⟨name, hmem⟩ := OrderedMap.mem_values_iff.1 ha
  have hkeys : (format.collected files).keys.Nodup := OrderedMap.nodup_keys_ofList _
  exact ((get?_collected_eq_some_iff h).1 ((OrderedMap.get?_eq_some_iff hkeys).2 hmem)).2

/-- Nothing is found under a name that no file defines. -/
theorem get?_collected_eq_none_iff (h : d.Holds l files) :
    (format.collected files).get? name = none ↔
      ∀ file a, format.Defines d l file a → format.nameOf a ≠ name := by
  rw [OrderedMap.get?_eq_none_iff, collected, OrderedMap.keys_ofList, List.mem_eraseDups]
  constructor
  · rintro hkeys file a hdefines rfl
    obtain ⟨text, hmem, hvalid⟩ := (defines_iff h).1 hdefines
    refine hkeys (List.mem_map.2 ⟨(format.nameOf a, a), List.mem_filterMap.2 ?_, rfl⟩)
    exact ⟨(file, text), hmem, by rw [hvalid]; rfl⟩
  · intro hnone hkeys
    obtain ⟨e, he, rfl⟩ := List.mem_map.1 hkeys
    obtain ⟨⟨file, text⟩, hmem, hfound⟩ := List.mem_filterMap.1 he
    obtain ⟨a, hvalid, rfl⟩ := Option.map_eq_some_iff.1 hfound
    exact hnone file a ((defines_iff h).2 ⟨text, hmem, hvalid⟩) rfl

/-- One of the files that define a name is the last. -/
theorem exists_definesLast (h : d.Holds l files) {file : String} (ha : format.Defines d l file a) :
    ∃ last b, format.DefinesLast d l last b ∧ format.nameOf b = format.nameOf a := by
  cases hget : (format.collected files).get? (format.nameOf a) with
  | none => exact absurd rfl ((get?_collected_eq_none_iff h).1 hget file a ha)
  | some b =>
    obtain ⟨hname, last, hlast⟩ := (get?_collected_eq_some_iff h).1 hget
    exact ⟨last, b, hlast, hname⟩

end DefinitionFormat
end Inventory
