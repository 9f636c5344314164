/-
# Opening a folder of any bytes

`load_schemas` and `load_views`, where files are no texts.

The definition files of a folder may hold any bytes (`DefinitionFormat.Prepared`). There are
three kinds of them, and only two are dealt with file by file.

| a file that holds | opening |
| --- | --- |
| the text of a valid definition | adds it |
| any other text | passes it over |
| bytes that are no text | fails |

Reading ends at the first file that is no text, with the error of the reading itself. So
opening succeeds exactly when all definition files are texts
(`Definitions.opensWithAll_iff_allText`). It fails late: the folder is there by then, and
the defaults have their files.
-/

import Inventory.Proofs.Definitions.Opening

namespace Inventory

/-- The content of every definition file of a directory is valid UTF-8. -/
def Disk.AllText (d : Disk) (l : Location) : Prop :=
  ∀ file content, DefinitionFormat.isDefinitionFile file = true →
    d.entryAt? (l ++ [file]) = some (.file content) → content.IsValidUTF8

/-- Valid bytes are those of some text. -/
theorem exists_toUTF8_of_isValidUTF8 {content : ByteArray} (h : content.IsValidUTF8) :
    ∃ text : String, content = text.toUTF8 := ⟨String.fromUTF8 content h, rfl⟩

namespace DefinitionFormat

variable {α ε : Type} {format : DefinitionFormat α} {root : Path} {l : Location} {d d' : Disk}
  {defaults : List α}

/-! ### Reading -/

/-- Reading files one after another fails when one of them is no text, whatever was read
before. -/
theorem Orderly.addFiles_of_not_isValidUTF8 (h : format.Orderly root l d) {files : List String}
    (hfiles : ∀ file ∈ files, ∃ content, d.entryAt? (l ++ [file]) = some (.file content))
    (hbad : ∃ file ∈ files, ∃ content,
      d.entryAt? (l ++ [file]) = some (.file content) ∧ ¬ content.IsValidUTF8)
    (held : OrderedMap String α) :
    (format.addFiles root held files).run.run d = (.error .invalidUtf8, d) := by
  induction files generalizing held with
  | nil =>
    obtain ⟨file, hfile, -⟩ := hbad
    cases hfile
  | cons file rest ih =>
    obtain ⟨⟨content, hentry⟩, hrest⟩ := List.forall_mem_cons.1 hfiles
    rw [DefinitionFormat.addFiles]
    by_cases hcontent : content.IsValidUTF8
    · obtain ⟨text, rfl⟩ := exists_toUTF8_of_isValidUTF8 hcontent
      rw [DiskM.run_bind_of_ok (h.run_readText hentry)]
      refine ih hrest ?_ _
      obtain ⟨other, hother, content', hentry', hcontent'⟩ := hbad
      rcases List.mem_cons.1 hother with rfl | hother
      · obtain rfl := FileEntry.file.inj (Option.some.inj (hentry.symm.trans hentry'))
        exact absurd hcontent hcontent'
      · exact ⟨other, hother, content', hentry', hcontent'⟩
    · exact DiskM.run_bind_of_error (h.run_readText_of_not_isValidUTF8 hentry hcontent)

/-- **Reading the folder** fails when one of its definition files is no text. -/
theorem Orderly.load_of_not_allText (h : format.Orderly root l d)
    (hroot : (format.folderIn root).parts ≠ []) (hbad : ¬ d.AllText l) :
    (format.load root).run.run d = (.error .invalidUtf8, d) := by
  obtain ⟨names, listed, hnames, rfl, -, hmem⟩ := h.exists_listed hroot
  rw [DefinitionFormat.load, DiskM.run_bind_of_ok (DiskM.run_ask hnames)]
  refine h.addFiles_of_not_isValidUTF8 (fun file hfile => ((hmem file).1 hfile).2) ?_ _
  simp only [Disk.AllText, not_forall] at hbad
  obtain ⟨file, content, hfile, hentry, hcontent⟩ := hbad
  exact ⟨file, (hmem file).2 ⟨hfile, content, hentry⟩, content, hentry, hcontent⟩

/-! ### Opening -/

/-- A folder can be opened when its definition files are texts. -/
theorem Prepared.openable (h : format.Prepared root l d defaults)
    (htexts : d.AllText (l ++ [format.folder])) : format.Openable root l d defaults where
  proper := h.proper
  directory := h.directory
  noFile := h.noFile
  texts file e hfile he := by
    cases e with
    | directory => exact absurd he (h.noDirectory file hfile)
    | file content =>
      obtain ⟨text, rfl⟩ := exists_toUTF8_of_isValidUTF8 (htexts file content hfile he)
      exact ⟨text, rfl⟩
  plain := h.plain
  fresh := h.fresh

/-- **One file that is no text keeps the folder from opening.** The folder was made and the
defaults were written before. -/
theorem Prepared.openAt_of_not_allText (h : format.Prepared root l d defaults)
    (hformat : format.Placed) (hbad : ¬ d.AllText (l ++ [format.folder]))
    (report reportWriting : FileError → ε) :
    ∃ d', (Definitions.openAt format report reportWriting root defaults).run.run d
        = (.error (report .invalidUtf8), d')
      ∧ format.Seeded root l defaults d d' := by
  obtain ⟨d₁, d', hcreate, hseed, hseeded⟩ := h.exists_seeded hformat
  have hbad' : ¬ d'.AllText (l ++ [format.folder]) := fun htexts =>
    hbad fun file content hfile hentry => htexts file content hfile (hseeded.kept _ _ hentry)
  have hload := hseeded.orderly.load_of_not_allText
    (Definitions.parts_folderIn_ne_nil hformat root) hbad'
  refine ⟨d', ?_, hseeded⟩
  have hcreated : (ExceptT.adapt report (Disk.change
      (·.createDirectories (format.folderIn root)))).run.run d = (.ok (), d₁) :=
    DiskM.run_adapt_eq_ok_iff.2 (DiskM.run_change_eq_ok_iff.2 hcreate)
  rw [Definitions.openAt, DiskM.run_bind_of_ok hcreated,
    DiskM.run_bind_of_ok (DiskM.run_adapt_eq_ok_iff.2 hseed)]
  refine DiskM.run_bind_of_error ?_
  rw [DiskM.run_adapt, hload]
  rfl

/-- Opening succeeded, and passed over the files that do not hold a valid definition: under
each name stands what the last of the files that define it defines. -/
def OpensWithAll (format : DefinitionFormat α) (root : Path) (l : Location) (defaults : List α)
    (d : Disk) (outcome : Except ε (Definitions α) × Disk) : Prop :=
  ∃ held d', outcome = (.ok held, d') ∧ format.Opened root l defaults d d' held
    ∧ ∀ name a, held.get? name = some a ↔
      format.nameOf a = name ∧ ∃ file, format.DefinesLast d' (l ++ [format.folder]) file a

/-- A definition is held exactly when some file is the last to define its name, and defines it. -/
theorem Opened.get?_eq_some_iff {held : Definitions α} (h : format.Opened root l defaults d d' held)
    {name : String} {a : α} : held.get? name = some a ↔
      format.nameOf a = name ∧ ∃ file, format.DefinesLast d' (l ++ [format.folder]) file a := by
  obtain ⟨files, hfiles, hbyName⟩ := h.read
  rw [Definitions.get?, hbyName, get?_collected_eq_some_iff hfiles]

/-- Opening succeeds with all definitions exactly when all definition files are texts. -/
theorem Prepared.opensWithAll_iff (h : format.Prepared root l d defaults)
    (hformat : format.Placed) (report reportWriting : FileError → ε) :
    format.OpensWithAll root l defaults d
        ((Definitions.openAt format report reportWriting root defaults).run.run d)
      ↔ d.AllText (l ++ [format.folder]) := by
  constructor
  · rintro ⟨held, d', hrun, -⟩
    by_contra hbad
    obtain ⟨d₁, herror, -⟩ := h.openAt_of_not_allText hformat hbad report reportWriting
    cases (Prod.mk.inj (herror.symm.trans hrun)).1
  · intro htexts
    obtain ⟨held, d', hrun, hopened, -⟩ :=
      (h.openable htexts).exists_opened hformat report reportWriting
    exact ⟨held, d', hrun, hopened, fun name a => hopened.get?_eq_some_iff⟩

end DefinitionFormat

/-- **A folder opens unless one of its definition files is no text.** Take any directory in
which a folder of schemas can be made and some defaults can be written, whatever bytes the
definition files hold. If all of them are texts, opening succeeds: the files that hold no valid
schema are passed over, and all the other ones count. If one is no text, opening fails with
the error of reading it, after the defaults were written. The same holds for views. -/
theorem Definitions.opensWithAll_iff_allText {root : Path} {l : Location} {d : Disk} :
    (∀ defaults, Schema.format.Prepared root l d defaults →
        (Schema.format.OpensWithAll root l defaults d
            ((SchemaFolder.openAt root defaults).run.run d)
            ↔ d.AllText (l ++ [Schema.format.folder]))
          ∧ (¬ d.AllText (l ++ [Schema.format.folder]) → ∃ d',
            (SchemaFolder.openAt root defaults).run.run d = (.error (.file .invalidUtf8), d')
              ∧ Schema.format.Seeded root l defaults d d'))
      ∧ ∀ defaults, View.format.Prepared root l d defaults →
        (View.format.OpensWithAll root l defaults d
            ((ViewFolder.openAt root defaults).run.run d)
            ↔ d.AllText (l ++ [View.format.folder]))
          ∧ (¬ d.AllText (l ++ [View.format.folder]) → ∃ d',
            (ViewFolder.openAt root defaults).run.run d = (.error (.file .invalidUtf8), d')
              ∧ View.format.Seeded root l defaults d d') :=
  ⟨fun _ h => ⟨h.opensWithAll_iff SchemaFolder.keep.placed _ _,
      fun hbad => h.openAt_of_not_allText SchemaFolder.keep.placed hbad _ _⟩,
    fun _ h => ⟨h.opensWithAll_iff ViewFolder.keep.placed _ _,
      fun hbad => h.openAt_of_not_allText ViewFolder.keep.placed hbad _ _⟩⟩

theorem allText_customisedRegistry (folder : String) :
    customisedRegistry.AllText ["registry", folder] := fun file content _ hentry => by
  obtain ⟨text, htext⟩ := texts_customisedRegistry hentry
  obtain rfl := FileEntry.file.inj htext
  exact text.isValidUTF8

/-- `customisedRegistry` with a file more in each folder, of one byte that no text has. -/
def damagedRegistry : Disk where
  entries := ⟨customisedRegistry.entries.entries
    ++ [(["registry", "schemas", "broken.yaml"], .file ⟨#[0xff]⟩),
      (["registry", "views", "broken.yaml"], .file ⟨#[0xff]⟩)]⟩

/-- The folders of `damagedRegistry` can be opened but for what the files hold. -/
theorem DefinitionFormat.prepared_damagedRegistry {α : Type} {format : DefinitionFormat α}
    (hfolder : damagedRegistry.entryAt? ["registry", format.folder] = some .directory) :
    format.Prepared (.ofText "registry") ["registry"] damagedRegistry [] where
  proper := Disk.proper_of_keys (by decide) (by decide)
  directory := ⟨by decide, by decide, rfl⟩
  noFile content h := by cases hfolder.symm.trans h
  noDirectory file _ h := by
    rw [Disk.entryAt?_of_ne_nil (Disk.concat_ne_nil _ _)] at h
    have hmem := OrderedMap.mem_entries_of_get? h
    simp [damagedRegistry, customisedRegistry] at hmem
  plain _ h := by cases h
  fresh i hi := absurd hi (Nat.not_lt_zero i)

/-- The damaged registry has a file that is no text. -/
theorem not_allText_damagedRegistry {folder : String}
    (h : damagedRegistry.entryAt? ["registry", folder, "broken.yaml"] = some (.file ⟨#[0xff]⟩)) :
    ¬ damagedRegistry.AllText ["registry", folder] := fun htexts =>
  absurd (htexts "broken.yaml" _ (by decide) h) (by decide)

/-- The folders of `customisedRegistry` open, those of `damagedRegistry` do not. -/
theorem Definitions.opensWithAll_iff_allText_registries :
    (Schema.format.OpensWithAll (.ofText "registry") ["registry"] [volumeSchema]
          customisedRegistry
          ((SchemaFolder.openAt (.ofText "registry") [volumeSchema]).run.run customisedRegistry)
        ∧ ∃ d', (SchemaFolder.openAt (.ofText "registry") []).run.run damagedRegistry
            = (.error (.file .invalidUtf8), d')
          ∧ Schema.format.Seeded (.ofText "registry") ["registry"] [] damagedRegistry d')
      ∧ View.format.OpensWithAll (.ofText "registry") ["registry"] [volumeView]
          customisedRegistry
          ((ViewFolder.openAt (.ofText "registry") [volumeView]).run.run customisedRegistry)
        ∧ ∃ d', (ViewFolder.openAt (.ofText "registry") []).run.run damagedRegistry
            = (.error (.file .invalidUtf8), d')
          ∧ View.format.Seeded (.ofText "registry") ["registry"] [] damagedRegistry d' :=
  ⟨⟨((Definitions.opensWithAll_iff_allText.1 _
          (DefinitionFormat.openable_customisedRegistry rfl rfl rfl).prepared).1).2
        (allText_customisedRegistry _),
      (Definitions.opensWithAll_iff_allText.1 _ (DefinitionFormat.prepared_damagedRegistry rfl)).2
        (not_allText_damagedRegistry rfl)⟩,
    ((Definitions.opensWithAll_iff_allText.2 _
          (DefinitionFormat.openable_customisedRegistry rfl rfl rfl).prepared).1).2
        (allText_customisedRegistry _),
      (Definitions.opensWithAll_iff_allText.2 _ (DefinitionFormat.prepared_damagedRegistry rfl)).2
        (not_allText_damagedRegistry rfl)⟩

/-- Both folders of `damagedRegistry` hold a valid definition, and neither can be opened. -/
theorem Definitions.not_opensWithAll_damaged :
    (Schema.format.Prepared (.ofText "registry") ["registry"] damagedRegistry []
        ∧ Schema.format.Defines damagedRegistry ["registry", "schemas"] "zz.yaml" volumeSchema
        ∧ ¬ Schema.format.OpensWithAll (.ofText "registry") ["registry"] [] damagedRegistry
          ((SchemaFolder.openAt (.ofText "registry") []).run.run damagedRegistry))
      ∧ View.format.Prepared (.ofText "registry") ["registry"] damagedRegistry []
        ∧ View.format.Defines damagedRegistry ["registry", "views"] "zz.yaml" volumeView
        ∧ ¬ View.format.OpensWithAll (.ofText "registry") ["registry"] [] damagedRegistry
          ((ViewFolder.openAt (.ofText "registry") []).run.run damagedRegistry) := by
  have hschemas : Schema.format.Prepared (.ofText "registry") ["registry"] damagedRegistry [] :=
    DefinitionFormat.prepared_damagedRegistry rfl
  have hviews : View.format.Prepared (.ofText "registry") ["registry"] damagedRegistry [] :=
    DefinitionFormat.prepared_damagedRegistry rfl
  have hvolume : Schema.format.valid? volumeSchema.toYaml = some volumeSchema :=
    storable_volumeSchema.valid?_encode.trans rfl
  refine ⟨⟨hschemas, ⟨by decide, _, rfl, hvolume⟩, fun hopens => ?_⟩,
    hviews, ⟨by decide, _, rfl, by decide +kernel⟩, fun hopens => ?_⟩
  · exact not_allText_damagedRegistry rfl
      ((hschemas.opensWithAll_iff SchemaFolder.keep.placed _ _).1 hopens)
  · exact not_allText_damagedRegistry rfl
      ((hviews.opensWithAll_iff ViewFolder.keep.placed _ _).1 hopens)

end Inventory
