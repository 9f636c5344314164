/-
# When an edit of a folder is final

Writing and deleting a definition, and `open` afterwards.

In memory a definition is found by its name. On the disk it may be in any definition file,
because files are read whatever they are called; but it is written to, and deleted with, the
file that is called like it. So other files have a say when the folder is opened again.

| accepted edit | what is found of the name when the folder is opened again |
| --- | --- |
| writing a definition | what the last file of the name defines, with the written one among them |
| deleting a name | what the last of the other files of the name defines, if there is one |

The first is the written definition unless a file with a later name defines something else
(`DefinitionFormat.Legible.reopen_write`), the second is nothing unless there is another file
(`DefinitionFormat.Legible.reopen_delete`). So all edits of a folder are final exactly when
every definition is in the file that is called like it (`Definitions.final_iff_filedByName`).
-/

import Inventory.Proofs.Definitions.Opening

namespace Inventory
namespace DefinitionFormat

variable {α ε : Type} {format : DefinitionFormat α} {root : Path} {l : Location} {d d' : Disk}
  {a : α} {held held' : Definitions α}

/-! ### Opening again -/

/-- Opening a folder of texts without defaults changes nothing and finds what its files
define. -/
theorem Legible.reopen (h : format.Legible root l d) (hformat : format.Placed)
    (report reportWriting : FileError → ε) :
    ∃ files, d.Holds l files
      ∧ (Definitions.openAt format report reportWriting root []).run.run d
        = (.ok ⟨root, format.collected files⟩, d) :=
  h.openAt_of_isSome hformat (fun _ ha => by cases ha) (fun _ ha => by cases ha) report
    reportWriting

/-- One definition file defines one thing. -/
theorem Defines.unique {file : String} {b : α} (ha : format.Defines d l file a)
    (hb : format.Defines d l file b) : a = b := by
  obtain ⟨-, text, hentry, hvalid⟩ := ha
  obtain ⟨-, text', hentry', hvalid'⟩ := hb
  have htext : text.toUTF8 = text'.toUTF8 :=
    FileEntry.file.inj (Option.some.inj (hentry.symm.trans hentry'))
  rw [String.toByteArray_inj.1 htext, hvalid'] at hvalid
  exact (Option.some.inj hvalid).symm

/-! ### Writing -/

/-- What the files define after one was replaced by the text of a valid definition. -/
theorem defines_replaced_iff (ha : format.Storable a) (hvalid : format.isValid a = true)
    {file : String} {b : α} :
    format.Defines (d.replaced l (fileName (format.nameOf a)) (format.encode a).toUTF8) l file b
      ↔ if file = fileName (format.nameOf a) then b = a else format.Defines d l file b := by
  have hwritten : format.valid? (format.encode a) = some a := by
    rw [ha.valid?_encode, Option.filter_some, if_pos hvalid]
  simp only [Defines, Disk.entryAt?_replaced, List.append_cancel_left_eq, List.cons.injEq, and_true]
  by_cases hname : file = fileName (format.nameOf a)
  · rw [if_pos hname, if_pos hname]
    constructor
    · rintro ⟨-, text, hentry, hb⟩
      have htext := FileEntry.file.inj (Option.some.inj hentry)
      rw [← String.toByteArray_inj.1 htext, hwritten] at hb
      exact (Option.some.inj hb).symm
    · rintro rfl
      exact ⟨hname ▸ isDefinitionFile_fileName ha.nonempty, _, rfl, hwritten⟩
  · rw [if_neg hname, if_neg hname]
    refine and_congr_right fun hfile => ?_
    rw [if_neg (ne_temporaryName hfile d)]

/-- Writing the file of a definition leaves a folder of texts. -/
theorem Legible.writeFile (h : format.Legible root l d) (ha : format.Storable a)
    (hrun : (format.writeFile root a).run.run d = (.ok (), d')) :
    format.Legible root l d'
      ∧ d' = d.replaced l (fileName (format.nameOf a)) (format.encode a).toUTF8 := by
  obtain ⟨⟨-, htemporary⟩, hcan, rfl⟩ :=
    (h.orderly.run_writeFile_eq_ok_iff ha.nonempty ha.noSlash).1 hrun
  exact ⟨h.replaced (isDefinitionFile_fileName ha.nonempty) (isPart_fileName ha.noSlash) hcan
    htemporary _, rfl⟩

/-- **After writing** a definition, opening the folder again finds it, unless a file with a
later name defines something else under its name. -/
theorem Legible.reopen_write (h : format.Legible root l d) (hformat : format.Placed)
    (ha : format.Storable a) (hvalid : format.isValid a = true)
    (hrun : (format.writeFile root a).run.run d = (.ok (), d'))
    (report reportWriting : FileError → ε) :
    ∃ again, (Definitions.openAt format report reportWriting root []).run.run d' = (.ok again, d')
      ∧ (again.get? (format.nameOf a) = some a ↔
        ∀ file b, format.DefinesLast d l file b → format.nameOf b = format.nameOf a →
          fileName (format.nameOf a) < file → b = a) := by
  obtain ⟨hlegible, rfl⟩ := h.writeFile ha hrun
  obtain ⟨files, hfiles, hopen⟩ := hlegible.reopen hformat report reportWriting
  refine ⟨_, hopen, (get?_collected_eq_some_iff hfiles).trans ?_⟩
  simp only [true_and]
  constructor
  · -- A file with a later name that defines the name is not replaced.
    rintro ⟨last, hlast⟩ file b hb hname hlater
    have hfile : file ≠ fileName (format.nameOf a) := (Std.ne_of_lt hlater).symm
    have hle := hlast.last file b
      ((defines_replaced_iff ha hvalid).2 (by rw [if_neg hfile]; exact hb.defines)) hname
    have hlate : last ≠ fileName (format.nameOf a) := fun heq =>
      String.not_le.2 hlater (heq ▸ hle)
    have hdefines := (defines_replaced_iff ha hvalid).1 hlast.defines
    rw [if_neg hlate] at hdefines
    obtain rfl := String.le_antisymm hle (hb.last last a hdefines hname.symm)
    exact hb.defines.unique hdefines
  · -- Conversely, the new file defines the name last, or a later one defines it alike.
    intro hlater
    by_cases hother : ∃ file b, format.DefinesLast d l file b
        ∧ format.nameOf b = format.nameOf a ∧ fileName (format.nameOf a) < file
    · obtain ⟨file, b, hb, hname, hlate⟩ := hother
      obtain rfl := hlater file b hb hname hlate
      have hfile : file ≠ fileName (format.nameOf b) := (Std.ne_of_lt hlate).symm
      refine ⟨file, (defines_replaced_iff ha hvalid).2 (by rw [if_neg hfile]; exact hb.defines),
        fun other c hc hc' => ?_⟩
      rw [defines_replaced_iff ha hvalid] at hc
      split at hc
      · rename_i heq
        exact heq ▸ Std.le_of_lt hlate
      · exact hb.last other c hc hc'
    · refine ⟨fileName (format.nameOf a), (defines_replaced_iff ha hvalid).2 (by rw [if_pos rfl]),
        fun other c hc hc' => ?_⟩
      rw [defines_replaced_iff ha hvalid] at hc
      split at hc
      · rename_i heq
        exact heq ▸ String.le_refl _
      · obtain ⟨before, hbefore, -⟩ := h.reopen hformat report reportWriting
        obtain ⟨last, b, hlast, hname⟩ := exists_definesLast hbefore hc
        refine String.not_lt.1 fun hlt => hother ⟨last, b, hlast, hname.trans hc', ?_⟩
        exact Std.lt_of_lt_of_le hlt (hlast.last other c hc hname.symm)

/-! ### Deleting -/

/-- Deleting forgets the definition in memory and removes the file of its name. -/
theorem run_delete (held : Definitions α) (name : String) (d : Disk) :
    (Definitions.delete format held name).run d
      = ({ held with byName := held.byName.erase name },
        d.tryRemove (format.fileOf held.root name)) := by
  simp only [Definitions.delete, StateT.run_bind, StateT.run_get, pure_bind, Disk.tryRemove]
  cases d.remove (format.fileOf held.root name) <;> rfl

/-- Removing the file of a name leaves a folder of texts, and the other files define what
they did. -/
theorem Legible.tryRemove (h : format.Legible root l d) {name : String} (hname : name ≠ "") :
    format.Legible root l (d.tryRemove ((format.folderIn root).child (fileName name)))
      ∧ ∀ file a,
        format.Defines (d.tryRemove ((format.folderIn root).child (fileName name))) l file a
          ↔ file ≠ fileName name ∧ format.Defines d l file a := by
  obtain ⟨hproper, hkeeps, hentries⟩ := Disk.tryRemove_child h.proper h.folder
    (fileName_ne_up name) (h.orderly.noDirectory _ (isDefinitionFile_fileName hname))
  refine ⟨⟨hproper, h.folder.mono hkeeps, fun file e hfile he => ?_⟩, fun file a => ?_⟩
  · rw [hentries] at he
    split at he
    · cases he
    · exact h.texts file e hfile he
  · simp only [Defines, hentries, List.append_cancel_left_eq, List.cons.injEq, and_true]
    by_cases heq : file = fileName name <;> simp [heq]

/-- **After deleting** a name, opening the folder again finds nothing under it, unless a file
that is not called like it defines something under it. -/
theorem Legible.reopen_delete (h : format.Legible root l d) (hformat : format.Placed)
    (hroot : held.root = root) {name : String} (hname : name ≠ "") (hslash : '/' ∉ name.toList)
    (hrun : (Definitions.delete format held name).run d = (held', d'))
    (report reportWriting : FileError → ε) :
    ∃ again, (Definitions.openAt format report reportWriting root []).run.run d' = (.ok again, d')
      ∧ (again.get? name = none ↔
        ∀ file a, format.Defines d l file a → format.nameOf a = name → file = fileName name) := by
  obtain ⟨hlegible, hdefines⟩ := h.tryRemove hname
  rw [run_delete, hroot, fileOf_eq hslash] at hrun
  obtain ⟨-, rfl⟩ := Prod.mk.inj hrun
  obtain ⟨files, hfiles, hopen⟩ := hlegible.reopen hformat report reportWriting
  refine ⟨_, hopen, (get?_collected_eq_none_iff hfiles).trans ?_⟩
  simp only [hdefines]
  constructor
  · exact fun hnone file a ha hnamed => by_contra fun hne => hnone file a ⟨hne, ha⟩ hnamed
  · exact fun hall file a ha hnamed => ha.1 (hall file a ha.2 hnamed)

/-- Every definition with a plain name is in the file that is called like it. -/
def FiledByName (format : DefinitionFormat α) (d : Disk) (l : Location) : Prop :=
  ∀ file a, format.Defines d l file a → format.nameOf a ≠ "" → '/' ∉ (format.nameOf a).toList →
    file = fileName (format.nameOf a)

end DefinitionFormat

/-! ### Finality -/

namespace FolderOperations

variable {ε α : Type} {ops : FolderOperations ε α} {format : DefinitionFormat α} {root : Path}
  {l : Location} {start d : Disk} {held : Definitions α} {defaults : List α}

/-- Accepted edits are final: opening the folder again without defaults finds a definition
that was written, and nothing under a name that was deleted. -/
structure Final (ops : FolderOperations ε α) (format : DefinitionFormat α)
    (held : Definitions α) (d : Disk) : Prop where
  written : ∀ a held' d', format.Storable a → (ops.write held a).run.run d = (.ok held', d') →
    ∃ again d'', (ops.openAt held.root []).run.run d' = (.ok again, d'')
      ∧ again.get? (format.nameOf a) = some a
  deleted : ∀ name held' d', name ≠ "" → '/' ∉ name.toList →
    (ops.delete held name).run.run d = (.ok held', d') →
    ∃ again d'', (ops.openAt held.root []).run.run d' = (.ok again, d'')
      ∧ again.get? name = none

/-- A definition whose writing is accepted is valid, and its file is written. -/
theorem Keep.write_eq_ok (hops : ops.Keep format) {a : α} {held' : Definitions α} {d' : Disk}
    (h : (ops.write held a).run.run d = (.ok held', d')) :
    format.isValid a = true ∧ (format.writeFile held.root a).run.run d = (.ok (), d') := by
  cases hvalid : format.isValid a with
  | false =>
    obtain ⟨e, he⟩ := hops.refuse held a hvalid
    rw [he] at h
    exact absurd h DiskM.run_throw_ne_ok
  | true =>
    obtain ⟨report, hwrite⟩ := hops.write held a hvalid
    rw [hwrite, DiskM.run_adapt_eq_ok_iff, Definitions.write, DiskM.run_bind_eq_ok_iff] at h
    obtain ⟨⟨⟩, d₁, hrun, hheld⟩ := h
    obtain ⟨-, rfl⟩ := DiskM.run_pure_eq_ok_iff.1 hheld
    exact ⟨rfl, hrun⟩

/-- A deletion is accepted when there is something under the name. -/
theorem Keep.delete_eq_ok_iff (hops : ops.Keep format) {name : String} {held' : Definitions α}
    {d' : Disk} :
    (ops.delete held name).run.run d = (.ok held', d') ↔
      (held.get? name).isSome = true
        ∧ (Definitions.delete format held name).run d = (held', d') := by
  cases hname : held.get? name with
  | none =>
    obtain ⟨e, he⟩ := hops.unknown held name hname
    rw [he]
    exact iff_of_false DiskM.run_throw_ne_ok fun h => by cases h.1
  | some a =>
    rw [hops.delete held name (by rw [hname]; rfl)]
    constructor
    · intro h
      obtain ⟨hheld, hdisk⟩ := Prod.mk.inj h
      exact ⟨rfl, Prod.ext (Except.ok.inj hheld) hdisk⟩
    · rintro ⟨-, h⟩
      rw [h]

/-- Edits of a folder that was opened are final exactly when every definition is in the file
that is called like it. -/
theorem Keep.final_iff (hops : ops.Keep format)
    (h : format.Opened root l defaults start d held) :
    ops.Final format held d ↔ format.FiledByName d (l ++ [format.folder]) := by
  obtain ⟨report, reportWriting, hopen⟩ := hops.openAt
  constructor
  · intro hfinal file a ha hname hslash
    -- The name is in memory, so deleting it is accepted.
    obtain ⟨files, hfiles, hbyName⟩ := h.read
    have hheld : (held.get? (format.nameOf a)).isSome = true := by
      rw [← Option.ne_none_iff_isSome, Definitions.get?, hbyName]
      exact fun hnone =>
        (DefinitionFormat.get?_collected_eq_none_iff hfiles).1 hnone file a ha rfl
    obtain ⟨held', d', hdelete⟩ : ∃ held' d',
        (Definitions.delete format held (format.nameOf a)).run d = (held', d') := ⟨_, _, rfl⟩
    obtain ⟨again, d'', hagain, hnone⟩ := hfinal.deleted (format.nameOf a) held' d' hname hslash
      (hops.delete_eq_ok_iff.2 ⟨hheld, hdelete⟩)
    obtain ⟨again', hagain', hiff⟩ :=
      h.legible.reopen_delete hops.placed h.root_eq hname hslash hdelete report reportWriting
    rw [hopen, h.root_eq, hagain'] at hagain
    obtain rfl := Except.ok.inj (Prod.mk.inj hagain).1
    exact hiff.1 hnone file a ha rfl
  · intro hfiled
    refine ⟨fun a held' d' ha hrun => ?_, fun name held' d' hname hslash hrun => ?_⟩
    · obtain ⟨hvalid, hrun⟩ := hops.write_eq_ok hrun
      rw [h.root_eq] at hrun
      obtain ⟨again, hagain, hiff⟩ :=
        h.legible.reopen_write hops.placed ha hvalid hrun report reportWriting
      rw [hopen, h.root_eq]
      refine ⟨again, d', hagain, hiff.2 fun file b hb hname hlater => ?_⟩
      have hfile := hfiled file b hb.defines (hname ▸ ha.nonempty) (hname ▸ ha.noSlash)
      rw [hfile, hname] at hlater
      exact absurd hlater (String.lt_irrefl _)
    · obtain ⟨-, hrun⟩ := hops.delete_eq_ok_iff.1 hrun
      obtain ⟨again, hagain, hiff⟩ :=
        h.legible.reopen_delete hops.placed h.root_eq hname hslash hrun report reportWriting
      rw [hopen, h.root_eq]
      refine ⟨again, d', hagain, hiff.2 fun file a ha hnamed => ?_⟩
      subst hnamed
      exact hfiled file a ha hname hslash

end FolderOperations

/-- **When edits are final.** Open a folder of schemas in any directory in which it can be
opened. Its accepted edits are final exactly when every schema is in the file that is called
like it. The same holds for views. -/
theorem Definitions.final_iff_filedByName {root : Path} {l : Location} {start : Disk} :
    (∀ defaults held d, Schema.format.Openable root l start defaults →
        (SchemaFolder.openAt root defaults).run.run start = (.ok held, d) →
        (SchemaFolder.operations.Final Schema.format held d ↔
          Schema.format.FiledByName d (l ++ [Schema.format.folder])))
      ∧ ∀ defaults held d, View.format.Openable root l start defaults →
        (ViewFolder.openAt root defaults).run.run start = (.ok held, d) →
        (ViewFolder.operations.Final View.format held d ↔
          View.format.FiledByName d (l ++ [View.format.folder])) := by
  refine ⟨fun defaults held d h hrun => ?_, fun defaults held d h hrun => ?_⟩
  · exact SchemaFolder.keep.final_iff (h.opened_of_run SchemaFolder.keep.placed hrun)
  · exact ViewFolder.keep.final_iff (h.opened_of_run ViewFolder.keep.placed hrun)

/-- The folders of `customisedRegistry`, opened with a default that is also in another file. -/
theorem Definitions.final_iff_filedByName_customised :
    (∃ held d, (SchemaFolder.openAt (.ofText "registry") [volumeSchema]).run.run
          customisedRegistry = (.ok held, d)
        ∧ (SchemaFolder.operations.Final Schema.format held d ↔
          Schema.format.FiledByName d ["registry", "schemas"]))
      ∧ ∃ held d, (ViewFolder.openAt (.ofText "registry") [volumeView]).run.run
          customisedRegistry = (.ok held, d)
        ∧ (ViewFolder.operations.Final View.format held d ↔
          View.format.FiledByName d ["registry", "views"]) := by
  have hschemas : Schema.format.Openable (.ofText "registry") ["registry"] customisedRegistry
      [volumeSchema] := DefinitionFormat.openable_customisedRegistry rfl rfl rfl
  have hviews : View.format.Openable (.ofText "registry") ["registry"] customisedRegistry
      [volumeView] := DefinitionFormat.openable_customisedRegistry rfl rfl rfl
  obtain ⟨held, d, hrun, -, -⟩ :=
    hschemas.exists_opened SchemaFolder.keep.placed SchemaError.file SchemaError.file
  obtain ⟨held', d', hrun', -, -⟩ :=
    hviews.exists_opened ViewFolder.keep.placed ViewError.file ViewFolder.writingError
  exact ⟨⟨held, d, hrun, Definitions.final_iff_filedByName.1 _ held d hschemas hrun⟩,
    held', d', hrun', Definitions.final_iff_filedByName.2 _ held' d' hviews hrun'⟩

/-- In `customisedRegistry` the schema of volumes is in a file `zz.yaml`. Deleting it is
accepted, but when the folder is opened again, it is there as before. -/
theorem Definitions.not_final_customised :
    (match (SchemaFolder.openAt (.ofText "registry") []).run.run customisedRegistry with
      | (.error _, _) => none
      | (.ok held, d) =>
        match (SchemaFolder.delete held "volume").run.run d with
        | (.error _, _) => none
        | (.ok held', d') =>
          match (SchemaFolder.openAt (.ofText "registry") []).run.run d' with
          | (.error _, _) => none
          | (.ok again, _) => some (held'.get? "volume", again.get? "volume"))
      = some (none, some volumeSchema) := by
  decide +kernel

end Inventory
