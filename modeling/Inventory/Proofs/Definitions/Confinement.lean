/-
# Which names keep their files in the folder

`write_schema`, `write_view`, `delete_schema` and `delete_view`, by the path that `schema_path` or
`view_path` makes of a name.

The file of a definition is named for it, and any text is accepted as a name. A name with slashes
makes a path of several parts, which may lead out of the folder, by `..` or because it starts with
a slash. What counts is the directory in which the file is:

| the directory that the file's path leads into | what is written and removed |
| --- | --- |
| the folder (`DefinitionFormat.Inside`) | files directly in the folder |
| none, since no directory can have that name (`DefinitionFormat.Nowhere`) | nothing |
| another | files elsewhere, on the disk that has this directory |

So the operations on a folder stay in it exactly for the names of the first two kinds
(`Definitions.confined_iff_inside`). Names without a slash are of the first kind
(`FolderOperations.Keep.confined_of_noSlash`).
-/

import Inventory.Proofs.Definitions.Finality
import Inventory.Proofs.Files.Destination

namespace Inventory

/-! ### The path of a file -/

namespace Path

/-- A longer text differs in its last piece when no slash is added. -/
theorem exists_splitSlash_append {m : List Char} (hm : '/' ∉ m) (l : List Char) :
    ∃ before last, splitSlash (l ++ m) = before ++ [last ++ m] := by
  induction l with
  | nil => exact ⟨[], [], splitSlash_of_notMem hm⟩
  | cons c rest ih =>
    obtain ⟨before, last, hpieces⟩ := ih
    by_cases hc : c = '/'
    · exact ⟨[] :: before, last, by simp [splitSlash, hc, hpieces]⟩
    · cases before with
      | nil => exact ⟨[], c :: last, by simp [splitSlash, hc, hpieces]⟩
      | cons piece pieces =>
        exact ⟨(c :: piece) :: pieces, last, by simp [splitSlash, hc, hpieces]⟩

/-- The last part of a path is there when its text has an ending. -/
theorem exists_parts_ofText {text : String} {l m : List Char} (htext : text.toList = l ++ m)
    (hm : '/' ∉ m) (hlong : 1 < m.length) :
    ∃ before last, (ofText text).parts = before ++ [String.ofList (last ++ m)] := by
  obtain ⟨before, last, hpieces⟩ := exists_splitSlash_append hm l
  have hlonger : 1 < (last ++ m).length := by
    rw [List.length_append]
    omega
  have hkept : last ++ m ≠ [] ∧ last ++ m ≠ ['.'] := by
    constructor
    · intro h
      rw [h] at hlonger
      exact absurd hlonger (by decide)
    · intro h
      rw [h] at hlonger
      exact absurd hlonger (by decide)
  refine ⟨(before.filter fun p => p ≠ [] ∧ p ≠ ['.']).map String.ofList, last, ?_⟩
  have hlast : ([last ++ m].filter fun p => p ≠ [] ∧ p ≠ ['.']) = [last ++ m] := by
    simpa using hkept
  simp only [ofText, htext, hpieces, List.filter_append, List.map_append, hlast, List.map_singleton]

/-- A path that ends in a name leads to that name in some directory. -/
theorem exists_join_eq_child (p q : Path) {before : List String} {part : String}
    (hparts : q.parts = before ++ [part]) (hslash : q.slashAtEnd = false) :
    ∃ r : Path, p.join q = r.child part := by
  unfold join child
  split
  · rename_i habsolute
    refine ⟨⟨true, before, false⟩, ?_⟩
    rw [← hparts, ← hslash, ← habsolute]
  · refine ⟨⟨p.absolute, p.parts ++ before, false⟩, ?_⟩
    rw [hparts, hslash, List.append_assoc]

end Path

namespace DefinitionFormat

variable {α ε : Type} {format : DefinitionFormat α} {root : Path} {name : String} {d d' : Disk}

/-- The path of a definition file ends in a name. -/
theorem exists_fileOf_eq_child (format : DefinitionFormat α) (root : Path) (name : String) :
    ∃ (p : Path) (part : String), format.fileOf root name = p.child part ∧ part ≠ ".." := by
  obtain ⟨before, last, hparts⟩ :=
    Path.exists_parts_ofText (toList_fileName name) (by decide) (by decide)
  have hends : (fileName name).toList.getLast? = some 'l' := by simp [toList_fileName]
  have hslash : (Path.ofText (fileName name)).slashAtEnd = false := by simp [Path.ofText, hends]
  obtain ⟨p, hp⟩ := Path.exists_join_eq_child (format.folderIn root) _ hparts hslash
  refine ⟨p, _, hp, fun hup => ?_⟩
  have hlist := congrArg (fun s => s.toList.getLast?) hup
  simp at hlist

/-- The path of the file of a name leads directly into the folder. -/
def Inside (format : DefinitionFormat α) (root : Path) (name : String) : Prop :=
  ∃ part, (format.fileOf root name).destination = (format.folderIn root).destination ++ [part]

/-- The path of the file of a name leads through a directory that no disk can have. -/
def Nowhere (format : DefinitionFormat α) (root : Path) (name : String) : Prop :=
  ∃ part ∈ (format.fileOf root name).parts.dropLast, part ≠ ".." ∧ ¬ Disk.CanName part

/-- Names without a slash stay in the folder. -/
theorem inside_of_noSlash (format : DefinitionFormat α) (root : Path) (h : '/' ∉ name.toList) :
    format.Inside root name :=
  ⟨fileName name, by rw [fileOf_eq h, Path.destination_child (fileName_ne_up name)]⟩

end DefinitionFormat

namespace Disk

variable {d : Disk} {l m : Location} {p : Path}

/-- A walk that succeeds goes through names that are short enough. -/
theorem short_of_walk {parts : List String} (h : d.walk l parts = .ok m) :
    ∀ part ∈ parts, part ≠ ".." → part.utf8ByteSize ≤ 255 := by
  induction parts generalizing l with
  | nil => exact fun part hpart => absurd hpart List.not_mem_nil
  | cons first rest ih =>
    rw [walk] at h
    cases hstep : d.step l first with
    | error e => simp [hstep] at h
    | ok l' =>
      rw [hstep] at h
      intro part hpart hup
      rcases List.mem_cons.1 hpart with rfl | hrest
      · by_contra hlong
        have hdirectory := step_eq_ok hstep
        rw [step, hdirectory] at hstep
        simp [hup, Nat.not_le.1 hlong] at hstep
      · exact ih h part hrest hup

/-- What is found has been reached through names that directories can have. -/
theorem canName_of_locate (h : d.locate p = .ok m) :
    ∀ part ∈ p.parts, part ≠ ".." → CanName part := by
  intro part hpart hup
  obtain ⟨hnul, -, hwalk⟩ := locate_eq_ok_iff.1 h
  exact ⟨hup, hnul part hpart, short_of_walk hwalk part hpart hup⟩

/-- A file that is written has a location. -/
theorem locate_of_write {d' : Disk} {content : ByteArray} (h : d.write p content = .ok d') :
    ∃ m, d.locate p = .ok m := by
  unfold write at h
  split at h
  · cases h
  · exact ⟨_, by assumption⟩

/-- A file that is removed has a location. -/
theorem locate_of_remove {d' : Disk} (h : d.remove p = .ok d') : ∃ m, d.locate p = .ok m := by
  unfold remove at h
  split at h
  · cases h
  · cases h
  · exact ⟨_, by assumption⟩
  · cases h

end Disk

namespace DefinitionFormat

variable {α ε : Type} {format : DefinitionFormat α} {root : Path} {name : String} {d d' : Disk}

/-! ### Names that stay in the folder -/

/-- The directory of the file is the folder, or cannot be. -/
theorem exists_child_of_inside_or_nowhere
    (h : format.Inside root name ∨ format.Nowhere root name) :
    ∃ (p : Path) (part : String), format.fileOf root name = p.child part ∧ part ≠ ".."
      ∧ (p.destination = (format.folderIn root).destination
        ∨ ∃ part ∈ p.parts, part ≠ ".." ∧ ¬ Disk.CanName part) := by
  obtain ⟨p, part, hfile, hup⟩ := exists_fileOf_eq_child format root name
  refine ⟨p, part, hfile, hup, ?_⟩
  rcases h with ⟨part', hinside⟩ | hnowhere
  · rw [hfile, Path.destination_child hup] at hinside
    exact .inl (List.append_inj' hinside rfl).1
  · rw [Nowhere, hfile] at hnowhere
    refine .inr ?_
    simpa [Path.child] using hnowhere

/-- Writing a definition stays in the folder, or fails before it changes anything. -/
theorem within_writeFile {a : α}
    (h : format.Inside root (format.nameOf a) ∨ format.Nowhere root (format.nameOf a)) :
    DiskM.Within (format.folderIn root).destination (format.writeFile root a) := by
  obtain ⟨p, part, hfile, hup, hdestination | ⟨bad, hbad, hnotUp, hcannot⟩⟩ :=
    exists_child_of_inside_or_nowhere h
  · rw [writeFile, hfile, ← hdestination]
    exact DiskM.within_writeAtomically hup p _
  · -- Not even the temporary file is written.
    rw [writeFile, hfile, Disk.writeAtomically, Path.parent?_child]
    have hsteps (temporary : String) (content : ByteArray) :
        DiskM.Within (format.folderIn root).destination
          (Disk.change (·.write (p.child temporary) content) >>= fun _ =>
            Disk.change (·.rename (p.child temporary) (p.child part))) := by
      intro d
      cases hwrite : d.write (p.child temporary) content with
      | ok d' =>
        obtain ⟨m, hm⟩ := Disk.locate_of_write hwrite
        exact absurd (Disk.canName_of_locate hm bad (List.mem_append_left _ hbad) hnotUp) hcannot
      | error e =>
        have hfirst : (Disk.change (·.write (p.child temporary) content)).run.run d
            = (.error e, d) := by
          rw [DiskM.run_change, hwrite]
        rw [DiskM.run_bind_of_error hfirst]
        exact .refl _ d
    exact fun d => hsteps d.temporaryName _ { d with temporaries := d.temporaries + 1 }

/-- Removing a definition changes nothing outside the folder. -/
theorem sameOutside_tryRemove (h : format.Inside root name ∨ format.Nowhere root name)
    (d : Disk) :
    Disk.SameOutside (format.folderIn root).destination d
      (d.tryRemove (format.fileOf root name)) := by
  unfold Disk.tryRemove
  cases hremove : d.remove (format.fileOf root name) with
  | error e => exact .refl _ d
  | ok d' =>
    obtain ⟨p, part, hfile, hup, hdestination | ⟨bad, hbad, hnotUp, hcannot⟩⟩ :=
      exists_child_of_inside_or_nowhere h
    · rw [hfile] at hremove
      rw [← hdestination]
      exact Disk.sameOutside_remove hup hremove
    · obtain ⟨m, hm⟩ := Disk.locate_of_remove hremove
      rw [hfile] at hm
      exact absurd (Disk.canName_of_locate hm bad (List.mem_append_left _ hbad) hnotUp) hcannot

/-- Writing the defaults that are missing stays in the folder. -/
theorem within_seed {defaults : List α}
    (h : ∀ a ∈ defaults,
      format.Inside root (format.nameOf a) ∨ format.Nowhere root (format.nameOf a)) :
    DiskM.Within (format.folderIn root).destination (format.seed root defaults) := by
  induction defaults with
  | nil => exact DiskM.within_pure _ ()
  | cons a rest ih =>
    obtain ⟨ha, hrest⟩ := List.forall_mem_cons.1 h
    intro d
    rw [run_seed_cons]
    split
    · exact ih hrest d
    · exact (within_writeFile ha).bind (fun _ => ih hrest) d

/-- Loading definitions changes nothing. -/
theorem within_addFiles (l : Location) (root : Path) (held : OrderedMap String α)
    (files : List String) : DiskM.Within l (format.addFiles root held files) := by
  induction files generalizing held with
  | nil => exact DiskM.within_pure l held
  | cons file rest ih => exact (DiskM.within_ask l _).bind fun _ => ih _

/-- **Opening a folder** writes the files of its defaults. -/
theorem within_openAt {report reportWriting : FileError → ε} {defaults : List α}
    (h : ∀ a ∈ defaults,
      format.Inside root (format.nameOf a) ∨ format.Nowhere root (format.nameOf a)) :
    DiskM.Within (format.folderIn root).destination
      (Definitions.openAt format report reportWriting root defaults) := by
  have hmake : DiskM.Within (format.folderIn root).destination
      (Disk.change (·.createDirectories (format.folderIn root))) :=
    DiskM.within_change fun d d' hmade m _ =>
      congrFun (Disk.fileAt?_createDirectories hmade) m
  have hload : DiskM.Within (format.folderIn root).destination (format.load root) :=
    (DiskM.within_ask _ _).bind fun _ => within_addFiles _ root _ _
  refine (hmake.adapt report).bind fun _ => ((within_seed h).adapt reportWriting).bind fun _ => ?_
  exact (hload.adapt report).bind fun _ => DiskM.within_pure _ _

end DefinitionFormat

/-! ### Confinement -/

namespace FolderOperations

variable {ε α : Type} {ops : FolderOperations ε α} {format : DefinitionFormat α} {root : Path}
  {names : String → Prop}

/-- The operations create, replace and remove only files directly in the folder when they are
for definitions of certain names, on every disk. -/
structure Confined (ops : FolderOperations ε α) (format : DefinitionFormat α) (root : Path)
    (names : String → Prop) : Prop where
  opens : ∀ defaults, (∀ a ∈ defaults, names (format.nameOf a)) →
    DiskM.Within (format.folderIn root).destination (ops.openAt root defaults)
  writes : ∀ (held : Definitions α) a, held.root = root → names (format.nameOf a) →
    DiskM.Within (format.folderIn root).destination (ops.write held a)
  deletes : ∀ (held : Definitions α) name, held.root = root → names name →
    DiskM.Within (format.folderIn root).destination (ops.delete held name)

/-- Writing a valid definition changes the disk as writing its file does. -/
theorem Keep.snd_write (hops : ops.Keep format) {a : α} (hvalid : format.isValid a = true)
    (held : Definitions α) (d : Disk) :
    ((ops.write held a).run.run d).2 = ((format.writeFile held.root a).run.run d).2 := by
  obtain ⟨report, hwrite⟩ := hops.write held a hvalid
  rw [hwrite, DiskM.run_adapt, Definitions.write]
  rcases hrun : (format.writeFile held.root a).run.run d with ⟨e | u, d'⟩
  · rw [DiskM.run_bind_of_error hrun]
  · rw [DiskM.run_bind_of_ok hrun]
    rfl

/-- **Calls with such names** change nothing outside the folder. -/
theorem Keep.confined (hops : ops.Keep format)
    (h : ∀ name, names name → format.Inside root name ∨ format.Nowhere root name) :
    ops.Confined format root names where
  opens defaults hdefaults := by
    obtain ⟨report, reportWriting, hopen⟩ := hops.openAt
    rw [hopen]
    exact DefinitionFormat.within_openAt fun a ha => h _ (hdefaults a ha)
  writes held a hroot ha := by
    cases hvalid : format.isValid a with
    | false =>
      obtain ⟨e, he⟩ := hops.refuse held a hvalid
      rw [he]
      exact DiskM.within_throw _ e
    | true =>
      intro d
      rw [hops.snd_write hvalid, hroot]
      exact DefinitionFormat.within_writeFile (h _ ha) d
  deletes held name hroot hname := by
    cases hheld : held.get? name with
    | none =>
      obtain ⟨e, he⟩ := hops.unknown held name hheld
      rw [he]
      exact DiskM.within_throw _ e
    | some a =>
      intro d
      rw [hops.delete held name (by rw [hheld]; rfl), DefinitionFormat.run_delete, hroot]
      exact DefinitionFormat.sameOutside_tryRemove (h name hname) d

/-- **Names without a slash** keep their files in the folder. -/
theorem Keep.confined_of_noSlash (hops : ops.Keep format) (root : Path) :
    ops.Confined format root fun name => '/' ∉ name.toList :=
  hops.confined fun _ hname => .inl (DefinitionFormat.inside_of_noSlash format root hname)

/-- A name whose file is elsewhere is written elsewhere. -/
theorem Keep.inside_or_nowhere (hops : ops.Keep format) (h : ops.Confined format root names)
    {a : α} (hvalid : format.isValid a = true) (ha : names (format.nameOf a))
    (htemporary : ∀ d : Disk, d.temporaryName ∉ (format.fileOf root (format.nameOf a)).parts) :
    format.Inside root (format.nameOf a) ∨ format.Nowhere root (format.nameOf a) := by
  obtain ⟨p, part, hfile, hup⟩ :=
    DefinitionFormat.exists_fileOf_eq_child format root (format.nameOf a)
  by_cases hnowhere : format.Nowhere root (format.nameOf a)
  · exact .inr hnowhere
  have hcan : ∀ part ∈ p.parts, part = ".." ∨ Disk.CanName part := by
    intro part' hpart'
    by_contra hcannot
    rw [not_or] at hcannot
    refine hnowhere ⟨part', ?_, hcannot⟩
    rw [hfile]
    simpa [Path.child] using hpart'
  have hunused : ∀ d : Disk, d.temporaryName ∉ p.parts := by
    intro d hmem
    refine htemporary d ?_
    rw [hfile]
    exact List.mem_append_left _ hmem
  -- The file is written on the disk that has the directories on the way.
  obtain ⟨name, hname⟩ := Disk.exists_fileAt?_writeAtomically hcan hunused hup
    (format.encode a).toUTF8
  have hwithin := h.writes ⟨root, .empty⟩ a rfl ha (Disk.ofWay p)
  rw [hops.snd_write hvalid, DefinitionFormat.writeFile, hfile] at hwithin
  refine .inl ⟨part, ?_⟩
  rw [hfile, Path.destination_child hup, List.append_left_inj]
  by_contra hne
  refine hname ((hwithin _ fun part' heq => ?_).trans (Disk.fileAt?_ofWay p _))
  exact hne (List.append_inj' heq rfl).1

/-- Where every name is accepted, operations are confined exactly when the files are. -/
theorem Keep.confined_iff_inside_or_nowhere (hops : ops.Keep format)
    (haccepts : ∀ name, ∃ a, format.isValid a = true ∧ format.nameOf a = name)
    (htemporary : ∀ name, names name → ∀ d : Disk,
      d.temporaryName ∉ (format.fileOf root name).parts) :
    ops.Confined format root names ↔
      ∀ name, names name → format.Inside root name ∨ format.Nowhere root name := by
  refine ⟨fun h name hname => ?_, hops.confined⟩
  obtain ⟨a, hvalid, rfl⟩ := haccepts name
  exact hops.inside_or_nowhere h hvalid hname (htemporary _ hname)

end FolderOperations

/-- Every name is accepted for schemas. -/
theorem Schema.exists_valid (name : String) :
    ∃ s : Schema, s.validate = .ok () ∧ s.name = name :=
  ⟨{ volumeSchema with name }, rfl, rfl⟩

/-- **Where the files of definitions are.** Take any names, of which none leads through a
temporary name. Opening a folder of schemas with defaults of these names, and writing and deleting
schemas of these names, create, replace and remove only files directly in the folder, on every
disk, exactly when the file of each name is directly in the folder or can nowhere be. The same
holds for views. -/
theorem Definitions.confined_iff_inside {root : Path} {names : String → Prop}
    (hschemas : ∀ name, names name → ∀ d : Disk,
      d.temporaryName ∉ (Schema.format.fileOf root name).parts)
    (hviews : ∀ name, names name → ∀ d : Disk,
      d.temporaryName ∉ (View.format.fileOf root name).parts) :
    (SchemaFolder.operations.Confined Schema.format root names ↔
        ∀ name, names name →
          Schema.format.Inside root name ∨ Schema.format.Nowhere root name)
      ∧ (ViewFolder.operations.Confined View.format root names ↔
        ∀ name, names name → View.format.Inside root name ∨ View.format.Nowhere root name) := by
  constructor
  · refine SchemaFolder.keep.confined_iff_inside_or_nowhere (fun name => ?_) hschemas
    obtain ⟨s, hvalid, hname⟩ := Schema.exists_valid name
    exact ⟨s, by simp [Schema.format, hvalid, Except.isOk, Except.toBool], hname⟩
  · refine ViewFolder.keep.confined_iff_inside_or_nowhere (fun name => ?_) hviews
    exact ⟨{ entityType := name }, rfl, rfl⟩

/-- The name of volumes keeps its files in the folder. -/
theorem Definitions.confined_iff_inside_volume :
    SchemaFolder.operations.Confined Schema.format (.ofText "registry") (· = "volume")
      ∧ ViewFolder.operations.Confined View.format (.ofText "registry") (· = "volume") := by
  have hschemas : ∀ name, name = "volume" → ∀ d : Disk,
      d.temporaryName ∉ (Schema.format.fileOf (.ofText "registry") name).parts := by
    rintro name rfl d hmem
    have hhead : ∀ part ∈ (Schema.format.fileOf (.ofText "registry") "volume").parts,
        part.toList.head? ≠ some '.' := by decide +kernel
    exact Disk.ne_temporaryName_of_head? (hhead _ hmem) d rfl
  have hviews : ∀ name, name = "volume" → ∀ d : Disk,
      d.temporaryName ∉ (View.format.fileOf (.ofText "registry") name).parts := by
    rintro name rfl d hmem
    have hhead : ∀ part ∈ (View.format.fileOf (.ofText "registry") "volume").parts,
        part.toList.head? ≠ some '.' := by decide +kernel
    exact Disk.ne_temporaryName_of_head? (hhead _ hmem) d rfl
  obtain ⟨hconfined, hconfined'⟩ := Definitions.confined_iff_inside hschemas hviews
  have hslash : '/' ∉ "volume".toList := by decide
  constructor
  · refine hconfined.2 ?_
    rintro name rfl
    exact .inl (DefinitionFormat.inside_of_noSlash _ _ hslash)
  · refine hconfined'.2 ?_
    rintro name rfl
    exact .inl (DefinitionFormat.inside_of_noSlash _ _ hslash)

/-- Folders of definitions, and a file beside them. -/
def notedRegistry : Disk :=
  ⟨.ofList [(["registry"], .directory), (["registry", "schemas"], .directory),
    (["registry", "views"], .directory), (["registry", "notes.yaml"], .file "kept".toUTF8)], 0⟩

/-- A schema whose name leads out of the folder. -/
def notesSchema : Schema := { volumeSchema with name := "../notes" }

/-- **A name may lead out of the folder:** deleting the valid schema `../notes`, or the view of
that name, removes a file beside the folder, and writing the schema replaces it. -/
theorem Definitions.not_confined_notes :
    notesSchema.validate = .ok ()
      ∧ notedRegistry.fileAt? ["registry", "notes.yaml"] = some "kept".toUTF8
      ∧ ((SchemaFolder.delete ⟨.ofText "registry", .ofList [("../notes", notesSchema)]⟩
          "../notes").run.run notedRegistry).2.fileAt? ["registry", "notes.yaml"] = none
      ∧ ((SchemaFolder.write ⟨.ofText "registry", .empty⟩ notesSchema).run.run
          notedRegistry).2.fileAt? ["registry", "notes.yaml"] = some notesSchema.toYaml.toUTF8
      ∧ ¬ SchemaFolder.operations.Confined Schema.format (.ofText "registry")
        (fun name => ∃ s : Schema, s.validate = .ok () ∧ s.name = name)
      ∧ ¬ ViewFolder.operations.Confined View.format (.ofText "registry") fun _ => True := by
  have hbefore : notedRegistry.fileAt? ["registry", "notes.yaml"] = some "kept".toUTF8 := by
    decide +kernel
  have hdeleted : ((SchemaFolder.delete ⟨.ofText "registry", .ofList [("../notes", notesSchema)]⟩
      "../notes").run.run notedRegistry).2.fileAt? ["registry", "notes.yaml"] = none := by
    decide +kernel
  have hdeleted' : ((ViewFolder.delete ⟨.ofText "registry",
      .ofList [("../notes", { entityType := "../notes" })]⟩ "../notes").run.run
        notedRegistry).2.fileAt? ["registry", "notes.yaml"] = none := by
    decide +kernel
  have hwritten : ((SchemaFolder.write ⟨.ofText "registry", .empty⟩ notesSchema).run.run
      notedRegistry).2.fileAt? ["registry", "notes.yaml"]
        = some notesSchema.toYaml.toUTF8 := by
    decide +kernel
  -- Deleting in a confined folder would leave the file beside it as it was.
  refine ⟨rfl, hbefore, hdeleted, hwritten, fun h => ?_, fun h => ?_⟩
  · have hsame := h.deletes ⟨.ofText "registry", .ofList [("../notes", notesSchema)]⟩ "../notes" rfl
      ⟨notesSchema, rfl, rfl⟩ notedRegistry ["registry", "notes.yaml"] fun part heq => by
        have hfolder : (Schema.format.folderIn (.ofText "registry")).destination
            = ["registry", "schemas"] := by decide +kernel
        simp [hfolder] at heq
    rw [hbefore] at hsame
    cases hdeleted.symm.trans hsame
  · have hsame := h.deletes ⟨.ofText "registry",
      .ofList [("../notes", { entityType := "../notes" })]⟩ "../notes" rfl trivial notedRegistry
      ["registry", "notes.yaml"] fun part heq => by
        have hfolder : (View.format.folderIn (.ofText "registry")).destination
            = ["registry", "views"] := by decide +kernel
        simp [hfolder] at heq
    rw [hbefore] at hsame
    cases hdeleted'.symm.trans hsame

end Inventory
