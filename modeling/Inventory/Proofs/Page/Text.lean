/-
# What the text of a page says

Pages as JSON texts.

The JSON text of an element lists its entries in their order, so elements with one text are
one document (`Tree.toData_eq_of_toJson_eq`), and under every key they hold nodes that are
one document (`Tree.get?_toData_eq`). This needs that all their numbers are integers.

| | has integers for its numbers |
| --- | --- |
| properties | when their values do |
| an overlay, a filter | when what it is made of does |
| a rendering of a record, a page | always |
-/

import Inventory.Proofs.Json.RoundTrip
import Inventory.Proofs.Page.Layout

namespace Inventory

/-- An element is an object of what its nodes are. -/
theorem Node.entriesToData_eq (entries : List (String × Node)) :
    Node.entriesToData entries = entries.map fun e => (e.1, e.2.toData) := by
  induction entries with
  | nil => rfl
  | cons e rest ih => rw [Node.entriesToData, ih, List.map_cons]

namespace Tree

variable {t t' : Tree}

/-- An element is written as the object of what its entries are written as. -/
theorem toData_eq (t : Tree) : Tree.toData t = .object (t.mapValues fun _ node => node.toData) :=
  congrArg (fun entries => Data.object ⟨entries⟩) (Node.entriesToData_eq t.entries)

/-- Every number in the element is an integer. -/
def Integral (t : Tree) : Prop := ∀ e ∈ t.entries, e.2.toData.isIntegral = true

/-- An element holds integers when each node does. -/
theorem isIntegral_toData_iff : (Tree.toData t).isIntegral = true ↔ Integral t := by
  rw [toData_eq]
  change Data.holdIntegral (t.entries.map fun e => (e.1, e.2.toData)) = true ↔ _
  rw [Data.holdIntegral_iff, List.forall_mem_map]
  rfl

/-! ### Elements with integers for their numbers -/

/-- An overlay of such elements is one. -/
theorem Integral.merge (h : Integral t) (h' : Integral t') : Integral (t.merge t') :=
  fun e he => (OrderedMap.mem_of_mem_merge he).elim (h e) (h' e)

/-- A filter leaves such an element. -/
theorem Integral.filter (h : Integral t) (p : String → Node → Bool) : Integral (t.filter p) :=
  fun e he => h e (List.mem_of_mem_filter he)

/-- Entries that hold integers make such an element. -/
theorem integral_ofList {entries : List (String × Node)}
    (h : ∀ e ∈ entries, e.2.toData.isIntegral = true) : Integral (OrderedMap.ofList entries) :=
  fun e he => (OrderedMap.mem_of_mem_merge he).elim (fun hnil => absurd hnil List.not_mem_nil) (h e)

theorem integral_ofProperties {properties : List (String × Data)}
    (h : ∀ e ∈ properties, e.2.isIntegral = true) : Integral (ofProperties properties) :=
  integral_ofList (List.forall_mem_map.2 h)

/-! ### Lookups from the text -/

/-- **Elements with one text** hold, under every key, nodes with one text. -/
theorem get?_toData_eq (h : Tree.toData t = Tree.toData t') (key : String) :
    (t.get? key).map Node.toData = (t'.get? key).map Node.toData := by
  rw [toData_eq, toData_eq] at h
  have hget := congrArg (OrderedMap.get? · key) (Data.object.inj h)
  simpa only [OrderedMap.get?_mapValues] using hget

/-- Elements with one text are one document. -/
theorem toData_eq_of_toJson_eq (ht : Integral t) (ht' : Integral t')
    (h : (Tree.toData t).toJson = (Tree.toData t').toJson) : Tree.toData t = Tree.toData t' :=
  Data.eq_of_toJson_eq (isIntegral_toData_iff.2 ht) (isIntegral_toData_iff.2 ht') h

end Tree

/-! ### Renderings and pages -/

namespace FieldList

theorem isIntegral_items (f : Field) (v : FieldValue) : ∀ d ∈ items f v, d.isIntegral = true := by
  intro d hd
  cases v with
  | absent => cases hd
  | items rows =>
    obtain ⟨item, -, rfl⟩ := List.mem_map.1 hd
    exact Data.holdIntegral_iff.2 (List.forall_mem_map.2 fun _ _ => rfl)
  | _ =>
    obtain rfl := List.mem_singleton.1 hd
    rfl

theorem integral_fieldElement (f : Field) (v : FieldValue) : Tree.Integral (fieldElement f v) := by
  refine Tree.integral_ofProperties ?_
  have hitems : Data.areIntegral (items f v) = true :=
    Data.areIntegral_iff.2 (isIntegral_items f v)
  simp [hitems, Data.isIntegral]

theorem integral_header (r : Record) (context : RenderContext) :
    Tree.Integral (header r context) := by
  refine Tree.integral_ofProperties fun e he => ?_
  rcases List.mem_append.1 he with he | he
  · simp only [List.mem_cons, List.not_mem_nil, or_false] at he
    rcases he with rfl | rfl | rfl | rfl <;> rfl
  · cases hlang : context.langcode with
    | none => simp [hlang] at he
    | some langcode =>
      simp only [hlang, List.mem_singleton] at he
      rw [he]
      rfl

/-- A rendering holds integers. -/
theorem integral_header_merge_shown (r : Record) (context : RenderContext) :
    Tree.Integral ((header r context).merge (shown r)) := by
  refine (integral_header r context).merge fun e he => ?_
  obtain ⟨f, -, h⟩ := List.mem_filterMap.1 he
  obtain ⟨node, hnode, rfl⟩ := Option.map_eq_some_iff.1 h
  unfold shownNode? at hnode
  split at hnode
  · split at hnode
    · cases hnode
    · obtain rfl := Option.some.inj hnode
      exact Tree.isIntegral_toData_iff.2 (integral_fieldElement f _)
  · cases hnode

end FieldList

namespace Composer

/-- A container of such a body holds integers. -/
theorem integral_container (f : Fieldset) (weight : Int32) {t : Tree} (h : Tree.Integral t) :
    Tree.Integral (container f weight t) := by
  rw [container_eq]
  refine Tree.Integral.merge (Tree.integral_ofProperties ?_) (h.filter _)
  simp [Data.isIntegral]

/-- A page holds integers. -/
theorem integral_pageFrom (start : Int32) (r : Record) (view : View) (context : RenderContext) :
    Tree.Integral (pageFrom start r view context) := by
  refine Tree.Integral.filter (.merge (FieldList.integral_header_merge_shown r context) ?_) _
  refine Tree.integral_ofList fun e he => ?_
  obtain ⟨i, hi⟩ := List.mem_iff_getElem?.1 he
  rw [getElem?_containers] at hi
  obtain ⟨f, -, rfl⟩ := Option.map_eq_some_iff.1 hi
  exact Tree.isIntegral_toData_iff.2 (integral_container f _
    (FieldList.integral_header_merge_shown (r.withOnly f.fields) context))

end Composer
end Inventory
