/-
# Searching a column

`matches` of `ListQuery` on a column with a text widget.

A column that is not a choice is searched by a text. The search is meant to find every record
whose text has this text in it, in whatever case (`ListView.FindsPieces`). Both are compared in
lower case, and the lower case of a `Σ` depends on the letters around it.

| column | searched text | records with it in their text |
| --- | --- | --- |
| of texts | settled: no `Σ` of it looks past its ends | are all found |
| of texts | not settled, such as `ΑΣ` | may be lost, such as `ΑΣΑ` |
| of any other scalars | any | are all found, because no text there has a `Σ` |

So a search finds what is meant exactly when the column holds no texts or the searched text is
settled (`ListView.findsPieces_iff`).
-/

import Inventory.Proofs.Listing.Options
import Inventory.Proofs.Text.Numerals
import Inventory.Proofs.Text.Sigma

namespace Inventory

/-! ### Texts of other scalars -/

namespace FieldValue

/-- Only texts have a `Σ`. -/
theorem sigma_notMem {v : FieldValue} {t : PrimitiveType} {text : String}
    (hfits : v.conformsTo (.primitive t) = true) (ht : t ≠ .string) (htext : v.text? = some text) :
    'Σ' ∉ text.toList := by
  cases v with
  | absent => cases htext
  | items rows => cases htext
  | string s => cases t <;> first | exact absurd rfl ht | cases hfits
  | boolean b => cases b <;> (obtain rfl := Option.some.inj htext; decide)
  | integer n =>
    obtain rfl := Option.some.inj htext
    exact Text.notMem_toString_int (by decide) (by decide) n
  | timestamp t =>
    obtain rfl := Option.some.inj htext
    exact Timestamp.notMem_rfc3339 (by decide) (by decide) t

end FieldValue

/-! ### The records that a search finds -/

/-- A filter is a text to search for until its column is marked. -/
theorem FilterTable.widget_ofSchema {s : Schema} {name : String} {c : ColumnFilter}
    (h : (ofSchema s).get? name = some c) : c.widget = .text := by
  rw [ofSchema, OrderedMap.get?_ofList] at h
  obtain ⟨f, -, he⟩ := List.mem_map.1
    (List.mem_reverse.1 (OrderedMap.mem_of_lookupIn_eq_some h))
  obtain ⟨-, rfl⟩ := Prod.mk.inj he
  rfl

namespace ListView

variable {v : ListView} {column : String} {f : Field}

/-- **A search** returns the records with the text in theirs, both in lower case. -/
theorem mem_rowsFor_iff (hmem : f ∈ v.schema.fields) (hfilter : f.isFilterable)
    (hsearched : f.name ∉ v.selectable) {records : List Record} {needle : String} {r : Record} :
    r ∈ v.rowsFor records f.name needle ↔ r ∈ records ∧
      (Text.isBlank needle.toList = true ∨ ∃ text, r.text? f.name = some text
        ∧ Text.occursIn (Text.lower needle.toList) (Text.lower text.toList) = true) := by
  obtain ⟨c, hc, hfield⟩ := FilterTable.get?_ofSchema hmem hfilter
  have htable : (v.filterTable records).get? f.name = some c := by
    rw [filterTable, FilterTable.get?_markSelectable, hc, Option.map_some, if_neg hsearched]
  rw [rowsFor_of_get? htable]
  by_cases hblank : Text.isBlank needle.toList = true
  · simp [hblank]
  · rw [if_neg hblank, List.mem_filter, ListQuery.admits, hfield, FilterTable.widget_ofSchema hc]
    cases r.text? f.name <;> simp [hblank]

/-- A search for `needle` returns every record with `needle` in its text. -/
def FindsPieces (v : ListView) (column needle : String) : Prop :=
  ∀ records, ∀ r ∈ records, r.BuiltOn v.schema → ∀ text, r.text? column = some text →
    needle.toList <:+: text.toList → r ∈ v.rowsFor records column needle

/-- A text whose lower case does not depend on what is around it is found in every text. -/
theorem findsPieces_of_settled (hmem : f ∈ v.schema.fields) (hfilter : f.isFilterable)
    (hsearched : f.name ∉ v.selectable) {needle : String}
    (hsettled : Text.Settled needle.toList) : v.FindsPieces f.name needle := by
  intro records r hr _ text htext hpiece
  refine (mem_rowsFor_iff hmem hfilter hsearched).2 ⟨hr, .inr ⟨text, htext, ?_⟩⟩
  exact Text.foundInAll_iff_settled.2 hsettled text.toList hpiece

/-- What a record holds in a column fits its field. -/
theorem conformsTo_of_text? (hfield : v.schema.field? f.name = some f) {r : Record}
    (hr : r.BuiltOn v.schema) {text : String} (htext : r.text? f.name = some text) :
    ∃ value, value.conformsTo f.type = true ∧ FieldValue.text? value = some text := by
  obtain ⟨value, hvalue, hof⟩ := Option.bind_eq_some_iff.1 htext
  obtain ⟨f', hf', hfits⟩ := hr.wellFormed.fits f.name value hvalue
  rw [hr.schema_eq, hfield] at hf'
  obtain rfl := Option.some.inj hf'
  exact ⟨value, hfits, hof⟩

/-- Any text can be that of a record. -/
theorem exists_builtOn_text (hfield : v.schema.field? f.name = some f)
    (htype : f.type = .primitive .string) (text : String) :
    ∃ r : Record, r.BuiltOn v.schema ∧ r.text? f.name = some text := by
  have hfits : (FieldValue.string text).conformsTo f.type = true := by
    rw [htype]
    rfl
  have hset : (Record.new ⟨0⟩ v.schema).set f.name (.string text) = .ok _ :=
    Record.set_eq_ok_iff.2 ⟨f, hfield, hfits, rfl⟩
  refine ⟨_, .set (.new ⟨0⟩) (fun _ h => by cases h) hset, ?_⟩
  rw [Record.text?, OrderedMap.get?_insert_self]
  rfl

/-- **When a search finds what is meant.** In a column that can be filtered and is no choice, a
search returns every record with the searched text in its own exactly when the column is not one
of texts, or every `Σ` of the searched text becomes the same in every text. -/
theorem findsPieces_iff (hfield : v.schema.field? column = some f) (hfilter : f.isFilterable)
    (hsearched : column ∉ v.selectable) (needle : String) :
    v.FindsPieces column needle
      ↔ f.type ≠ .primitive .string ∨ Text.Settled needle.toList := by
  have hmem := List.mem_of_find?_eq_some hfield
  obtain rfl : f.name = column := by simpa using List.find?_some hfield
  constructor
  · intro hfinds
    refine or_iff_not_imp_left.2 fun htype => ?_
    by_cases hblank : Text.isBlank needle.toList = true
    · refine Text.settled_of_notMem fun hsigma => ?_
      exact absurd (List.all_eq_true.1 hblank _ hsigma) (by decide)
    · -- a record built with any given text shows that the needle is found in all of them
      refine Text.foundInAll_iff_settled.1 fun t hpiece => ?_
      obtain ⟨r, hr, htext⟩ := exists_builtOn_text hfield (not_not.1 htype) (.ofList t)
      have hrow := hfinds [r] r List.mem_cons_self hr _ htext (by rwa [String.toList_ofList])
      obtain ⟨-, hany⟩ := (mem_rowsFor_iff hmem hfilter hsearched).1 hrow
      obtain ⟨text, hsome, hoccurs⟩ := hany.resolve_left hblank
      obtain rfl := Option.some.inj (htext.symm.trans hsome)
      rwa [String.toList_ofList] at hoccurs
  · rintro (htype | hsettled)
    · intro records r hr hbuilt text htext hpiece
      obtain ⟨value, hfits, hof⟩ := conformsTo_of_text? hfield hbuilt htext
      obtain ⟨t, ht⟩ : ∃ t, f.type = .primitive t := by
        cases hf : f.type with
        | primitive t => exact ⟨t, rfl⟩
        | composite properties => simp [Field.isFilterable, FieldType.isComposite, hf] at hfilter
      rw [ht] at hfits htype
      -- no text of another type has a capital sigma, and so no piece of it has one
      have hsigma := FieldValue.sigma_notMem hfits (fun h => htype (congrArg _ h)) hof
      have hneedle : 'Σ' ∉ needle.toList := fun h => hsigma (hpiece.subset h)
      exact findsPieces_of_settled hmem hfilter hsearched (Text.settled_of_notMem hneedle)
        records r hr hbuilt text htext hpiece
    · exact findsPieces_of_settled hmem hfilter hsearched hsettled

/-- The list page of addresses without a choice. -/
def plainAddressView : ListView := ⟨addressSchema, []⟩

/-- `ΣΑ` is found wherever it stands, `ΑΣ` is not. -/
theorem findsPieces_iff_address :
    plainAddressView.FindsPieces "scope" "ΣΑ" ∧ ¬ plainAddressView.FindsPieces "scope" "ΑΣ" := by
  have hfield : addressSchema.field? "scope" = some (.string "scope" "Scope") := by decide
  have hstring : (Field.string "scope" "Scope").type = .primitive .string := rfl
  have hiff := findsPieces_iff (v := plainAddressView) hfield rfl (List.not_mem_nil)
  refine ⟨(hiff "ΣΑ").2 (.inr (by decide +kernel)), fun h => ?_⟩
  rcases (hiff "ΑΣ").1 h with htype | hsettled
  · exact htype hstring
  · exact absurd hsettled (by decide +kernel)

/-- The scope of an address is `ΑΣΑ`, whose lower case is `ασα`. It is not found by `ΑΣ`, whose
lower case is `ας`. -/
theorem not_findsPieces_address :
    addressSchema.validate = .ok ()
      ∧ (address 1 "ΑΣΑ").BuiltOn addressSchema
      ∧ (address 1 "ΑΣΑ").text? "scope" = some "ΑΣΑ"
      ∧ "ΑΣ".toList <:+: "ΑΣΑ".toList
      ∧ Text.isBlank "ΑΣ".toList = false
      ∧ address 1 "ΑΣΑ" ∉ plainAddressView.rowsFor [address 1 "ΑΣΑ"] "scope" "ΑΣ" := by
  refine ⟨rfl, builtOn_address 1 "ΑΣΑ", rfl, ⟨[], ['Α'], rfl⟩, by decide, fun hrow => ?_⟩
  have hscope : Field.string "scope" "Scope" ∈ plainAddressView.schema.fields := by decide
  obtain ⟨-, hblank | ⟨text, htext, hoccurs⟩⟩ :=
    (mem_rowsFor_iff hscope rfl (List.not_mem_nil)).1 hrow
  · exact absurd hblank (by decide)
  · obtain rfl : "ΑΣΑ" = text := Option.some.inj htext
    exact absurd hoccurs (by decide +kernel)

end ListView
end Inventory
