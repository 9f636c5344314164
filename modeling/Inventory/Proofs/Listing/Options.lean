/-
# The options of a choice

The options that `mark_selectable` offers, and what `matches` leaves of them.

The filter table offers for a column the distinct texts of the records that are not
empty (`FilterTable.mem_options_iff`, `FilterTable.nodup_options`). A query with one of
them is meant to return the records that have this text, and so the options to divide up
the records that have a text (`ListView.OptionsWork`).

| option | a query with it returns |
| --- | --- |
| not blank | the records with that text |
| blank | all records, because a filter with a blank text is left out |

So the options do what is meant when a text that is blank and not empty is the text of
every record or of none (`ListView.exists_optionsWork_iff`).
-/

import Inventory.Listing.Query
import Inventory.Proofs.Record.Slots

namespace Inventory

namespace FilterTable

/-! ### Distinct texts -/

/-- The texts of a list, without those that the next text repeats. -/
def dropRepeats (texts : List String) : List String :=
  texts.foldr (fun t rest => if rest.head? = some t then rest else t :: rest) []

/-- A text is dropped when the one that is kept behind it is the same. -/
theorem dropRepeats_cons (t : String) (rest : List String) :
    dropRepeats (t :: rest)
      = if (dropRepeats rest).head? = some t then dropRepeats rest else t :: dropRepeats rest :=
  rfl

/-- What is kept stays in its order. -/
theorem dropRepeats_sublist (texts : List String) : (dropRepeats texts).Sublist texts := by
  induction texts with
  | nil => exact .slnil
  | cons t rest ih =>
    rw [dropRepeats_cons]
    split
    · exact ih.cons t
    · exact ih.cons_cons t

/-- Each text that occurs is kept. -/
theorem mem_dropRepeats_iff {texts : List String} {t : String} :
    t ∈ dropRepeats texts ↔ t ∈ texts := by
  refine ⟨(dropRepeats_sublist texts).mem, fun h => ?_⟩
  induction texts with
  | nil => cases h
  | cons first rest ih =>
    rw [dropRepeats_cons]
    split
    · rename_i hhead
      rcases List.mem_cons.1 h with rfl | h
      · exact List.mem_of_mem_head? hhead
      · exact ih h
    · rcases List.mem_cons.1 h with rfl | h
      · exact List.mem_cons_self
      · exact List.mem_cons_of_mem _ (ih h)

/-- In a list in order equal texts stand side by side, so none is left twice. -/
theorem nodup_dropRepeats {texts : List String} (h : texts.Pairwise (· ≤ ·)) :
    (dropRepeats texts).Nodup := by
  induction texts with
  | nil => exact List.nodup_nil
  | cons t rest ih =>
    obtain ⟨hle, hrest⟩ := List.pairwise_cons.1 h
    rw [dropRepeats_cons]
    split
    · exact ih hrest
    · rename_i hhead
      refine List.nodup_cons.2 ⟨fun hmem => hhead ?_, ih hrest⟩
      have hpairs : (dropRepeats rest).Pairwise (· ≤ ·) := hrest.sublist (dropRepeats_sublist rest)
      cases hdrop : dropRepeats rest with
      | nil => simp [hdrop] at hmem
      | cons first others =>
        rw [hdrop] at hmem hpairs
        have hfirst : first ∈ rest := mem_dropRepeats_iff.1 (hdrop ▸ List.mem_cons_self)
        rcases List.mem_cons.1 hmem with rfl | hother
        · rfl
        · have hge : first ≤ t := (List.pairwise_cons.1 hpairs).1 t hother
          rw [List.head?_cons, String.le_antisymm hge (hle first hfirst)]

/-- The distinct texts are those that occur. -/
theorem mem_distinctSorted_iff {texts : List String} {t : String} :
    t ∈ distinctSorted texts ↔ t ∈ texts :=
  mem_dropRepeats_iff.trans (List.mergeSort_perm texts _).mem_iff

/-- No text occurs twice among them. -/
theorem nodup_distinctSorted (texts : List String) : (distinctSorted texts).Nodup :=
  nodup_dropRepeats (pairwise_le_mergeSort texts)

/-- **The options** are the texts of the records that are not empty. -/
theorem mem_options_iff {records : List Record} {column option : String} :
    option ∈ options records column ↔
      option ≠ "" ∧ ∃ r ∈ records, r.text? column = some option := by
  rw [options, mem_distinctSorted_iff, List.mem_filter, List.mem_filterMap, decide_eq_true_eq,
    and_comm]

/-- No option is offered twice. -/
theorem nodup_options (records : List Record) (column : String) :
    (options records column).Nodup :=
  nodup_distinctSorted _

/-! ### The filter of a column -/

/-- A field that can be filtered has a filter of its name. -/
theorem get?_ofSchema {s : Schema} {f : Field} (hf : f ∈ s.fields) (hfilter : f.isFilterable) :
    ∃ c, (ofSchema s).get? f.name = some c ∧ c.field = f.name := by
  have hkey : f.name ∈ (ofSchema s).keys := by
    rw [ofSchema, OrderedMap.keys_ofList, List.mem_eraseDups, List.map_map]
    exact List.mem_map_of_mem (f := fun f : Field => f.name)
      (List.mem_filter.2 ⟨hf, hfilter⟩)
  obtain ⟨c, hc⟩ := Option.isSome_iff_exists.1 (OrderedMap.isSome_get?_iff.2 hkey)
  refine ⟨c, hc, ?_⟩
  rw [ofSchema, OrderedMap.get?_ofList] at hc
  obtain ⟨f', -, he⟩ := List.mem_map.1
    (List.mem_reverse.1 (OrderedMap.mem_of_lookupIn_eq_some hc))
  obtain ⟨hname, rfl⟩ := Prod.mk.inj he
  exact hname

/-- The names with a filter are those of fields that can be filtered. -/
theorem mem_keys_ofSchema_iff {s : Schema} {name : String} :
    name ∈ (ofSchema s).keys ↔ ∃ f ∈ s.fields, f.isFilterable = true ∧ f.name = name := by
  rw [ofSchema, OrderedMap.keys_ofList, List.mem_eraseDups, List.map_map]
  simp [List.mem_map, List.mem_filter, and_assoc]

/-- **Marking all at once:** the filters under the named keys become choices, in any order. -/
theorem markSelectable_eq_mapValues (t : FilterTable) (selectable : List String)
    (records : List Record) :
    markSelectable t selectable records = t.mapValues fun name f =>
      if name ∈ selectable then { f with widget := .select (options records name) } else f := by
  induction selectable generalizing t with
  | nil => exact (OrderedMap.mapValues_eq_self fun _ _ => rfl).symm
  | cons first rest ih =>
    have hcons : markSelectable t (first :: rest) records
        = markSelectable (t.modify first fun f =>
            { f with widget := .select (options records first) }) rest records := rfl
    rw [hcons, ih, OrderedMap.modify, OrderedMap.mapValues_mapValues]
    refine OrderedMap.mapValues_congr fun e _ => ?_
    by_cases hfirst : e.1 = first
    · by_cases hrest : e.1 ∈ rest <;> simp [hfirst, hfirst ▸ hrest]
    · simp [hfirst]

/-- A column that is marked has a choice, every other one the filter that it had. -/
theorem get?_markSelectable (t : FilterTable) (selectable : List String) (records : List Record)
    (name : String) :
    (markSelectable t selectable records).get? name = (t.get? name).map fun f =>
      if name ∈ selectable then { f with widget := .select (options records name) } else f := by
  rw [markSelectable_eq_mapValues, OrderedMap.get?_mapValues]

end FilterTable

namespace ListView

variable {v : ListView} {records : List Record} {column option : String}

/-- The rows that a query with one choice returns. -/
def rowsFor (v : ListView) (records : List Record) (column option : String) : List Record :=
  (v.query records { filters := .ofList [(column, option)] }).2

/-- What is asked of the options of a column: none is offered twice, each returns the
records that have its text, and there are some, and each record with a text that is not
empty is returned for one of them. -/
structure OptionsWork (v : ListView) (records : List Record) (column : String)
    (options : List String) : Prop where
  nodup : options.Nodup
  exact : ∀ option ∈ options,
    v.rowsFor records column option = records.filter fun r => r.text? column = some option
  nonempty : ∀ option ∈ options, v.rowsFor records column option ≠ []
  once : ∀ r ∈ records, ∀ text, r.text? column = some text → text ≠ "" →
    ∃! option, option ∈ options ∧ r ∈ v.rowsFor records column option

/-- The filter of a column that can be filtered and has a choice. -/
theorem get?_filterTable (hselectable : column ∈ v.selectable)
    (hfilter : ∃ f ∈ v.schema.fields, f.name = column ∧ f.isFilterable) (records : List Record) :
    ∃ c, (v.filterTable records).get? column = some c ∧ c.field = column
      ∧ c.widget = .select (FilterTable.options records column) := by
  obtain ⟨f, hf, rfl, hfilterable⟩ := hfilter
  obtain ⟨c, hc, hfield⟩ := FilterTable.get?_ofSchema hf hfilterable
  refine ⟨{ c with widget := .select (FilterTable.options records f.name) }, ?_, hfield, rfl⟩
  rw [filterTable, FilterTable.get?_markSelectable, hc, Option.map_some, if_pos hselectable]

/-- **A query of one column** returns the records that its filter admits, or all records when
the text is blank. -/
theorem rowsFor_of_get? {c : ColumnFilter}
    (hc : (v.filterTable records).get? column = some c) (option : String) :
    v.rowsFor records column option =
      if Text.isBlank option.toList then records
      else records.filter fun r => ListQuery.admits r (c, option) := by
  have hactive : ListQuery.active { filters := .ofList [(column, option)] }
      (v.filterTable records) = if Text.isBlank option.toList then [] else [(c, option)] := by
    have hentries : (OrderedMap.ofList [(column, option)]).entries = [(column, option)] := rfl
    rw [ListQuery.active, hentries]
    by_cases hblank : Text.isBlank option.toList = true
    · simp [hblank]
    · simp [hblank, hc]
  have hquery : v.rowsFor records column option = records.filter fun r =>
      (ListQuery.active { filters := .ofList [(column, option)] }
        (v.filterTable records)).all (ListQuery.admits r) := rfl
  rw [hquery, hactive]
  split
  · exact List.filter_eq_self.2 fun _ _ => rfl
  · exact List.filter_congr fun r _ => by rw [List.all_cons, List.all_nil, Bool.and_true]

/-- **A query with one choice** returns the records with that text, or all records when
the text is blank. -/
theorem rowsFor_eq (hselectable : column ∈ v.selectable)
    (hfilter : ∃ f ∈ v.schema.fields, f.name = column ∧ f.isFilterable) (records : List Record)
    (option : String) :
    v.rowsFor records column option =
      if Text.isBlank option.toList then records
      else records.filter fun r => r.text? column = some option := by
  obtain ⟨c, hc, hfield, hwidget⟩ := get?_filterTable hselectable hfilter records
  have hadmits (r : Record) : ListQuery.admits r (c, option)
      = decide (r.text? column = some option) := by
    rw [ListQuery.admits, hfield, hwidget]
    cases r.text? column <;> simp
  rw [rowsFor_of_get? hc]
  simp only [hadmits]

/-- A text that is blank and not empty is the text of every record or of none. -/
def BlankIsCommon (records : List Record) (column : String) : Prop :=
  ∀ r ∈ records, ∀ text, r.text? column = some text → text ≠ "" →
    Text.isBlank text.toList = true → ∀ r' ∈ records, r'.text? column = some text

/-- **Where blank texts are common,** a query with an option returns the records with
that text. -/
theorem rowsFor_option (hselectable : column ∈ v.selectable)
    (hfilter : ∃ f ∈ v.schema.fields, f.name = column ∧ f.isFilterable)
    (hcommon : BlankIsCommon records column)
    (hoption : option ∈ FilterTable.options records column) :
    v.rowsFor records column option = records.filter fun r => r.text? column = some option := by
  obtain ⟨hne, r, hr, htext⟩ := FilterTable.mem_options_iff.1 hoption
  rw [rowsFor_eq hselectable hfilter]
  split
  · rename_i hblank
    have hall := hcommon r hr option htext hne hblank
    exact (List.filter_eq_self.2 fun r' hr' => decide_eq_true (hall r' hr')).symm
  · rfl

/-- Where a blank text is that of every record or of none, the options work. -/
theorem optionsWork_of_blankIsCommon (hselectable : column ∈ v.selectable)
    (hfilter : ∃ f ∈ v.schema.fields, f.name = column ∧ f.isFilterable)
    (hcommon : BlankIsCommon records column) :
    v.OptionsWork records column (FilterTable.options records column) := by
  have hmem {option : String} (hoption : option ∈ FilterTable.options records column)
      {r : Record} : r ∈ v.rowsFor records column option
        ↔ r ∈ records ∧ r.text? column = some option := by
    rw [rowsFor_option hselectable hfilter hcommon hoption, List.mem_filter, decide_eq_true_eq]
  refine ⟨FilterTable.nodup_options records column,
    fun option => rowsFor_option hselectable hfilter hcommon, fun option hoption hnil => ?_,
    fun r hr text htext hne => ?_⟩
  · obtain ⟨-, r, hr, htext⟩ := FilterTable.mem_options_iff.1 hoption
    have hrow := (hmem hoption).2 ⟨hr, htext⟩
    rw [hnil] at hrow
    cases hrow
  · have hoption := FilterTable.mem_options_iff.2 ⟨hne, r, hr, htext⟩
    refine ⟨text, ⟨hoption, (hmem hoption).2 ⟨hr, htext⟩⟩, ?_⟩
    rintro other ⟨hother, hrow⟩
    exact Option.some.inj (((hmem hother).1 hrow).2.symm.trans htext)

/-- Where the options work, a blank text is that of every record or of none. -/
theorem blankIsCommon_of_optionsWork (hselectable : column ∈ v.selectable)
    (hfilter : ∃ f ∈ v.schema.fields, f.name = column ∧ f.isFilterable)
    (h : v.OptionsWork records column (FilterTable.options records column)) :
    BlankIsCommon records column := by
  intro r hr text htext hne hblank r' hr'
  have hexact := h.exact text (FilterTable.mem_options_iff.2 ⟨hne, r, hr, htext⟩)
  rw [rowsFor_eq hselectable hfilter, if_pos hblank] at hexact
  exact of_decide_eq_true (List.filter_eq_self.1 hexact.symm r' hr')

/-- **When the options of a choice do what is meant.** A column that is marked selectable
and can be filtered has a choice in the filter table. Its options return what is meant
exactly when a blank text that is not empty is the text of every record or of none. -/
theorem exists_optionsWork_iff (hselectable : column ∈ v.selectable)
    (hfilter : ∃ f ∈ v.schema.fields, f.name = column ∧ f.isFilterable) (records : List Record) :
    ∃ c options, (v.filterTable records).get? column = some c ∧ c.widget = .select options
      ∧ (v.OptionsWork records column options ↔ BlankIsCommon records column) := by
  obtain ⟨c, hc, -, hwidget⟩ := get?_filterTable hselectable hfilter records
  exact ⟨c, _, hc, hwidget, blankIsCommon_of_optionsWork hselectable hfilter,
    optionsWork_of_blankIsCommon hselectable hfilter⟩

/-- Addresses with a name and a scope. -/
def addressSchema : Schema where
  name := "address"
  label := "Address"
  labelField := "name"
  fields := [.string "name" "Name", .string "scope" "Scope"]

/-- The list page of addresses, with a choice among the scopes. -/
def addressView : ListView := ⟨addressSchema, ["scope"]⟩

/-- An address. -/
def address (id : BitVec 128) (scope : String) : Record where
  id := ⟨id⟩
  schema := addressSchema
  slots := .ofList [("name", .absent), ("scope", .string scope)]

theorem builtOn_address (id : BitVec 128) (scope : String) :
    (address id scope).BuiltOn addressSchema :=
  .set (.new ⟨id⟩) (fun _ h => by cases h)
    (rfl : (Record.new ⟨id⟩ addressSchema).set "scope" (.string scope) = .ok (address id scope))

/-- Addresses of which one has no scope: whether the options of the scope work is decided so. -/
theorem exists_optionsWork_iff_address :
    ∃ c options,
      (addressView.filterTable [address 1 "vpc", address 2 "", address 3 "vpc"]).get? "scope"
        = some c
      ∧ c.widget = .select options
      ∧ (addressView.OptionsWork [address 1 "vpc", address 2 "", address 3 "vpc"] "scope" options
        ↔ BlankIsCommon [address 1 "vpc", address 2 "", address 3 "vpc"] "scope") :=
  exists_optionsWork_iff (by decide) (by decide) _

/-- The scope of one address is a space: this option returns the other address too. -/
theorem not_optionsWork_address :
    addressSchema.validate = .ok ()
      ∧ (∀ r ∈ [address 1 " ", address 2 "vpc"], r.BuiltOn addressSchema)
      ∧ ∃ c options,
        (addressView.filterTable [address 1 " ", address 2 "vpc"]).get? "scope" = some c
          ∧ c.widget = .select options
          ∧ ¬ addressView.OptionsWork [address 1 " ", address 2 "vpc"] "scope" options := by
  have hselectable : "scope" ∈ addressView.selectable := by decide
  have hfilter : ∃ f ∈ addressView.schema.fields, f.name = "scope" ∧ f.isFilterable := by decide
  refine ⟨rfl, fun r hr => ?_, ?_⟩
  · rcases List.mem_cons.1 hr with rfl | hr
    · exact builtOn_address 1 " "
    · rw [List.mem_singleton.1 hr]
      exact builtOn_address 2 "vpc"
  · obtain ⟨c, hc, -, hwidget⟩ := get?_filterTable hselectable hfilter
      [address 1 " ", address 2 "vpc"]
    refine ⟨c, _, hc, hwidget, fun hwork => ?_⟩
    have hcommon := blankIsCommon_of_optionsWork hselectable hfilter hwork
    have hother := hcommon (address 1 " ") List.mem_cons_self " " rfl (by decide) (by decide)
      (address 2 "vpc") (List.mem_cons_of_mem _ List.mem_cons_self)
    exact absurd hother (by decide)

end ListView
end Inventory
