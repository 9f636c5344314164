/-
# Marking columns as choices

`mark_selectable` of `FilterTable`.

A view names the columns that become choices. For a valid schema the filter table then is

| field of the schema | its filter |
| --- | --- |
| composite | has none |
| scalar and named | a choice among the distinct texts that are not empty, ascending |
| scalar and not named | a text to search for |

and the names that are ignored are the selectable columns that the check of the view
reports (`FilterTable.ignoredSelectable_eq`): one looks a name up in the table, the other in
the schema.

All names are marked at once (`FilterTable.markSelectable_eq_mapValues`), so their order and
a second marking make no difference; options in strict order are determined by their members,
so neither does the order of the records (`FilterTable.options_perm`).
-/

import Inventory.Proofs.Listing.Options
import Inventory.Proofs.Page.Problems
import Inventory.Proofs.Schema.Valid

namespace Inventory

/-- The column whose problem is that it cannot be a choice. -/
def ViewProblem.ignoredColumn? : ViewProblem → Option String
  | .unknownSelectable field => some field
  | .unfilterableSelectable field => some field
  | .danglingField _ _ => none
  | .duplicateField _ _ _ => none
  | .nameCollision _ => none
  | .duplicateFieldset _ => none
  | .entityTypeMismatch _ _ => none

/-- The entry of a field in the table where the named columns are choices. -/
structure FilterTable.MarkedFor (names : List String) (records : List Record) (f : Field)
    (entry : String × ColumnFilter) : Prop where
  key : entry.1 = f.name
  field : entry.2.field = f.name
  label : entry.2.label = f.label
  text : f.name ∉ names → entry.2.widget = .text
  select : f.name ∈ names → ∃ options, entry.2.widget = .select options
    ∧ options.Pairwise (· < ·)
    ∧ ∀ option, option ∈ options ↔ option ≠ "" ∧ ∃ r ∈ records, r.text? f.name = some option

namespace FilterTable

variable {s : Schema} {names names' : List String} {records records' : List Record}

/-! ### Options in order -/

/-- The options ascend. -/
theorem pairwise_options (records : List Record) (column : String) :
    (options records column).Pairwise (· < ·) := by
  have hle : (options records column).Pairwise (· ≤ ·) :=
    (pairwise_le_mergeSort _).sublist (dropRepeats_sublist _)
  exact hle.imp₂ (fun _ _ => Std.lt_of_le_of_ne) (nodup_options records column)

/-- The options do not depend on the order of the records. -/
theorem options_perm (h : records'.Perm records) (column : String) :
    options records' column = options records column := by
  have hmem (option : String) :
      option ∈ options records' column ↔ option ∈ options records column := by
    simp only [mem_options_iff, h.mem_iff]
  have hperm : (options records' column).Perm (options records column) :=
    (List.perm_ext_iff_of_nodup (nodup_options _ _) (nodup_options _ _)).2 hmem
  exact hperm.eq_of_pairwise (fun a b _ _ hab hba => absurd hba (String.lt_asymm hab))
    (pairwise_options _ _) (pairwise_options _ _)

/-! ### The marked table -/

/-- Marking again changes nothing. -/
theorem markSelectable_again (t : FilterTable) (names : List String) (records : List Record) :
    markSelectable (markSelectable t names records) names records
      = markSelectable t names records := by
  simp only [markSelectable_eq_mapValues, OrderedMap.mapValues_mapValues]
  refine OrderedMap.mapValues_congr fun e _ => ?_
  split <;> rfl

/-- The order of the names and of the records makes no difference. -/
theorem markSelectable_perm (hnames : names'.Perm names) (hrecords : records'.Perm records)
    (t : FilterTable) : markSelectable t names' records' = markSelectable t names records := by
  simp only [markSelectable_eq_mapValues, hnames.mem_iff, options_perm hrecords]

/-- There is a text filter for each field that can be filtered, in schema order. -/
theorem entries_ofSchema (hfields : s.fieldNames.Nodup) :
    (ofSchema s).entries = (s.fields.filter Field.isFilterable).map fun f =>
      (f.name, { field := f.name, label := f.label, widget := .text }) := by
  refine OrderedMap.entries_ofList ?_
  rw [List.map_map]
  exact hfields.sublist (List.filter_sublist.map Field.name)

/-- **The marked table** has one filter for each scalar field, in schema order. -/
theorem forall₂_markSelectable (hfields : s.fieldNames.Nodup) (names : List String)
    (records : List Record) :
    List.Forall₂ (MarkedFor names records) (s.fields.filter Field.isFilterable)
      (markSelectable (ofSchema s) names records).entries := by
  rw [markSelectable_eq_mapValues, OrderedMap.mapValues, entries_ofSchema hfields, List.map_map,
    List.forall₂_map_right_iff, List.forall₂_same]
  intro f _
  by_cases hname : f.name ∈ names
  · refine ⟨rfl, ?_, ?_, fun hnot => absurd hname hnot, fun _ => ⟨options records f.name, ?_,
      pairwise_options records f.name, fun _ => mem_options_iff⟩⟩ <;> simp [hname]
  · refine ⟨rfl, ?_, ?_, fun _ => ?_, fun hmem => absurd hmem hname⟩ <;> simp [hname]

/-! ### Ignored names -/

/-- The fields with a filter are those that can be filtered. -/
theorem contains_ofSchema (hfields : s.fieldNames.Nodup) (name : String) :
    (ofSchema s).contains name = (s.field? name).any Field.isFilterable := by
  rw [Bool.eq_iff_iff, OrderedMap.contains_iff, mem_keys_ofSchema_iff, Option.any_eq_true]
  constructor
  · rintro ⟨f, hf, hfilter, rfl⟩
    exact ⟨f, Schema.field?_of_mem hfields hf, hfilter⟩
  · rintro ⟨f, hf, hfilter⟩
    exact ⟨f, List.mem_of_find?_eq_some hf, hfilter, by simpa using List.find?_some hf⟩

/-- A name is ignored where the check of a view has a problem with it. -/
theorem ignoredColumn?_selectableProblem? (hfields : s.fieldNames.Nodup) (name : String) :
    (View.selectableProblem? s name).bind ViewProblem.ignoredColumn?
      = if (ofSchema s).contains name then none else some name := by
  rw [contains_ofSchema hfields, View.selectableProblem?]
  cases s.field? name with
  | none => rfl
  | some f => cases hfilter : f.isFilterable <;> simp [hfilter, ViewProblem.ignoredColumn?]

/-- **The names that are ignored** are those that the check of the view reports. -/
theorem ignoredSelectable_eq (hfields : s.fieldNames.Nodup) (v : View) :
    ignoredSelectable (ofSchema s) v.selectable
      = (v.problems s).filterMap ViewProblem.ignoredColumn? := by
  have hmismatch : List.filterMap ViewProblem.ignoredColumn? (if v.entityType = s.name then [] else
      [.entityTypeMismatch s.name v.entityType]) = [] := by
    split <;> rfl
  have hsurvey : (v.fieldsets.foldl (View.Survey.fieldset s) {}).problems.filterMap
      ViewProblem.ignoredColumn? = [] := by
    refine List.filterMap_eq_nil_iff.2 fun p hp => ?_
    have hamong := View.mem_survey_problems_iff.1 hp
    cases p with
    | unknownSelectable field => cases hamong
    | unfilterableSelectable field => cases hamong
    | _ => rfl
  rw [View.problems, List.filterMap_append, List.filterMap_append, hmismatch, hsurvey,
    List.nil_append, List.nil_append, List.filterMap_filterMap, ignoredSelectable,
    ← List.filterMap_eq_filter]
  refine List.filterMap_congr fun name _ => ?_
  rw [ignoredColumn?_selectableProblem? hfields]
  cases hkey : (ofSchema s).contains name <;> simp [Option.guard, hkey]

/-! ### The whole -/

/-- What is asked of the table where the selectable columns of a view are marked. -/
structure Marks (s : Schema) (v : View) (records : List Record) (t : FilterTable) : Prop where
  /-- One filter for each scalar field, in schema order, as it is named or not. -/
  filters : List.Forall₂ (MarkedFor v.selectable records) (s.fields.filter Field.isFilterable)
    t.entries
  /-- Marking again changes nothing. -/
  again : markSelectable t v.selectable records = t
  /-- The names and the records can be in any order. -/
  anyOrder : ∀ names' records', List.Perm names' v.selectable → List.Perm records' records →
    markSelectable (ofSchema s) names' records' = t
  /-- The names that are ignored are the columns that the check of the view reports. -/
  ignored : ignoredSelectable (ofSchema s) v.selectable
    = (v.problems s).filterMap ViewProblem.ignoredColumn?

/-- **Marking is exact and agrees with the check of the view.** The table of a valid schema
where the selectable columns of a view are marked has one filter for each scalar field, and
this is a choice exactly when the field is named: among the distinct texts of the column that
are not empty, ascending. -/
theorem marks_exactly (hvalid : s.validate = .ok ()) (v : View) (records : List Record) :
    Marks s v records (markSelectable (ofSchema s) v.selectable records) :=
  have hfields := Schema.nodup_of_validate hvalid
  { filters := forall₂_markSelectable hfields v.selectable records
    again := markSelectable_again _ v.selectable records
    anyOrder := fun _ _ hnames hrecords => markSelectable_perm hnames hrecords _
    ignored := ignoredSelectable_eq hfields v }

/-- Security groups with a zone and rules. -/
def groupSchema : Schema where
  name := "security_group"
  label := "Security group"
  labelField := "name"
  fields := [.string "name" "Name", .string "zone" "Zone", .composite "rules" "Rules" ["port"]]

/-- A view with a choice among the zones; rules cannot be chosen from, and there is no region. -/
def groupView : View where
  entityType := "security_group"
  selectable := ["rules", "zone", "region"]

/-- A security group. -/
def group (id : BitVec 128) (zone : String) : Record where
  id := ⟨id⟩
  schema := groupSchema
  slots := .ofList [("name", .absent), ("zone", .string zone), ("rules", .items [])]

/-- Groups under a view that names columns which cannot be marked as well. -/
theorem marks_exactly_groups :
    groupSchema.validate = .ok ()
      ∧ Marks groupSchema groupView [group 1 "b", group 2 "", group 3 "a", group 4 "b"]
        (markSelectable (ofSchema groupSchema) groupView.selectable
          [group 1 "b", group 2 "", group 3 "a", group 4 "b"]) :=
  ⟨rfl, marks_exactly rfl groupView _⟩

example : ignoredSelectable (ofSchema groupSchema) groupView.selectable = ["rules", "region"] := by
  decide

end FilterTable
end Inventory
