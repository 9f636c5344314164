/-
# The filters of a list page

`FilterTable` with `FilterDefinition` and `FilterWidget`: `for_schema`, `get`, `widget_kinds` and
`mark_selectable`.

Every scalar field of a schema has a filter: at first a text to search for, and
for the columns that a view names a choice among the values that occur.

The options of a choice are the distinct texts of the column that are not empty,
in the order of their code points.
-/

import Inventory.Data
import Inventory.Record.Basic

namespace Inventory

/-- How a filter is filled in: a text to search for, or a choice of an option. -/
inductive FilterWidget where
  | text
  | select (options : List String)
  deriving DecidableEq, Repr

/-- The name of a widget. -/
def FilterWidget.kind : FilterWidget → String
  | .text => "text"
  | .select _ => "select"

/-- The filter of one column. -/
structure ColumnFilter where
  field : String
  label : String
  widget : FilterWidget
  deriving DecidableEq, Repr

/-- The filter in a document; a choice brings its options. -/
def ColumnFilter.toData (f : ColumnFilter) : Data := .ofMembers <|
  [("field", .str f.field), ("label", .str f.label), ("widget", .str f.widget.kind)]
  ++ match f.widget with
    | .text => []
    | .select options => [("options", .ofTexts options)]

/-- The filters of a list page by field name, in schema order. -/
abbrev FilterTable := OrderedMap String ColumnFilter

namespace FilterTable

/-- A text filter for every scalar field. -/
def ofSchema (schema : Schema) : FilterTable :=
  .ofList ((schema.fields.filter Field.isFilterable).map fun f =>
    (f.name, { field := f.name, label := f.label, widget := .text }))

/-- Texts in ascending order without repetition. -/
def distinctSorted (texts : List String) : List String :=
  ((texts.mergeSort fun a b => decide (a ≤ b)).foldr
    fun t rest => if rest.head? = some t then rest else t :: rest) []

/-- The options that the records offer in a column. -/
def options (records : List Record) (column : String) : List String :=
  distinctSorted ((records.filterMap (·.text? column)).filter (· ≠ ""))

/-- Turn the named columns into choices among the values that occur. -/
def markSelectable (t : FilterTable) (selectable : List String) (records : List Record) :
    FilterTable :=
  selectable.foldl
    (fun t name => t.modify name fun f => { f with widget := .select (options records name) }) t

/-- The names that have no filter to turn into a choice. -/
def ignoredSelectable (t : FilterTable) (selectable : List String) : List String :=
  selectable.filter fun name => !t.contains name

/-- The filters in a document. -/
def toData (t : FilterTable) : Data := .object (t.mapValues fun _ f => f.toData)

end FilterTable
end Inventory
