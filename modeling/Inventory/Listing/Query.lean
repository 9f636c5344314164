/-
# Queries of a list page

`ListQuery`: `apply`, `matches` and `compare`; `ListView`: `filter_table` and `query`.

A query holds what was filled into the filters and the column to sort by.

A filter is active when its text is not blank and its field has a filter. A text
filter keeps the records whose text contains what was filled in, without regard
to case; a choice keeps those whose text is the option. A record without a text
in the column is not kept. Sorting is stable, follows the sort of the field, and
leaves the order alone for a field that does not sort.
-/

import Inventory.Listing.Filter
import Inventory.Text.WhiteSpace

namespace Inventory

/-- Which way a column is sorted. -/
inductive SortDirection where
  | ascending
  | descending
  deriving DecidableEq, Repr, Inhabited

/-- The name of a direction. -/
def SortDirection.name : SortDirection → String
  | .ascending => "asc"
  | .descending => "desc"

/-- The direction of a name. -/
def SortDirection.ofName? (s : String) : Option SortDirection :=
  [SortDirection.ascending, .descending].find? (·.name = s)

/-- What was asked for on a list page. -/
structure ListQuery where
  filters : OrderedMap String String := .empty
  sort : Option (String × SortDirection) := none

namespace ListQuery

/-- The query in a document. -/
def toData (q : ListQuery) : Data := .ofMembers [
  ("filters", .object (q.filters.mapValues fun _ needle => .str needle)),
  ("sort", match q.sort with
    | some (field, direction) => .list [.str field, .str direction.name]
    | none => .null)]

/-- The filters that take part, with what was filled in. -/
def active (q : ListQuery) (table : FilterTable) : List (ColumnFilter × String) :=
  q.filters.entries.filterMap fun (field, needle) =>
    if Text.isBlank needle.toList then none else (table.get? field).map (·, needle)

/-- Whether a filter keeps a record. -/
def admits (r : Record) (filter : ColumnFilter × String) : Bool :=
  match r.text? filter.1.field with
  | none => false
  | some text =>
    match filter.1.widget with
    | .text => Text.occursIn (Text.lower filter.2.toList) (Text.lower text.toList)
    | .select _ => decide (text = filter.2)

/-- The order of two records in a column. -/
def compareColumn (field : String) (sort : SortKind) (a b : Record) : Ordering :=
  match a.slots.get? field, b.slots.get? field with
  | some x, some y => x.compare sort y
  | _, _ => .eq

/-- The order in which a direction puts two records. -/
def directed : SortDirection → Ordering → Ordering
  | .ascending, o => o
  | .descending, o => o.swap

/-- Insert into a list that stands in descending order: past everything that comes
after the new element, so behind nothing that ties with it. -/
def insertDescending {α : Type} (order : α → α → Ordering) (x : α) : List α → List α
  | [] => [x]
  | y :: rest => if order x y = .lt then y :: insertDescending order x rest else x :: y :: rest

/-- The elements in ascending order, ties as they stood. Each is inserted from the
end into those before it. -/
def arrange {α : Type} (order : α → α → Ordering) (xs : List α) : List α :=
  (xs.foldl (fun done x => insertDescending order x done) []).reverse

/-- Sort records by a column. -/
def sorted (field : String) (sort : SortKind) (direction : SortDirection) (records : List Record) :
    List Record :=
  arrange (fun a b => directed direction (compareColumn field sort a b)) records

/-- The records that all active filters keep, sorted. -/
def apply (q : ListQuery) (schema : Schema) (table : FilterTable) (records : List Record) :
    List Record :=
  let kept := records.filter fun r => (q.active table).all (admits r)
  match q.sort with
  | none => kept
  | some (field, direction) =>
    match (schema.field? field).bind Field.effectiveSort with
    | none => kept
    | some sort => sorted field sort direction kept

end ListQuery

/-- The list page of a resource type: its schema and the columns with a choice. -/
structure ListView where
  schema : Schema
  selectable : List String

namespace ListView

/-- The filters for the given records. -/
def filterTable (v : ListView) (records : List Record) : FilterTable :=
  FilterTable.markSelectable (.ofSchema v.schema) v.selectable records

/-- The filters, and the records that a query leaves. -/
def query (v : ListView) (records : List Record) (q : ListQuery) : FilterTable × List Record :=
  let table := v.filterTable records
  (table, q.apply v.schema table records)

end ListView
end Inventory
