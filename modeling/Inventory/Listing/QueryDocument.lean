/-
# Queries in documents

`ListQuery` as it is written to and read from documents.

| member | holds | when missing |
| --- | --- | --- |
| `filters` | an object of texts | no filters |
| `sort` | null, or a field and a direction in a list of two | no sort |

A list of the two values in this order stands for the same. Other members are
passed over. Of a repeated filter the last text counts, while a repeated member of
the query is an error.
-/

import Inventory.Json.Reader
import Inventory.Json.Writer
import Inventory.Listing.Query

namespace Inventory
namespace ListQuery

/-- The filters that a value writes. -/
def filters? : Data → Option (OrderedMap String String)
  | .object members =>
    (members.entries.mapM fun (e : String × Data) => e.2.str?.map (e.1, ·)).map .ofList
  | _ => none

/-- The direction that a value names: a text, or the only key of an object, with
null as its value. -/
def direction? : Data → Option SortDirection
  | .str name | .object ⟨[(name, .null)]⟩ => SortDirection.ofName? name
  | _ => none

/-- The sort that a value writes. -/
def sort? : Data → Option (Option (String × SortDirection))
  | .null => some none
  | .list [.str field, direction] => (direction? direction).map fun d => some (field, d)
  | _ => none

/-- The query whose members have the given values, each missing or there once. -/
def ofMembers? (filters sort : List Data) : Option ListQuery := do
  let one {α : Type} (read : Data → Option α) (default : α) : List Data → Option α
    | [] => some default
    | [d] => read d
    | _ => none
  return { filters := ← one filters? .empty filters, sort := ← one sort? none sort }

/-- The query that a value writes. -/
def ofData? : Data → Option ListQuery
  | .object members =>
    let named (name : String) : List Data :=
      (members.entries.filter (·.1 = name)).map Prod.snd
    ofMembers? (named "filters") (named "sort")
  | .list [] => ofMembers? [] []
  | .list [filters] => ofMembers? [filters] []
  | .list [filters, sort] => ofMembers? [filters] [sort]
  | _ => none

/-- The JSON text of a query. -/
def toJson (q : ListQuery) : String := q.toData.toJson

/-- The query that a JSON text writes. -/
def ofJson? (text : String) : Option ListQuery := (Data.ofJson? text).bind ofData?

end ListQuery
end Inventory
