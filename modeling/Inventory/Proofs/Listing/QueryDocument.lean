/-
# Queries survive the wire

`ListQuery`, written and read.

A query that is written as JSON is read back as it was (`ofJson?_toJson_of_nodup`): the same
filters in the same order, whatever their fields and texts, and the same sort.

| of the query | is written as | is read back by |
| --- | --- | --- |
| the filters | an object of texts | `filters?_object` |
| the sort, or none | a list of two texts, or null | `sort?_sortData` |
-/

import Inventory.Listing.QueryDocument
import Inventory.Proofs.Json.RoundTrip
import Inventory.Proofs.OrderedMap

namespace Inventory

theorem SortDirection.ofName?_name (d : SortDirection) : ofName? d.name = some d := by
  cases d <;> rfl

namespace ListQuery

variable {q : ListQuery}

/-- Filters that repeat no field are read back in their order. -/
theorem filters?_object {filters : OrderedMap String String} (h : filters.keys.Nodup) :
    filters? (.object (filters.mapValues fun _ needle => .str needle)) = some filters := by
  have hread (entries : List (String × String)) :
      (entries.map fun e => (e.1, Data.str e.2)).mapM
        (fun e : String × Data => e.2.str?.map (e.1, ·)) = some entries := by
    induction entries with
    | nil => rfl
    | cons e rest ih =>
      rw [List.map_cons, List.mapM_cons, ih]
      rfl
  rw [filters?, OrderedMap.mapValues, hread, Option.map_some]
  exact congrArg some (congrArg OrderedMap.mk (OrderedMap.entries_ofList h))

/-- The sort of a query in a document. -/
def sortData (q : ListQuery) : Data :=
  match q.sort with
  | some (field, direction) => .list [.str field, .str direction.name]
  | none => .null

/-- The sorting is read back. -/
theorem sort?_sortData (q : ListQuery) : sort? q.sortData = some q.sort := by
  unfold sortData
  cases q.sort with
  | none => rfl
  | some sort =>
    obtain ⟨field, direction⟩ := sort
    exact congrArg (Option.map fun d => some (field, d)) (SortDirection.ofName?_name direction)

/-- **A query is read back from its document.** -/
theorem ofData?_toData (h : q.filters.keys.Nodup) : ofData? q.toData = some q := by
  have hread : ofData? q.toData = ofMembers?
      [.object (q.filters.mapValues fun _ needle => .str needle)] [q.sortData] := rfl
  rw [hread, ofMembers?]
  simp only [filters?_object h, sort?_sortData]
  rfl

/-- A query's document holds texts only. -/
theorem isIntegral_toData (q : ListQuery) : q.toData.isIntegral = true := by
  have hfilters (entries : List (String × String)) :
      Data.holdIntegral (entries.map fun e => (e.1, .str e.2)) = true :=
    Data.holdIntegral_iff.2 (List.forall_mem_map.2 fun _ _ => rfl)
  have hsort : q.sortData.isIntegral = true := by
    unfold sortData
    cases q.sort <;> rfl
  have hdata : q.toData.isIntegral
      = (Data.holdIntegral (q.filters.entries.map fun e => (e.1, .str e.2))
        && (q.sortData.isIntegral && true)) := rfl
  rw [hdata, hfilters, hsort]
  rfl

/-- **A query survives the wire.** Whatever its fields and texts are, a query without repeated
fields is read back from its JSON text, with the filters in their order and its sort. -/
theorem ofJson?_toJson_of_nodup (h : q.filters.keys.Nodup) : ofJson? q.toJson = some q := by
  rw [ofJson?, toJson, Data.ofJson?_toJson q.isIntegral_toData, Option.bind_some,
    ofData?_toData h]

/-- A query with quotes, backslashes, control characters and characters of two units of UTF-16
in its fields and texts. -/
def spelledQuery : ListQuery where
  filters := ⟨[("say \"hi\"", "C:\\temp\\u0041"), ("", "a\x00\x1f\x7f\t\r\n"), ("Straße", "😀\\"),
    ("filters", "\x7b\"sort\":null\x7d")]⟩
  sort := some ("say \"hi\"", .descending)

/-- A query with quotes and line breaks in its texts is read back. -/
theorem ofJson?_toJson_spelled :
    spelledQuery.filters.keys.Nodup ∧ ofJson? spelledQuery.toJson = some spelledQuery := by
  have hnodup : spelledQuery.filters.keys.Nodup := by decide
  exact ⟨hnodup, ofJson?_toJson_of_nodup hnodup⟩

end ListQuery
end Inventory
