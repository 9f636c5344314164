/-
# What a query leaves, and in which order

`apply` of `ListQuery`, by `matches` and `compare`.

A query takes out the records that fail a filter that takes part (`ListQuery.FailsSome`), and
sorts the others. Sorting is meant to be stable: the result holds the same records in ascending
order, and records that tie stand as they stood (`StableArrangement`). An order that is a total
preorder leaves only one such arrangement (`StableArrangement.unique`), and it is the one that
insertion from the end makes (`stableArrangement_arrange`).

| the query sorts by | the records that are left stand |
| --- | --- |
| nothing, or a field that does not sort | as they stood |
| a field, ascending | in the one stable arrangement, those without a value first |
| a field, descending | in the one stable arrangement of the swapped order, those without last |

A numeric column of texts is left out of the last two, because its order is no preorder.
-/

import Inventory.Proofs.Listing.Options
import Inventory.Proofs.Record.ColumnOrder
import Inventory.Proofs.Text.Sigma

namespace Inventory

/-! ### Stable arrangements -/

section StableArrangement

variable {α β : Type} {p : α → Prop} {order : α → α → Ordering} {xs ys zs : List α}

/-- The elements of `xs` in ascending order, those that tie as they stood. -/
structure StableArrangement (order : α → α → Ordering) (xs ys : List α) : Prop where
  perm : ys.Perm xs
  sorted : ys.Pairwise fun a b => order a b ≠ .gt
  stable : ∀ a ∈ xs, ys.filter (order a · = .eq) = xs.filter (order a · = .eq)

namespace TotalPreorderOn

variable {a b c : α}

/-- In a total preorder one comparison is the other one turned round. -/
theorem gt_iff_lt (h : TotalPreorderOn p order) (ha : p a) (hb : p b) :
    order a b = .gt ↔ order b a = .lt := by
  rw [h.swap b a hb ha, Ordering.swap_eq_gt]

/-- What comes after one of two elements that tie comes after the other. -/
theorem lt_of_eq_of_lt (h : TotalPreorderOn p order) (ha : p a) (hb : p b) (hc : p c)
    (hab : order a b = .eq) (hbc : order b c = .lt) : order a c = .lt := by
  have hba : order b a = .eq := by rw [h.swap a b ha hb, hab, Ordering.swap_eq]
  have hac : order a c ≠ .gt := h.trans a b c ha hb hc (by simp [hab]) (by simp [hbc])
  have hne : order a c ≠ .eq := by
    intro heq
    have hca : order c a = .eq := by rw [h.swap a c ha hc, heq, Ordering.swap_eq]
    have hcb := h.trans c a b hc ha hb (by simp [hca]) (by simp [hab])
    rw [Ne, h.gt_iff_lt hc hb] at hcb
    exact hcb hbc
  cases hord : order a c <;> simp_all

/-- The laws of an order that compares by what the elements hold. -/
theorem comap {q : β → Prop} {order' : β → β → Ordering} (h : TotalPreorderOn p order)
    (key : β → α) (hkey : ∀ b, q b → p (key b))
    (horder : ∀ b c, q b → q c → order' b c = order (key b) (key c)) :
    TotalPreorderOn q order' where
  refl b hb := by
    rw [horder b b hb hb]
    exact h.refl _ (hkey b hb)
  swap b c hb hc := by
    rw [horder b c hb hc, horder c b hc hb]
    exact h.swap _ _ (hkey b hb) (hkey c hc)
  trans b c d hb hc hd hbc hcd := by
    rw [horder b c hb hc] at hbc
    rw [horder c d hc hd] at hcd
    rw [horder b d hb hd]
    exact h.trans _ _ _ (hkey b hb) (hkey c hc) (hkey d hd) hbc hcd

/-- The swapped order has the laws too. -/
theorem directed (h : TotalPreorderOn p order) (direction : SortDirection) :
    TotalPreorderOn p fun a b => ListQuery.directed direction (order a b) := by
  cases direction with
  | ascending => exact h
  | descending =>
    constructor
    case refl =>
      intro a ha
      rw [h.refl a ha]
      rfl
    case swap =>
      intro a b ha hb
      exact congrArg Ordering.swap (h.swap a b ha hb)
    case trans =>
      intro a b c ha hb hc hab hbc
      change (order a b).swap ≠ .gt at hab
      change (order b c).swap ≠ .gt at hbc
      change (order a c).swap ≠ .gt
      rw [← h.swap a b ha hb] at hab
      rw [← h.swap b c hb hc] at hbc
      rw [← h.swap a c ha hc]
      exact h.trans c b a hc hb ha hbc hab

end TotalPreorderOn

namespace StableArrangement

/-- Arranged lists that hold the same elements, ties in the same order, are one list. -/
theorem eq_of_perm (h : TotalPreorderOn p order) (hp : ∀ a ∈ ys, p a) (hperm : ys.Perm zs)
    (hys : ys.Pairwise fun a b => order a b ≠ .gt) (hzs : zs.Pairwise fun a b => order a b ≠ .gt)
    (hties : ∀ a ∈ ys, ys.filter (order a · = .eq) = zs.filter (order a · = .eq)) : ys = zs := by
  induction ys generalizing zs with
  | nil => exact hperm.nil_eq
  | cons y ys ih =>
    cases zs with
    | nil => cases hperm.eq_nil
    | cons z zs =>
      obtain ⟨hy, hys⟩ := List.pairwise_cons.1 hys
      obtain ⟨hz, -⟩ := List.pairwise_cons.1 hzs
      have hpy := hp y List.mem_cons_self
      have hpz := hp z (hperm.mem_iff.2 List.mem_cons_self)
      have hyy := h.refl y hpy
      -- each of the first elements comes before the other, so they tie
      have hyz : order y z = .eq := by
        have hle : order y z ≠ .gt := by
          rcases List.mem_cons.1 (hperm.mem_iff.2 List.mem_cons_self) with rfl | hmem
          · simp [hyy]
          · exact hy z hmem
        have hge : order z y ≠ .gt := by
          rcases List.mem_cons.1 (hperm.mem_iff.1 List.mem_cons_self) with rfl | hmem
          · simp [hyy]
          · exact hz y hmem
        rw [Ne, h.gt_iff_lt hpz hpy] at hge
        cases hord : order y z <;> simp_all
      obtain rfl : y = z := by
        have hfirst := hties y List.mem_cons_self
        rw [List.filter_cons_of_pos (by simpa using hyy),
          List.filter_cons_of_pos (by simpa using hyz)] at hfirst
        exact (List.cons.inj hfirst).1
      refine congrArg (y :: ·) (ih (fun a ha => hp a (List.mem_cons_of_mem _ ha)) hperm.cons_inv
        hys (List.pairwise_cons.1 hzs).2 fun a ha => ?_)
      have htie := hties a (List.mem_cons_of_mem _ ha)
      simp only [List.filter_cons] at htie
      split at htie
      · exact (List.cons.inj htie).2
      · exact htie

/-- **There is one stable arrangement.** -/
theorem unique (h : TotalPreorderOn p order) (hp : ∀ a ∈ xs, p a)
    (hys : StableArrangement order xs ys) (hzs : StableArrangement order xs zs) : ys = zs :=
  eq_of_perm h (fun a ha => hp a (hys.perm.mem_iff.1 ha)) (hys.perm.trans hzs.perm.symm)
    hys.sorted hzs.sorted fun a ha =>
      have hmem := hys.perm.mem_iff.1 ha
      (hys.stable a hmem).trans (hzs.stable a hmem).symm

/-- A stable arrangement is its own. -/
theorem self (h : StableArrangement order xs ys) : StableArrangement order ys ys :=
  ⟨.refl ys, h.sorted, fun _ _ => rfl⟩

/-- Elements that come before all others make up the first part of an arrangement. -/
theorem eq_append (h : StableArrangement order xs ys) (first : α → Bool)
    (hfirst : ∀ a ∈ xs, ∀ b ∈ xs, first a = false → first b = true → order a b = .gt) :
    ys = ys.filter first ++ ys.filter fun a => !first a := by
  have hmem : ∀ a ∈ ys, a ∈ xs := fun a ha => h.perm.mem_iff.1 ha
  have hsorted := h.sorted
  clear h
  induction ys with
  | nil => rfl
  | cons y ys ih =>
    obtain ⟨hy, hys⟩ := List.pairwise_cons.1 hsorted
    have hrest := ih (fun a ha => hmem a (List.mem_cons_of_mem _ ha)) hys
    by_cases hfy : first y = true
    · rw [List.filter_cons_of_pos hfy, List.filter_cons_of_neg (by simp [hfy]), List.cons_append,
        ← hrest]
    · have hnone : ∀ a ∈ y :: ys, ¬ first a = true := by
        intro a ha hfa
        rcases List.mem_cons.1 ha with rfl | ha
        · exact hfy hfa
        · exact hy a ha (hfirst y (hmem y List.mem_cons_self) a (hmem a (List.mem_cons_of_mem _ ha))
            (by simpa using hfy) hfa)
      rw [List.filter_eq_nil_iff.2 hnone, List.nil_append]
      exact (List.filter_eq_self.2 fun a ha => by simpa using hnone a ha).symm

end StableArrangement

/-! ### Insertion -/

open ListQuery

/-- Inserting keeps what is there and adds the one. -/
theorem perm_insertDescending (order : α → α → Ordering) (x : α) (l : List α) :
    (insertDescending order x l).Perm (x :: l) := by
  induction l with
  | nil => exact .refl _
  | cons y rest ih =>
    rw [insertDescending]
    split
    · exact (ih.cons y).trans (.swap x y rest)
    · exact .refl _

/-- **Step:** an insertion keeps descending order. -/
theorem pairwise_insertDescending (h : TotalPreorderOn p order) {x : α} {l : List α} (hx : p x)
    (hl : ∀ a ∈ l, p a) (hsorted : l.Pairwise fun b a => order a b ≠ .gt) :
    (insertDescending order x l).Pairwise fun b a => order a b ≠ .gt := by
  induction l with
  | nil => exact List.pairwise_singleton _ _
  | cons y rest ih =>
    obtain ⟨hy, hrest⟩ := List.pairwise_cons.1 hsorted
    have hpy := hl y List.mem_cons_self
    have hprest : ∀ a ∈ rest, p a := fun a ha => hl a (List.mem_cons_of_mem _ ha)
    rw [insertDescending]
    split
    · rename_i hlt
      refine List.pairwise_cons.2 ⟨fun a ha => ?_, ih hprest hrest⟩
      rcases List.mem_cons.1 ((perm_insertDescending order x rest).mem_iff.1 ha) with rfl | ha
      · simp [hlt]
      · exact hy a ha
    · rename_i hge
      have hyx : order y x ≠ .gt := by rwa [Ne, h.gt_iff_lt hpy hx]
      refine List.pairwise_cons.2 ⟨fun a ha => ?_, hsorted⟩
      rcases List.mem_cons.1 ha with rfl | ha
      · exact hyx
      · exact h.trans a y x (hprest a ha) hpy hx (hy a ha) hyx

/-- **Step:** among the elements that tie with `a`, the inserted one is put in front. -/
theorem filter_insertDescending (h : TotalPreorderOn p order) {a x : α} {l : List α} (ha : p a)
    (hx : p x) (hl : ∀ b ∈ l, p b) :
    (insertDescending order x l).filter (order a · = .eq)
      = (x :: l).filter (order a · = .eq) := by
  induction l with
  | nil => rfl
  | cons y rest ih =>
    have hpy := hl y List.mem_cons_self
    rw [insertDescending]
    split
    · rename_i hlt
      rw [List.filter_cons, ih fun b hb => hl b (List.mem_cons_of_mem _ hb)]
      by_cases hax : order a x = .eq
      · -- the element that is passed comes after `x`, so it does not tie with `a`
        have hay := h.lt_of_eq_of_lt ha hx hpy hax hlt
        simp [hax, hay]
      · simp [List.filter_cons, hax]
    · rfl

/-- Arranging one more inserts it into what is arranged. -/
theorem arrange_append_singleton (order : α → α → Ordering) (xs : List α) (x : α) :
    arrange order (xs ++ [x]) = (insertDescending order x (arrange order xs).reverse).reverse := by
  simp [arrange, List.foldl_append]

/-- Arranging leaves nothing out and adds nothing. -/
theorem perm_arrange (order : α → α → Ordering) (xs : List α) : (arrange order xs).Perm xs := by
  induction xs using List.reverseRecOn with
  | nil => exact .refl _
  | append_singleton xs x ih =>
    rw [arrange_append_singleton]
    have hinsert := perm_insertDescending order x (arrange order xs).reverse
    have hdone : (x :: (arrange order xs).reverse).Perm (x :: xs) :=
      ((List.reverse_perm _).trans ih).cons x
    have hlast : (x :: xs).Perm (xs ++ [x]) := (List.perm_append_singleton x xs).symm
    exact (List.reverse_perm _).trans (hinsert.trans (hdone.trans hlast))

/-- **Run:** insertion after insertion makes the stable arrangement. -/
theorem stableArrangement_arrange (h : TotalPreorderOn p order) (hp : ∀ a ∈ xs, p a) :
    StableArrangement order xs (arrange order xs) := by
  suffices hrun : (arrange order xs).Pairwise (fun a b => order a b ≠ .gt)
      ∧ ∀ a, p a → (arrange order xs).filter (order a · = .eq) = xs.filter (order a · = .eq) from
    ⟨perm_arrange order xs, hrun.1, fun a ha => hrun.2 a (hp a ha)⟩
  induction xs using List.reverseRecOn with
  | nil => exact ⟨.nil, fun _ _ => rfl⟩
  | append_singleton xs x ih =>
    obtain ⟨hsorted, hties⟩ := ih fun a ha => hp a (List.mem_append_left _ ha)
    have hx : p x := hp x (by simp)
    have hdone : ∀ a ∈ (arrange order xs).reverse, p a := by
      intro a ha
      refine hp a (List.mem_append_left _ ?_)
      exact (perm_arrange order xs).mem_iff.1 (List.mem_reverse.1 ha)
    rw [arrange_append_singleton, List.pairwise_reverse]
    refine ⟨pairwise_insertDescending h hx hdone (List.pairwise_reverse.2 hsorted),
      fun a ha => ?_⟩
    rw [List.filter_reverse, filter_insertDescending h ha hx hdone, ← List.filter_reverse,
      List.reverse_cons, List.reverse_reverse, List.filter_append, List.filter_append, hties a ha]

end StableArrangement

/-- Only the absent value is absent. -/
theorem FieldValue.isAbsent_iff {v : FieldValue} : v.isAbsent = true ↔ v = .absent := by
  cases v <;> simp [isAbsent]

/-! ### The records that a query keeps -/

namespace ListQuery

variable {q : ListQuery} {schema : Schema} {table : FilterTable} {records : List Record}
  {field : String} {kind : SortKind} {direction : SortDirection} {f : Field}

/-- Whether a record passes a filter that was filled in: its text in the column has the filled
in text in it, in whatever case, or is the option that was chosen. -/
def Passes (c : ColumnFilter) (needle : String) (r : Record) : Prop :=
  ∃ text, r.text? c.field = some text ∧
    match c.widget with
    | .text => Text.lower needle.toList <:+: Text.lower text.toList
    | .select _ => text = needle

/-- Whether a record fails a filter that takes part: what was filled in is not blank, its field
has a filter, and the record does not pass it. -/
def FailsSome (q : ListQuery) (table : FilterTable) (r : Record) : Prop :=
  ∃ e ∈ q.filters.entries, Text.isBlank e.2.toList = false
    ∧ ∃ c, table.get? e.1 = some c ∧ ¬ Passes c e.2 r

/-- Whether nothing is sorted: no field was named, or one that does not sort. -/
def Unsorted (q : ListQuery) (schema : Schema) : Prop :=
  ∀ field direction, q.sort = some (field, direction) →
    (schema.field? field).bind Field.effectiveSort = none

/-- A filter admits the records that pass it. -/
theorem admits_iff {c : ColumnFilter} {needle : String} {r : Record} :
    admits r (c, needle) = true ↔ Passes c needle r := by
  unfold admits Passes
  cases r.text? c.field with
  | none => simp
  | some text =>
    cases c.widget with
    | text => simp [Text.occursIn_iff_isInfix]
    | select options => simp

/-- **A query keeps** the records that fail no filter that takes part. -/
theorem all_admits_iff {r : Record} :
    ((q.active table).all (admits r)) = true ↔ ¬ q.FailsSome table r := by
  simp only [active, List.all_eq_true, FailsSome, not_exists, not_and, not_not]
  constructor
  · intro h e he hblank c hc
    refine admits_iff.1 (h _ (List.mem_filterMap.2 ⟨e, he, ?_⟩))
    simp [hblank, hc]
  · intro h filter hfilter
    obtain ⟨e, he, hactive⟩ := List.mem_filterMap.1 hfilter
    split at hactive
    · cases hactive
    · rename_i hblank
      obtain ⟨c, hc, rfl⟩ := Option.map_eq_some_iff.1 hactive
      exact admits_iff.2 (h e he (by simpa using hblank) c hc)

instance (q : ListQuery) (table : FilterTable) (r : Record) : Decidable (q.FailsSome table r) :=
  decidable_of_iff (¬ ((q.active table).all (admits r)) = true) (by rw [all_admits_iff, not_not])

/-- The records that fail no filter, as they stood. -/
def kept (q : ListQuery) (table : FilterTable) (records : List Record) : List Record :=
  records.filter fun r => ¬ q.FailsSome table r

/-- The records that every active filter admits are those that are kept. -/
theorem filter_active : (records.filter fun r => (q.active table).all (admits r))
    = q.kept table records := by
  refine List.filter_congr fun r _ => ?_
  rw [Bool.eq_iff_iff, all_admits_iff, decide_eq_true_eq]

/-- The order of the filters does not show. -/
theorem failsSome_congr {filters : OrderedMap String String}
    (h : filters.entries.Perm q.filters.entries) {r : Record} :
    FailsSome { q with filters } table r ↔ q.FailsSome table r := by
  simp only [FailsSome, h.mem_iff]

/-- Which records are kept does not depend on the order of the filters. -/
theorem kept_congr {filters : OrderedMap String String}
    (h : filters.entries.Perm q.filters.entries) :
    kept { q with filters } table records = q.kept table records := by
  simp only [kept, failsSome_congr h]

/-- What is kept is kept again. -/
theorem kept_eq_self {rows : List Record} (h : ∀ r ∈ rows, r ∈ q.kept table records) :
    q.kept table rows = rows :=
  List.filter_eq_self.2 fun r hr => (List.mem_filter.1 (h r hr)).2

/-- A query that does not sort leaves what it keeps, in the order it was in. -/
theorem apply_eq_kept (h : q.Unsorted schema) :
    q.apply schema table records = q.kept table records := by
  rw [apply, filter_active]
  cases hsort : q.sort with
  | none => rfl
  | some sort =>
    obtain ⟨field, direction⟩ := sort
    simp only [h field direction hsort]

/-- A query that sorts leaves what it keeps, sorted by the column. -/
theorem apply_eq_sorted (hsort : q.sort = some (field, direction))
    (hf : schema.field? field = some f) (hkind : f.effectiveSort = some kind) :
    q.apply schema table records = sorted field kind direction (q.kept table records) := by
  simp only [apply, filter_active, hsort, hf, Option.bind_some, hkind]

/-- Sorting takes out nothing. -/
theorem perm_apply : (q.apply schema table records).Perm (q.kept table records) := by
  cases hsort : q.sort with
  | none => exact .of_eq (apply_eq_kept fun field direction h => by simp [hsort] at h)
  | some sort =>
    obtain ⟨field, direction⟩ := sort
    cases hkind : (schema.field? field).bind Field.effectiveSort with
    | none =>
      refine .of_eq (apply_eq_kept fun field' direction' h => ?_)
      obtain ⟨rfl, rfl⟩ := Prod.mk.inj (Option.some.inj (hsort.symm.trans h))
      exact hkind
    | some kind =>
      obtain ⟨f, hf, hkind⟩ := Option.bind_eq_some_iff.1 hkind
      rw [apply_eq_sorted hsort hf hkind]
      exact perm_arrange _ _

/-- The order of the filters does not matter. -/
theorem apply_congr {filters : OrderedMap String String}
    (h : filters.entries.Perm q.filters.entries) :
    apply { q with filters } schema table records = q.apply schema table records := by
  simp only [apply, filter_active, kept_congr h]

/-! ### The order of the records -/

/-- Whether a record has no value in a column. -/
def isAbsentAt (field : String) (r : Record) : Bool :=
  (r.slots.get? field).any FieldValue.isAbsent

/-- The order in which a sort puts two records. -/
def rowOrder (field : String) (kind : SortKind) (direction : SortDirection) (a b : Record) :
    Ordering :=
  directed direction (compareColumn field kind a b)

/-- What a record has in a column. -/
theorem exists_slot (hf : schema.field? field = some f) {r : Record} (hr : r.BuiltOn schema) :
    ∃ v, r.slots.get? field = some v ∧ v.conformsTo f.type = true := by
  have hname : field ∈ r.slots.keys := by
    rw [hr.wellFormed.keys, List.mem_eraseDups, hr.schema_eq]
    exact Record.mem_fieldNames_of_field? hf
  obtain ⟨v, hv⟩ := Option.isSome_iff_exists.1 (OrderedMap.isSome_get?_iff.2 hname)
  obtain ⟨f', hf', hfits⟩ := hr.wellFormed.fits field v hv
  rw [hr.schema_eq, hf] at hf'
  exact ⟨v, hv, Option.some.inj hf' ▸ hfits⟩

/-- **Records are ordered by what they have in the column.** -/
theorem totalPreorderOn_rowOrder (hf : schema.field? field = some f)
    (hcolumn : ¬(f.type = .primitive .string ∧ kind = .numeric)) (direction : SortDirection) :
    TotalPreorderOn (fun r : Record => r.BuiltOn schema) (rowOrder field kind direction) := by
  refine TotalPreorderOn.directed ?_ direction
  refine (FieldValue.totalPreorderOn_conforming hcolumn).comap
    (fun r => (r.slots.get? field).getD .absent) (fun r hr => ?_) fun a b ha hb => ?_
  · obtain ⟨v, hv, hfits⟩ := exists_slot hf hr
    simpa [hv] using hfits
  · obtain ⟨v, hv, -⟩ := exists_slot hf ha
    obtain ⟨w, hw, -⟩ := exists_slot hf hb
    simp only [compareColumn, hv, hw, Option.getD_some]

/-- A record without a value comes before one with a value. -/
theorem compareColumn_of_isAbsentAt (hf : schema.field? field = some f) {a b : Record}
    (ha : a.BuiltOn schema) (hb : b.BuiltOn schema) (hvalue : isAbsentAt field a = false)
    (habsent : isAbsentAt field b = true) : compareColumn field kind a b = .gt := by
  obtain ⟨v, hv, -⟩ := exists_slot hf ha
  obtain ⟨w, hw, -⟩ := exists_slot hf hb
  rw [isAbsentAt, hv, Option.any_some] at hvalue
  rw [isAbsentAt, hw, Option.any_some, FieldValue.isAbsent_iff] at habsent
  simp only [compareColumn, hv, hw, habsent]
  cases v with
  | absent => cases hvalue
  | _ => rfl

/-- What a sort is asked for: the one stable arrangement of the records, with the records
without a value at the end from which the direction starts. -/
structure Sorted (field : String) (kind : SortKind) (direction : SortDirection)
    (records rows : List Record) : Prop where
  arranged : StableArrangement (rowOrder field kind direction) records rows
  unique : ∀ rows', StableArrangement (rowOrder field kind direction) records rows' → rows' = rows
  absent : rows = match direction with
    | .ascending => rows.filter (isAbsentAt field) ++ rows.filter fun r => !isAbsentAt field r
    | .descending => (rows.filter fun r => !isAbsentAt field r) ++ rows.filter (isAbsentAt field)

/-- **A column of a schema is sorted.** -/
theorem sorted_sorted (hf : schema.field? field = some f)
    (hcolumn : ¬(f.type = .primitive .string ∧ kind = .numeric)) (direction : SortDirection)
    (hrecords : ∀ r ∈ records, r.BuiltOn schema) :
    Sorted field kind direction records (sorted field kind direction records) := by
  have hlaws := totalPreorderOn_rowOrder hf hcolumn direction
  have harranged : StableArrangement (rowOrder field kind direction) records
      (sorted field kind direction records) := stableArrangement_arrange hlaws hrecords
  refine ⟨harranged, fun rows' h => h.unique hlaws hrecords harranged, ?_⟩
  cases direction with
  | ascending =>
    refine harranged.eq_append (isAbsentAt field) fun a ha b hb hvalue habsent => ?_
    exact compareColumn_of_isAbsentAt hf (hrecords a ha) (hrecords b hb) hvalue habsent
  | descending =>
    have hsplit := harranged.eq_append (fun r => !isAbsentAt field r)
      fun a ha b hb habsent hvalue => by
        -- the swapped order asks for the two records the other way round
        rw [hlaws.gt_iff_lt (hrecords a ha) (hrecords b hb), rowOrder, directed,
          Ordering.swap_eq_lt]
        exact compareColumn_of_isAbsentAt hf (hrecords b hb) (hrecords a ha) (by simpa using hvalue)
          (by simpa using habsent)
    simpa using hsplit

/-- Sorting what is sorted changes nothing. -/
theorem Sorted.again {rows : List Record} (hf : schema.field? field = some f)
    (hcolumn : ¬(f.type = .primitive .string ∧ kind = .numeric))
    (hrecords : ∀ r ∈ records, r.BuiltOn schema)
    (h : Sorted field kind direction records rows) : sorted field kind direction rows = rows := by
  have hrows : ∀ r ∈ rows, r.BuiltOn schema :=
    fun r hr => hrecords r (h.arranged.perm.mem_iff.1 hr)
  exact (sorted_sorted hf hcolumn direction hrows).arranged.unique
    (totalPreorderOn_rowOrder hf hcolumn direction) hrows h.arranged.self

/-- Four addresses; the first and the last scope differ only in case. -/
def scopedAddresses : List Record :=
  [ListView.address 1 "vpc", ListView.address 2 "standard", ListView.address 3 "private",
    ListView.address 4 "VPC"]

/-- The addresses whose scope has a `v`, from the last scope to the first. -/
def scopeQuery : ListQuery where
  filters := .ofList [("scope", "V"), ("name", " ")]
  sort := some ("scope", .descending)

end ListQuery
end Inventory
