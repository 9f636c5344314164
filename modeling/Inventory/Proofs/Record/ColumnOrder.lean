/-
# The order of a column is a total preorder

`compare` of `FieldValue`.

Sorting a column stably is well defined only for an order that is a total
preorder: every value ties with itself, swapping two values swaps their order,
and what comes after a value comes after everything before it. `TotalPreorderOn`
states the three laws for the values that a column may hold.

An order that compares a *key* of the values has the laws as soon as the order
of the keys has them (`TotalPreorderOn.of_key`):

| column | key of a value |
| --- | --- |
| integer, boolean, timestamp | the value, if there is one |
| string, alphanumeric or by date and time | its text in lower case, if it has one |
| composite | whether there is a value |
| string, numeric | none |

A numeric column of texts compares two numerals as numbers and any other two
texts as texts, and the two orders run against each other. It is the only column
in which a value need not come after everything before what it comes after; the
other two laws hold in every column (`laws_of_conforming`). On numerals alone and
on texts that are no numerals alone it has all three (`totalPreorderOn_numerals`,
`totalPreorderOn_words`).
-/

import Inventory.Record.Value

namespace Inventory

/-- The laws that a stable sort asks of an order, on the values with a property. -/
structure TotalPreorderOn {α : Type} (p : α → Prop) (order : α → α → Ordering) : Prop where
  refl : ∀ a, p a → order a a = .eq
  swap : ∀ a b, p a → p b → order b a = (order a b).swap
  trans : ∀ a b c, p a → p b → p c → order a b ≠ .gt → order b c ≠ .gt → order a c ≠ .gt

/-- **Values that compare by a key are ordered as their keys are.** -/
theorem TotalPreorderOn.of_key {α κ : Type} {p : α → Prop} {order : α → α → Ordering}
    [Ord κ] [Std.TransOrd κ] (key : α → κ)
    (h : ∀ a b, p a → p b → order a b = Ord.compare (key a) (key b)) : TotalPreorderOn p order where
  refl a ha := by
    rw [h a a ha ha]
    exact Std.ReflCmp.compare_self
  swap a b ha hb := by
    rw [h a b ha hb, h b a hb ha]
    exact Std.OrientedCmp.eq_swap
  trans a b c ha hb hc hab hbc := by
    rw [h a b ha hb] at hab
    rw [h b c hb hc] at hbc
    rw [h a c ha hc]
    have hac := Std.TransCmp.isLE_trans (Ordering.isLE_iff_ne_gt.2 hab)
      (Ordering.isLE_iff_ne_gt.2 hbc)
    exact Ordering.isLE_iff_ne_gt.1 hac

instance : Ord Timestamp := ⟨Timestamp.compare⟩

/-- Instants are ordered by their seconds, then by their nanoseconds. -/
instance : Std.TransOrd Timestamp :=
  inferInstanceAs (Std.TransCmp (compareLex (compareOn Timestamp.seconds)
    (compareOn Timestamp.nanos)))

/-- Comparing readings the other way round turns the result round. -/
theorem Binary64.Reading.compare_swap (x y : Binary64.Reading) :
    y.compare x = (x.compare y).swap := by
  cases x with
  | notANumber => cases y <;> rfl
  | number a =>
    cases y with
    | notANumber => rfl
    | number b => exact Std.OrientedOrd.eq_swap

namespace FieldValue

/-- The text of a scalar in lower case. -/
def foldedText? (v : FieldValue) : Option String :=
  v.text?.map fun s => String.ofList (Text.lower s.toList)

/-- The rank of a text that is a numeral. -/
def rank? (v : FieldValue) : Option Int :=
  match v.text?.bind fun s => Binary64.read s.toList with
  | some (.number r) => some r
  | _ => none

/-- **Every column but a numeric one of texts has the laws of a sort.** -/
theorem totalPreorderOn_conforming {t : FieldType} {k : SortKind}
    (h : ¬(t = .primitive .string ∧ k = .numeric)) :
    TotalPreorderOn (fun v => v.conformsTo t = true) (compare k) := by
  cases t with
  | composite properties =>
    refine .of_key (fun v => (if v.isAbsent then 0 else 1 : Nat)) fun a b ha hb => ?_
    cases a <;> cases b <;> cases k <;> simp_all [conformsTo] <;> rfl
  | primitive t =>
    cases t with
    | string =>
      refine .of_key foldedText? fun a b ha hb => ?_
      cases a <;> cases b <;> cases k <;> simp_all [conformsTo, primitive?] <;> rfl
    | boolean =>
      refine .of_key asBoolean.read? fun a b ha hb => ?_
      cases a <;> cases b <;> simp_all [conformsTo, primitive?] <;> rfl
    | integer =>
      refine .of_key asInteger.read? fun a b ha hb => ?_
      cases a <;> cases b <;> simp_all [conformsTo, primitive?] <;> rfl
    | timestamp =>
      refine .of_key asTimestamp.read? fun a b ha hb => ?_
      cases a <;> cases b <;> simp_all [conformsTo, primitive?] <;> rfl

/-- An absent value, or a text that is a numeral. -/
def IsNumeral (v : FieldValue) : Prop :=
  v = .absent ∨ ∃ s r, v = .string s ∧ Binary64.read s.toList = some (.number r)

/-- An absent value, or a text that is no numeral. -/
def IsWord (v : FieldValue) : Prop :=
  v = .absent ∨ ∃ s, v = .string s ∧ Binary64.read s.toList = none

/-- Numerals in a numeric column are ordered by rank. -/
theorem totalPreorderOn_numerals : TotalPreorderOn IsNumeral (compare .numeric) := by
  refine .of_key rank? fun a b ha hb => ?_
  rcases ha with rfl | ⟨s, r, rfl, hs⟩ <;> rcases hb with rfl | ⟨s', r', rfl, hs'⟩
  · rfl
  · simp only [compare, rank?, text?, Option.bind_none, Option.bind_some, hs']
    rfl
  · simp only [compare, rank?, text?, Option.bind_none, Option.bind_some, hs]
    rfl
  · simp only [compare, compareTexts, rank?, text?, Option.getD_some, Option.bind_some, hs, hs']
    rfl

/-- Other texts in a numeric column are ordered as texts. -/
theorem totalPreorderOn_words : TotalPreorderOn IsWord (compare .numeric) := by
  refine .of_key text? fun a b ha hb => ?_
  rcases ha with rfl | ⟨s, rfl, hs⟩ <;> rcases hb with rfl | ⟨s', rfl, hs'⟩
  · rfl
  · rfl
  · rfl
  · simp only [compare, compareTexts, text?, Option.getD_some, hs, hs']
    rfl

/-- **Numbers and words run in a circle:** `10` stands before `1a` and `1a` before
`9` as texts, but `9` before `10` as numbers. -/
theorem numeric_texts_cycle :
    compare .numeric (.string "10") (.string "1a") ≠ .gt ∧
      compare .numeric (.string "1a") (.string "9") ≠ .gt ∧
        compare .numeric (.string "10") (.string "9") = .gt := by
  decide +kernel

/-- Swapping two texts of a numeric column swaps their order. -/
theorem compareTexts_numeric_swap (s s' : String) :
    compareTexts .numeric s' s = (compareTexts .numeric s s').swap := by
  unfold compareTexts
  cases hs : Binary64.read s.toList with
  | none =>
    cases hs' : Binary64.read s'.toList with
    | none => exact Std.OrientedOrd.eq_swap
    | some y => exact Std.OrientedOrd.eq_swap
  | some x =>
    cases hs' : Binary64.read s'.toList with
    | none => exact Std.OrientedOrd.eq_swap
    | some y => exact Binary64.Reading.compare_swap x y

/-- Swapping two values of a column swaps their order. -/
theorem compare_swap {t : FieldType} {k : SortKind} {a b : FieldValue} (ha : a.conformsTo t)
    (hb : b.conformsTo t) : compare k b a = (compare k a b).swap := by
  by_cases h : t = .primitive .string ∧ k = .numeric
  · obtain ⟨rfl, rfl⟩ := h
    cases a <;> cases b <;> simp_all [conformsTo, primitive?] <;>
      first | rfl | exact compareTexts_numeric_swap _ _
  · exact (totalPreorderOn_conforming h).swap a b ha hb

/-- **The laws of a sort in every column.** Values of a column tie with themselves
and swap their order when they are swapped. Order passes on from one value to the
next exactly where the column is not a numeric one of texts. -/
theorem laws_of_conforming (t : FieldType) (k : SortKind) :
    (∀ a, a.conformsTo t → compare k a a = .eq) ∧
      (∀ a b, a.conformsTo t → b.conformsTo t → compare k b a = (compare k a b).swap) ∧
        ((∀ a b c, a.conformsTo t → b.conformsTo t → c.conformsTo t →
            compare k a b ≠ .gt → compare k b c ≠ .gt → compare k a c ≠ .gt) ↔
          ¬(t = .primitive .string ∧ k = .numeric)) := by
  refine ⟨fun a ha => ?_, fun a b => compare_swap, ?_,
    fun h => (totalPreorderOn_conforming h).trans⟩
  · have hswap : compare k a a = (compare k a a).swap := compare_swap ha ha
    cases h : compare k a a <;> simp_all
  · rintro trans ⟨rfl, rfl⟩
    obtain ⟨hab, hbc, hac⟩ := numeric_texts_cycle
    exact trans _ _ _ rfl rfl rfl hab hbc hac

/-- A numeric column of texts breaks the law that order passes on. -/
theorem not_totalPreorderOn_numeric_texts :
    ¬ TotalPreorderOn (fun v => v.conformsTo (.primitive .string) = true) (compare .numeric) := by
  intro laws
  obtain ⟨hab, hbc, hac⟩ := numeric_texts_cycle
  exact laws.trans (.string "10") (.string "1a") (.string "9") rfl rfl rfl hab hbc hac

end FieldValue
end Inventory
