/-
# Equality of documents and pages

Equality of `RenderTree`.

Equality of values and of page elements compares maps at any depth. One level of
it is equality of maps with equal values (`Data.beq_object`, `Node.beq_element`).

Nodes are *alike* when they are equal in this sense and no element in them
repeats a key (`Node.Alike.beq`). Unlike equality, this is kept by every operation
on elements, because a lookup finds alike nodes in alike elements.
-/

import Inventory.Page.Tree
import Inventory.Proofs.Alike

namespace Inventory

/-! ### Values -/

namespace Data

/-- Members are compared by looking each up in the other object. -/
theorem sameMembers_eq (entries : List (String × Data)) (n : OrderedMap String Data) :
    sameMembers entries n = entries.all fun e => (n.get? e.1).any (e.2 == ·) := by
  induction entries with
  | nil => rfl
  | cons e rest ih =>
    rw [List.all_cons, ← ih]
    rfl

/-- Objects are equal when they are as maps. -/
theorem beq_object (m n : OrderedMap String Data) : (Data.object m == .object n) = (m == n) := by
  obtain ⟨entries⟩ := m
  change (entries.length == n.size && sameMembers entries n) = _
  rw [sameMembers_eq]
  rfl

/-- Lists are equal when their items are, one by one. -/
theorem beq_list_iff {as bs : List Data} :
    (Data.list as == .list bs) = true ↔ List.Forall₂ (fun a b => (a == b) = true) as bs := by
  change sameItems as bs = true ↔ _
  induction as generalizing bs with
  | nil => cases bs <;> simp [sameItems]
  | cons a as ih =>
    cases bs with
    | nil => simp [sameItems]
    | cons b bs =>
      rw [List.forall₂_cons, ← ih]
      exact Bool.and_eq_true_iff

@[simp]
theorem beq_bool_self (b : Bool) : (Data.bool b == .bool b) = true := beq_self_eq_true b

@[simp]
theorem beq_int_self (n : Int) : (Data.int n == .int n) = true := beq_self_eq_true n

@[simp]
theorem beq_str_self (s : String) : (Data.str s == .str s) = true := beq_self_eq_true s

@[simp]
theorem beq_ofTexts_self (texts : List String) : (ofTexts texts == ofTexts texts) = true := by
  rw [ofTexts, beq_list_iff, List.forall₂_same]
  intro d hd
  obtain ⟨s, -, rfl⟩ := List.mem_map.1 hd
  exact beq_str_self s

/-- Equal values are the same text, or both none. -/
theorem str?_eq_of_beq {a b : Data} (h : (a == b) = true) : a.str? = b.str? := by
  cases a <;> cases b <;> first | rfl | exact Bool.noConfusion h | exact congrArg some (eq_of_beq h)

/-- Objects of alike texts are equal. -/
theorem beq_object_of_texts {m n : OrderedMap String String} (h : m.Alike Eq n) :
    (Data.object (m.mapValues fun _ s => .str s)
      == .object (n.mapValues fun _ s => .str s)) = true := by
  rw [beq_object]
  refine OrderedMap.beq_of_alike (h.mapValues fun _ s s' hs => ?_)
  rw [hs, beq_str_self]

end Data

/-! ### Nodes -/

namespace Node

/-- Entries are compared by looking each up in the other element. -/
theorem sameEntries_eq (entries : List (String × Node)) (n : Tree) :
    sameEntries entries n = entries.all fun e => (n.get? e.1).any (e.2 == ·) := by
  induction entries with
  | nil => rfl
  | cons e rest ih =>
    rw [List.all_cons, ← ih]
    rfl

/-- Elements are equal when they are as maps. -/
theorem beq_element (m n : Tree) : (Node.element m == .element n) = (m == n) := by
  obtain ⟨entries⟩ := m
  change (entries.length == n.size && sameEntries entries n) = _
  rw [sameEntries_eq]
  rfl

/-- Equal properties, or elements without repeated keys that hold alike nodes. -/
inductive Alike : Node → Node → Prop where
  | property {d d' : Data} (h : (d == d') = true) : Alike (.property d) (.property d')
  | element {m n : Tree} (left : m.keys.Nodup) (right : n.keys.Nodup)
      (keys : ∀ k, (m.get? k).isSome = (n.get? k).isSome)
      (nodes : ∀ k a b, m.get? k = some a → n.get? k = some b → Alike a b) :
      Alike (.element m) (.element n)

/-- Elements are alike when they are as maps. -/
theorem alike_element_iff {m n : Tree} :
    Alike (.element m) (.element n) ↔ OrderedMap.Alike Alike m n := by
  constructor
  · rintro ⟨⟩
    rename_i left right keys nodes
    exact ⟨left, right, fun k => OrderedMap.rel_of_isSome_eq (keys k) (nodes k)⟩
  · exact fun h => .element h.left h.right h.isSome_eq fun k a b => h.rel

/-- **Alike nodes are equal.** -/
theorem Alike.beq {a b : Node} (h : Alike a b) : (a == b) = true := by
  induction h with
  | property h => exact h
  | element left right keys nodes ih =>
    rw [beq_element]
    refine OrderedMap.beq_of_alike ⟨left, right, fun k => ?_⟩
    exact OrderedMap.rel_of_isSome_eq (keys k) (ih k)

end Node

namespace Tree

/-- Elements of a page that hold alike nodes under the same keys. -/
abbrev Alike : Tree → Tree → Prop := OrderedMap.Alike Node.Alike

/-- **Alike elements are equal.** -/
theorem Alike.beq {t t' : Tree} (h : Tree.Alike t t') : (t == t') = true := by
  rw [← Node.beq_element]
  exact (Node.alike_element_iff.2 h).beq

/-- Setting alike children under one key keeps elements alike. -/
theorem Alike.setElement {t t' c c' : Tree} (h : Tree.Alike t t') (key : String)
    (hc : Tree.Alike c c') : Tree.Alike (Tree.setElement t key c) (Tree.setElement t' key c') :=
  h.insert key (Node.alike_element_iff.2 hc)

/-- Properties with equal values under the same keys, in the same order. -/
theorem alike_ofProperties {l l' : List (String × Data)}
    (h : List.Forall₂ (fun e e' => e.1 = e'.1 ∧ (e.2 == e'.2) = true) l l') :
    Tree.Alike (ofProperties l) (ofProperties l') := by
  refine OrderedMap.Alike.ofList ?_
  rw [List.forall₂_map_left_iff, List.forall₂_map_right_iff]
  exact h.imp fun e e' he => ⟨he.1, .property he.2⟩

/-- The elements that are found in alike elements are alike. -/
theorem Alike.element? {t t' : Tree} (h : Tree.Alike t t') (key : String) :
    Option.Rel Tree.Alike (Tree.element? t key) (Tree.element? t' key) := by
  unfold Tree.element?
  rcases h.cases key with ⟨ha, hb⟩ | ⟨a, b, ha, hb, hab⟩
  · rw [ha, hb]
    exact .none
  · rw [ha, hb]
    cases hab with
    | property => exact .none
    | element left right keys nodes =>
      exact .some (Node.alike_element_iff.1 (.element left right keys nodes))

/-- The texts that are found in alike elements are the same. -/
theorem Alike.text? {t t' : Tree} (h : Tree.Alike t t') (key : String) :
    Tree.text? t key = Tree.text? t' key := by
  unfold Tree.text? Tree.property?
  rcases h.cases key with ⟨ha, hb⟩ | ⟨a, b, ha, hb, hab⟩
  · rw [ha, hb]
  · rw [ha, hb]
    cases hab with
    | property hd => exact Data.str?_eq_of_beq hd
    | element => rfl

end Tree
end Inventory
