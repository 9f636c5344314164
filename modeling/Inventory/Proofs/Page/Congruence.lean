/-
# Alike records have alike pages

`compose` and `get` of `RenderCache`, on records that are equal.

Composing never looks at the order of slots or of the properties of an item, but
for the order in which it lists what it shows. So a page that is composed of a
record is equal to the page of any equal record (`Composer.compose_alike`), as
long as the resolvers and transforms that take part are as blind
(`Resolver.Respects`, `Transform.Respects`).
-/

import Inventory.Page.Compose
import Inventory.Proofs.Except
import Inventory.Proofs.Page.Equality
import Inventory.Proofs.Record.Equality

namespace Inventory

/-! ### Plain renderings -/

namespace FieldList

/-- A row shows the same cells, whatever the order of the properties. -/
theorem row_alike (properties : List String) {item item' : Item} (h : item.Alike Eq item') :
    (row properties item).Alike Eq (row properties item') := by
  simp only [row, h.get?_eq]
  refine OrderedMap.Alike.merge ?_ (h.filter fun _ _ _ _ => rfl)
  exact OrderedMap.alike_self (OrderedMap.nodup_keys_ofList _) fun _ _ _ => rfl

/-- Alike values have equal items. -/
theorem items_alike (field : Field) {v w : FieldValue} (h : v.Alike w) :
    (Data.list (items field v) == .list (items field w)) = true := by
  rw [Data.beq_list_iff]
  cases h with
  | absent => exact .nil
  | string s => exact .cons (Data.beq_str_self s) .nil
  | boolean b => exact .cons (Data.beq_str_self _) .nil
  | integer n => exact .cons (Data.beq_int_self n) .nil
  | timestamp t => exact .cons (Data.beq_str_self _) .nil
  | items h =>
    simp only [items, List.forall₂_map_left_iff, List.forall₂_map_right_iff]
    exact h.imp fun item item' hitem => Data.beq_object_of_texts (row_alike _ hitem)

/-- Alike values have alike elements. -/
theorem fieldElement_alike (field : Field) {v w : FieldValue} (h : v.Alike w) :
    Tree.Alike (fieldElement field v) (fieldElement field w) := by
  refine Tree.alike_ofProperties ?_
  simp [items_alike field h]

/-- The tag under which a page may be cached is equal to itself. -/
theorem beq_cacheTag_self (tag : String) :
    (Data.ofMembers [("tags", .ofTexts [tag])] == Data.ofMembers [("tags", .ofTexts [tag])])
      = true := by
  rw [Data.ofMembers, Data.beq_object]
  refine OrderedMap.beq_of_alike (OrderedMap.alike_self (List.nodup_singleton _) fun k v hv => ?_)
  have hmem := OrderedMap.mem_entries_of_get? hv
  obtain ⟨rfl, rfl⟩ := Prod.mk.inj (List.mem_singleton.1 hmem)
  exact Data.beq_ofTexts_self [tag]

/-- Alike records have the same header. -/
theorem header_alike {r r' : Record} (h : r.Alike r') (context : RenderContext) :
    Tree.Alike (header r context) (header r' context) := by
  have hheader : header r context = header r' context := by
    simp only [header, h.entityType_eq, h.id]
  rw [hheader]
  refine Tree.alike_ofProperties (List.forall₂_same.2 fun e he => ⟨rfl, ?_⟩)
  rcases List.mem_append.1 he with he | he
  · simp only [List.mem_cons, List.not_mem_nil, or_false] at he
    rcases he with rfl | rfl | rfl | rfl
    · exact Data.beq_str_self _
    · exact Data.beq_str_self _
    · exact Data.beq_str_self _
    · exact beq_cacheTag_self _
  · cases hlang : context.langcode with
    | none => simp [hlang] at he
    | some langcode =>
      simp only [hlang, List.mem_singleton] at he
      rw [he]
      exact Data.beq_str_self langcode

/-- **Step:** one element more keeps renderings alike. -/
theorem addField_alike {r r' : Record} (h : r.Alike r') {t t' : Tree} (ht : Tree.Alike t t')
    (field : Field) : SameResult Tree.Alike (addField r t field) (addField r' t' field) := by
  unfold addField
  rcases (h.value field.name).cases with ⟨e, hv, hw⟩ | ⟨v, w, hv, hw, hvw⟩
  · rw [hv, hw]
    exact .error e
  · rw [hv, hw]
    dsimp only
    rw [hvw.isEmpty_eq]
    split
    · exact .ok ht
    · exact .ok (ht.setElement _ (fieldElement_alike field hvw))

/-- **Alike records** have alike renderings, or fail alike. -/
theorem render_alike {r r' : Record} (h : r.Alike r') (context : RenderContext) :
    SameResult Tree.Alike (render r context) (render r' context) := by
  unfold render
  rw [h.schema]
  exact SameResult.foldlM (header_alike h context) fun t t' ht field _ => addField_alike h ht field

/-- Alike records have alike pages of their fields. -/
theorem renderer_alike {r r' : Record} (h : r.Alike r') (context : RenderContext) :
    SameResult Tree.Alike (renderer r context) (renderer r' context) := by
  unfold renderer
  rcases (render_alike h context).cases with ⟨e, ht, ht'⟩ | ⟨t, t', ht, ht', halike⟩
  · rw [ht, ht']
    exact .error _
  · rw [ht, ht']
    exact .ok halike

end FieldList

/-! ### Detail pages -/

/-- Whether a node is an element. -/
def Node.isElement : Node → Bool
  | .property _ => false
  | .element _ => true

/-- Alike nodes are both elements or both properties. -/
theorem Node.Alike.isElement_eq {a b : Node} (h : Node.Alike a b) : a.isElement = b.isElement := by
  cases h <;> rfl

/-- The child elements of an element, as nodes. -/
def Tree.childNodes (t : Tree) : Tree := t.filter fun key node => !isMetaKey key && node.isElement

/-- The children are the nodes that are elements. -/
theorem Tree.map_children (t : Tree) :
    (Tree.children t).map (fun e => (e.1, Node.element e.2)) = (Tree.childNodes t).entries := by
  unfold Tree.children Tree.childNodes OrderedMap.filter
  induction t.entries with
  | nil => rfl
  | cons e rest ih =>
    obtain ⟨key, node⟩ := e
    cases node with
    | property value => simpa [Node.isElement] using ih
    | element child =>
      by_cases hkey : isMetaKey key
      · simpa [Node.isElement, hkey] using ih
      · simpa [Node.isElement, hkey] using ih

namespace Composer

/-- The properties of a container. -/
def details (fieldset : Fieldset) (weight : Int32) : Tree := .ofProperties [
  ("#type", .str "details"),
  ("#title", .str fieldset.title),
  ("#open", .bool fieldset.isOpen),
  ("#weight", .int weight.toInt)]

/-- **A container** is its properties, overlaid with the child elements of the body. -/
theorem container_eq (fieldset : Fieldset) (weight : Int32) (body : Tree) :
    container fieldset weight body = (details fieldset weight).merge (Tree.childNodes body) := by
  rw [OrderedMap.merge, ← Tree.map_children, List.foldl_map]
  rfl

/-- Alike bodies make alike containers. -/
theorem container_alike (fieldset : Fieldset) (weight : Int32) {body body' : Tree}
    (h : Tree.Alike body body') :
    Tree.Alike (container fieldset weight body) (container fieldset weight body') := by
  rw [container_eq, container_eq]
  refine OrderedMap.Alike.merge ?_ (h.filter fun key a b hab => by rw [hab.isElement_eq])
  refine Tree.alike_ofProperties ?_
  simp

end Composer

/-- A resolver that shows alike values of alike records and values. -/
def Resolver.Respects (s : Resolver) : Prop :=
  ∀ r r' v w, r.Alike r' → v.Alike w → (s.shown r v).Alike (s.shown r' w)

/-- A transform that takes alike pages to alike pages. -/
def Transform.Respects (f : Transform) : Prop := ∀ t t', Tree.Alike t t' → Tree.Alike (f t) (f t')

namespace Composer

/-- A composer none of whose parts tells alike records apart. -/
structure Respects (c : Composer (Except ViewError)) : Prop where
  render : ∀ r r' context, r.Alike r' →
    SameResult Tree.Alike (c.render r context) (c.render r' context)
  resolvers : ∀ s ∈ c.resolvers, s.Respects
  transforms : ∀ f ∈ c.transforms, Transform.Respects f

/-- A resolver that does not tell alike records apart shows alike values. -/
theorem override?_alike {s : Resolver} (hs : s.Respects) {r r' : Record} (h : r.Alike r') :
    Option.Rel (fun e e' => e.1 = e'.1 ∧ FieldValue.Alike e.2 e'.2)
      (override? r s) (override? r' s) := by
  unfold override?
  rcases h.slots.cases s.field with ⟨hv, hw⟩ | ⟨v, w, hv, hw, hvw⟩
  · rw [hv, hw]
    exact .none
  · rw [hv, hw]
    dsimp only
    rw [hvw.isEmpty_eq]
    split
    · exact .none
    · exact .some ⟨rfl, hs _ _ _ _ h hvw⟩

/-- Resolvers that do not tell alike records apart show alike records. -/
theorem resolveValues_alike {resolvers : List Resolver} (hs : ∀ s ∈ resolvers, s.Respects)
    {r r' : Record} (h : r.Alike r') :
    SameResult Record.Alike (resolveValues resolvers r) (resolveValues resolvers r') := by
  unfold resolveValues
  refine Record.Alike.setAll ?_ h
  induction resolvers with
  | nil => exact .nil
  | cons s rest ih =>
    have hrest := ih fun s' hs' => hs s' (List.mem_cons_of_mem _ hs')
    rcases OrderedMap.rel_cases (override?_alike (hs s List.mem_cons_self) h) with
      ⟨hv, hw⟩ | ⟨e, e', hv, hw, he⟩
    · rwa [List.filterMap_cons_none hv, List.filterMap_cons_none hw]
    · rw [List.filterMap_cons_some hv, List.filterMap_cons_some hw]
      exact .cons he hrest

variable {c : Composer (Except ViewError)}

/-- **Step:** one container more keeps what is made alike. -/
theorem sections_alike (hc : c.Respects) {r r' : Record} (h : r.Alike r')
    (context : RenderContext) (fieldsets : List Fieldset) (weight : Int32) {done done' : Tree}
    (hdone : Tree.Alike done done') :
    SameResult Tree.Alike (c.sections nextWeight r context weight done fieldsets)
      (c.sections nextWeight r' context weight done' fieldsets) := by
  induction fieldsets generalizing weight done done' with
  | nil => exact .ok hdone
  | cons f rest ih =>
    rw [sections_cons, sections_cons]
    refine (hc.render _ _ context (h.withOnly f.fields)).bind fun body body' hbody => ?_
    exact ih (weight + 1) (hdone.setElement f.name (container_alike f weight hbody))

/-- Transforms that respect it keep pages alike. -/
theorem transforms_alike {transforms : List Transform}
    (hf : ∀ f ∈ transforms, Transform.Respects f) {t t' : Tree} (h : Tree.Alike t t') :
    Tree.Alike (transforms.foldl (fun t f => f t) t) (transforms.foldl (fun t f => f t) t') := by
  induction transforms generalizing t t' with
  | nil => exact h
  | cons f rest ih =>
    exact ih (fun f' hf' => hf f' (List.mem_cons_of_mem _ hf')) (hf f List.mem_cons_self t t' h)

/-- **Alike records have alike pages.** -/
theorem compose_alike (hc : c.Respects) {r r' : Record} (h : r.Alike r') (view : View)
    (context : RenderContext) :
    SameResult Tree.Alike (c.compose r view context) (c.compose r' view context) := by
  unfold compose composeCounting
  rcases (resolveValues_alike hc.resolvers h).cases with ⟨e, hr, hr'⟩ | ⟨r₁, r₁', hr, hr', h₁⟩
  · rw [hr, hr']
    exact .error _
  · rw [hr, hr']
    refine (sections_alike hc h₁ context view.fieldsets c.weightStart .empty).bind ?_
    intro sections sections' hsections
    refine (hc.render _ _ context h₁).bind fun whole whole' hwhole => .ok ?_
    refine transforms_alike hc.transforms ((hwhole.merge hsections).filter fun key _ _ _ => ?_)
    simp only [keeps, h₁.schema]

end Composer
end Inventory
