/-
# The message about missing rules

`rules_fallback`, and `render_detail` of security groups.

A page whose element of rules shows no permission gets a message there, and nothing else of
any page changes (`filledWith_fill`). The message shows no permission either, so that filling
a page again only puts the same message in its place (`fill_fill`).

The page of a security group has an element of rules, with a child for each permission field
that has something to show. So the message is on it exactly when the group has no rules:

| permission fields | in the element of rules |
| --- | --- |
| both absent or without items | the message |
| one with items | the children of these fields, and no message |

Whatever was done with the catalog, links found or not, a page from the cache or a fresh one
(`fills_rules`).
-/

import Inventory.Proofs.Catalog.Rendering
import Inventory.Proofs.Page.RowOrder

namespace Inventory

/-- A value is empty when it is absent or has no items. -/
theorem FieldValue.isEmpty_iff {v : FieldValue} :
    v.isEmpty = true ↔ v = .absent ∨ v = .items [] := by
  cases v <;> simp [isEmpty]

namespace Composer

/-- Beside its properties a container has the keys of its children. -/
theorem mem_keys_container_iff (f : Fieldset) (weight : Int32) {t : Tree} (ht : t.keys.Nodup)
    {key : String} (hkey : isMetaKey key = false) :
    key ∈ (container f weight t).keys ↔ key ∈ Tree.childKeys (container f weight t) := by
  rw [OrderedMap.keys, entries_container f weight ht, List.map_append, List.mem_append,
    Tree.childKeys, children_container_body f weight ht, ← Tree.childKeys, Tree.childKeys_eq]
  refine or_iff_right fun hdetails => ?_
  have hmeta : isMetaKey key = true := isMetaKey_of_mem_keys_details hdetails
  rw [hkey] at hmeta
  cases hmeta

end Composer

namespace RulesMessage

open Builtin (rulesFieldset permissionFields)

/-! ### What filling changes -/

/-- Whether an element of rules shows no permission. -/
def Lacking (rules : Tree) : Prop := ∀ field ∈ permissionFields, field ∉ rules.keys

/-- No permission is found in an element exactly when it lacks them all. -/
theorem any_contains_eq_false_iff {rules : Tree} :
    permissionFields.any rules.contains = false ↔ Lacking rules := by
  rw [List.any_eq_false]
  exact forall₂_congr fun field _ => not_congr OrderedMap.contains_iff

/-- The message for a page. -/
def messageFor (links : Option LinkBuilder) (page : Tree) : Tree :=
  message links ((Tree.text? page "#entity_type").getD "") ((Tree.text? page "#entity_id").getD "")

/-- A page and the page that is filled with a message. -/
inductive FilledWith (m : Tree) : Tree → Tree → Prop where
  /-- There is no element of rules, or some permission is shown in it. -/
  | same {page : Tree}
      (h : ∀ rules, Tree.element? page rulesFieldset = some rules → ¬ Lacking rules) :
      FilledWith m page page
  /-- The element of rules, which shows no permission, has the message besides. -/
  | filled {before after : List (String × Node)} {rules rules' : Tree}
      (h : rulesFieldset ∉ before.map Prod.fst) (hlacking : Lacking rules)
      (hrules : OrderedMap.Puts key (.element m) rules rules') :
      FilledWith m ⟨before ++ (rulesFieldset, .element rules) :: after⟩
        ⟨before ++ (rulesFieldset, .element rules') :: after⟩

variable {links : Option LinkBuilder} {page rules : Tree}

/-- An element that is found under a key is what stands there. -/
theorem get?_of_element?_eq_some {t child : Tree} {k : String}
    (h : Tree.element? t k = some child) : t.get? k = some (.element child) := by
  unfold Tree.element? at h
  split at h
  · rename_i hget
    rw [hget, Option.some.inj h]
  · cases h

/-- An element of rules without permissions gets the message. -/
theorem fill_of_lacking (hrules : Tree.element? page rulesFieldset = some rules)
    (hlacking : Lacking rules) :
    fill links page = Tree.setElement page rulesFieldset
      (Tree.setElement rules key (messageFor links page)) := by
  unfold fill
  simp only [hrules, any_contains_eq_false_iff.2 hlacking]
  rfl

/-- Any other page stays as it is. -/
theorem fill_of_not_lacking
    (h : ∀ rules, Tree.element? page rulesFieldset = some rules → ¬ Lacking rules) :
    fill links page = page := by
  unfold fill
  cases hrules : Tree.element? page rulesFieldset with
  | none => rfl
  | some rules =>
    have hshown : permissionFields.any rules.contains = true := by
      rw [← Bool.not_eq_false, any_contains_eq_false_iff]
      exact h rules hrules
    simp only [hshown]
    rfl

/-- **Filling changes the message and nothing else.** -/
theorem filledWith_fill (links : Option LinkBuilder) (page : Tree) :
    FilledWith (messageFor links page) page (fill links page) := by
  by_cases h : ∃ rules, Tree.element? page rulesFieldset = some rules ∧ Lacking rules
  · obtain ⟨rules, hrules, hlacking⟩ := h
    rw [fill_of_lacking hrules hlacking]
    obtain ⟨entries⟩ := page
    obtain ⟨before, after, rfl, hbefore⟩ :=
      OrderedMap.exists_first_of_lookupIn (get?_of_element?_eq_some hrules)
    have hset (child : Tree) : Tree.setElement
        (⟨before ++ (rulesFieldset, .element rules) :: after⟩ : Tree) rulesFieldset child
          = ⟨before ++ (rulesFieldset, .element child) :: after⟩ :=
      congrArg OrderedMap.mk (OrderedMap.insertIn_append_cons hbefore _ _ _)
    rw [hset]
    exact .filled hbefore hlacking (OrderedMap.puts_insert _ _ _)
  · have hnone : ∀ rules, Tree.element? page rulesFieldset = some rules → ¬ Lacking rules :=
      fun rules hrules hlacking => h ⟨rules, hrules, hlacking⟩
    rw [fill_of_not_lacking hnone]
    exact .same hnone

/-- The message shows no permission. -/
theorem Lacking.setElement (h : Lacking rules) (m : Tree) :
    Lacking (Tree.setElement rules key m) := by
  intro field hfield hmem
  rw [Tree.setElement, OrderedMap.keys_insert] at hmem
  split at hmem
  · exact h field hfield hmem
  · rcases List.mem_append.1 hmem with hmem | hmem
    · exact h field hfield hmem
    · obtain rfl := List.mem_singleton.1 hmem
      revert hfield
      decide

/-- The properties of a page are not among its rules. -/
theorem messageFor_setElement (links : Option LinkBuilder) (page rules : Tree) :
    messageFor links (Tree.setElement page rulesFieldset rules) = messageFor links page := by
  have htext (k : String) (hk : k ≠ rulesFieldset) :
      Tree.text? (Tree.setElement page rulesFieldset rules) k = Tree.text? page k := by
    rw [Tree.text?, Tree.property?, Tree.setElement, OrderedMap.get?_insert_of_ne hk]
    rfl
  rw [messageFor, htext _ (by decide), htext _ (by decide), messageFor]

/-- **Filling twice is filling once.** -/
theorem fill_fill (links : Option LinkBuilder) (page : Tree) :
    fill links (fill links page) = fill links page := by
  by_cases h : ∃ rules, Tree.element? page rulesFieldset = some rules ∧ Lacking rules
  · obtain ⟨rules, hrules, hlacking⟩ := h
    rw [fill_of_lacking hrules hlacking]
    generalize hm : messageFor links page = m
    have hget : (Tree.setElement page rulesFieldset (Tree.setElement rules key m)).get?
        rulesFieldset = some (.element (Tree.setElement rules key m)) :=
      OrderedMap.get?_insert_self _ _ _
    have hagain : Tree.setElement (Tree.setElement rules key m) key m
        = Tree.setElement rules key m :=
      OrderedMap.insert_eq_self (OrderedMap.get?_insert_self _ _ _)
    rw [fill_of_lacking (by rw [Tree.element?, hget]) (hlacking.setElement m),
      messageFor_setElement, hm, hagain]
    exact OrderedMap.insert_eq_self hget
  · have hnone : ∀ rules, Tree.element? page rulesFieldset = some rules → ¬ Lacking rules :=
      fun rules hrules hlacking => h ⟨rules, hrules, hlacking⟩
    rw [fill_of_not_lacking hnone, fill_of_not_lacking hnone]

end RulesMessage

/-! ### The page of a security group -/

namespace Catalog

open RulesMessage
open Builtin (rulesFieldset permissionFields securityGroup)

variable {r : Record} {c : Catalog}

/-- A security group without rules in either direction. -/
def NoRules (r : Record) : Prop :=
  ∀ field ∈ permissionFields,
    r.slots.get? field = some .absent ∨ r.slots.get? field = some (.items [])

/-- A security group has no rules exactly when neither permission field has something to show. -/
theorem noRules_iff (hr : r.BuiltOn securityGroup.schema) :
    NoRules r ↔ ∀ field ∈ permissionFields, r.shows field = false := by
  have hdeclares : ∀ field ∈ permissionFields, securityGroup.schema.declares field = true := by
    decide +kernel
  refine forall₂_congr fun field hfield => ?_
  obtain ⟨v, hv⟩ : ∃ v, r.slots.get? field = some v := by
    rw [← Option.isSome_iff_exists, hr.wellFormed.filled.isSome_slot_eq, hr.schema_eq]
    exact hdeclares field hfield
  rw [Record.shows, hv, Option.any_some, Bool.not_eq_false', FieldValue.isEmpty_iff,
    Option.some.injEq, Option.some.injEq]

/-- The built-in view of security groups agrees with the built-in schema. -/
theorem clear_securityGroup (hr : r.BuiltOn securityGroup.schema) :
    Composer.Clear r.schema securityGroup.view := by
  rw [hr.schema_eq]
  exact ⟨⟨by decide +kernel, by decide +kernel⟩, View.problems_eq_nil_iff.1 (by decide +kernel),
    by decide +kernel⟩

/-- The page of a security group before the message is put on it. -/
def unfilledPage (c : Catalog) (r : Record) : Tree :=
  Composer.pageFrom c.settings.fieldsetWeightStart r securityGroup.view c.context

/-- The page of a security group is the one with its message filled in. -/
theorem freshPage_securityGroup (hr : r.BuiltOn securityGroup.schema)
    (hview : c.view securityGroup.schema.name = .ok securityGroup.view) :
    c.freshPage r = .ok (fill c.links (c.unfilledPage r)) := by
  have htype : r.entityType = securityGroup.schema.name := by rw [Record.entityType, hr.schema_eq]
  have hinstance : securityGroup.schema.name ≠ Builtin.computeInstance.schema.name := by
    decide +kernel
  have hresolve : Composer.resolveValues (c.composer securityGroup.schema.name).resolvers r
      = .ok r := by
    simp only [composer, if_neg hinstance]
    rfl
  have hcompose := Composer.compose_eq_of_resolveValues (c := c.composer securityGroup.schema.name)
    rfl hresolve hr.wellFormed.filled securityGroup.view c.context
  have htransforms : (c.composer securityGroup.schema.name).transforms = [fill c.links] := by
    simp only [composer, if_true]
  unfold freshPage
  simp only [htype, hview, hcompose, htransforms]
  rfl

/-- The element of rules is the container of the permission fields. -/
theorem exists_rules (c : Catalog) (hr : r.BuiltOn securityGroup.schema) :
    ∃ rules, Tree.element? (c.unfilledPage r) rulesFieldset = some rules
      ∧ (∀ field ∈ permissionFields, field ∈ rules.keys ↔ r.shows field = true)
      ∧ key ∉ rules.keys := by
  obtain ⟨i, f, hf, hname, hfields⟩ : ∃ (i : Nat) (f : Fieldset),
      securityGroup.view.fieldsets[i]? = some f ∧ f.name = rulesFieldset
        ∧ f.fields = permissionFields := ⟨1, _, rfl, rfl, rfl⟩
  have hclear := clear_securityGroup hr
  have hcontainer := Composer.isContainer hclear.plain c.context
    (hclear.agrees.declared f (List.mem_of_getElem? hf)) (c.settings.fieldsetWeightStart + .ofNat i)
  have hkeys {name : String} (hmeta : isMetaKey name = false) := Composer.mem_keys_container_iff f
    (c.settings.fieldsetWeightStart + .ofNat i) (Composer.nodup_keys_body r c.context f) hmeta
  refine ⟨_, hname ▸ Composer.element?_pageFrom hclear _ hf, fun field hfield => ?_, fun hmem => ?_⟩
  · have hmeta : ∀ field ∈ permissionFields, isMetaKey field = false := by decide
    rw [hkeys (hmeta field hfield), hcontainer.mem_childKeys, hfields]
    exact and_iff_right hfield
  · have hlisted := ((hcontainer.mem_childKeys key).1 ((hkeys (by decide)).1 hmem)).1
    rw [hfields] at hlisted
    revert hlisted
    decide

/-- The properties of the page are those of the header. -/
theorem get?_unfilledPage (c : Catalog) (hr : r.BuiltOn securityGroup.schema) {k : String}
    (hk : isMetaKey k = true) :
    (c.unfilledPage r).get? k = (FieldList.header r c.context).get? k := by
  have hclear := clear_securityGroup hr
  have hname : k ∉ securityGroup.view.fieldsets.map (·.name) := by
    intro hmem
    obtain ⟨f, hf, rfl⟩ := List.mem_map.1 hmem
    rw [hclear.unlike f hf] at hk
    cases hk
  have hshown : (FieldList.shown r).get? k = none := by
    refine OrderedMap.get?_eq_none_iff.2 fun hmem => ?_
    rw [hclear.plain.unlike k (FieldList.mem_keys_shown_iff.1 hmem).1] at hk
    cases hk
  rw [unfilledPage, Composer.get?_pageFrom_of_isMetaKey hk hname,
    OrderedMap.get?_merge_of_nodup (FieldList.nodup_keys_shown hclear.plain.names), hshown,
    Option.none_or]

/-- The message is for the entity that the page shows. -/
theorem messageFor_unfilledPage (c : Catalog) (hr : r.BuiltOn securityGroup.schema) :
    messageFor c.links (c.unfilledPage r) = message c.links r.entityType r.id.toText := by
  have htype : (FieldList.header r c.context).get? "#entity_type"
      = some (.property (.str r.entityType)) := by
    unfold FieldList.header
    cases c.context.langcode <;> rfl
  have hid : (FieldList.header r c.context).get? "#entity_id"
      = some (.property (.str r.id.toText)) := by
    unfold FieldList.header
    cases c.context.langcode <;> rfl
  simp only [messageFor, Tree.text?, Tree.property?, get?_unfilledPage c hr (by decide : isMetaKey
    "#entity_type" = true), get?_unfilledPage c hr (by decide : isMetaKey "#entity_id" = true),
    htype, hid]
  rfl

/-- What is asked of the page of a security group: it has an element of rules, and in it the
message, for this group, exactly when the group has no rules. -/
def SaysMissing (links : Option LinkBuilder) (r : Record) (page : Tree) : Prop :=
  ∃ rules, Tree.element? page rulesFieldset = some rules ∧ (key ∈ rules.keys ↔ NoRules r)
    ∧ (NoRules r → ∃ m, Tree.element? rules key = some m
      ∧ (m == message links r.entityType r.id.toText) = true)

/-- The element of rules of a page that is composed afresh. -/
theorem exists_rules_fill (c : Catalog) (hr : r.BuiltOn securityGroup.schema) :
    ∃ rules, Tree.element? (fill c.links (c.unfilledPage r)) rulesFieldset = some rules
      ∧ (key ∈ rules.keys ↔ NoRules r)
      ∧ (NoRules r → Tree.element? rules key
        = some (message c.links r.entityType r.id.toText)) := by
  obtain ⟨rules, hrules, hshown, hkey⟩ := c.exists_rules hr
  have hlacking : Lacking rules ↔ NoRules r := by
    rw [noRules_iff hr]
    refine forall₂_congr fun field hfield => ?_
    rw [hshown field hfield, Bool.not_eq_true]
  by_cases hno : NoRules r
  · rw [fill_of_lacking hrules (hlacking.2 hno), messageFor_unfilledPage c hr]
    have helement (t child : Tree) (k : String) :
        Tree.element? (Tree.setElement t k child) k = some child := by
      rw [Tree.element?, Tree.setElement, OrderedMap.get?_insert_self]
    refine ⟨_, helement _ _ _, iff_of_true ?_ hno, fun _ => helement _ _ _⟩
    rw [← OrderedMap.isSome_get?_iff, Tree.setElement, OrderedMap.get?_insert_self]
    rfl
  · rw [fill_of_not_lacking fun rules' hrules' hl => ?_]
    · exact ⟨rules, hrules, iff_of_false hkey hno, fun h => absurd h hno⟩
    · obtain rfl := Option.some.inj (hrules.symm.trans hrules')
      exact hno (hlacking.1 hl)

/-- A page that is alike to the one that is composed afresh says the same. -/
theorem saysMissing_of_alike (hr : r.BuiltOn securityGroup.schema) {page : Tree}
    (h : Tree.Alike page (fill c.links (c.unfilledPage r))) : SaysMissing c.links r page := by
  obtain ⟨rules', hrules', hkey, hmessage⟩ := c.exists_rules_fill hr
  obtain ⟨rules, hrules, halike⟩ :=
    OrderedMap.exists_of_rel_some (hrules' ▸ h.element? rulesFieldset)
  refine ⟨rules, hrules, ?_, fun hno => ?_⟩
  · rw [← hkey, ← OrderedMap.isSome_get?_iff, halike.isSome_eq, OrderedMap.isSome_get?_iff]
  · obtain ⟨m, hm, hsame⟩ := OrderedMap.exists_of_rel_some (hmessage hno ▸ halike.element? key)
    exact ⟨m, hm, hsame.beq⟩

/-- **The page of a security group**, from the cache or composed afresh, says whether there
are rules. -/
theorem Sound.exists_saysMissing (h : c.Sound) (hr : r.BuiltOn securityGroup.schema)
    (hview : c.view securityGroup.schema.name = .ok securityGroup.view) :
    ∃ page c', c.renderDetail r = .ok (page, c') ∧ SaysMissing c.links r page := by
  have hsame := h.renderDetail_alike hr.wellFormed.toDistinct
  rw [freshPage_securityGroup hr hview] at hsame
  cases hrender : c.renderDetail r with
  | error e =>
    rw [hrender] at hsame
    cases hsame
  | ok shown =>
    rw [hrender] at hsame
    cases hsame with
    | ok halike => exact ⟨shown.1, shown.2, rfl, saysMissing_of_alike hr halike⟩

/-- **The message about missing rules.** On any page, with any link builder or none, it is put
into an element of rules that shows no permission, in its place or behind the rest, and
nothing else changes; doing so again changes nothing. In a catalog that was opened with any
settings and any folder of definitions and has the built-in view of security groups, whatever
was done with it, every security group has a page with an element of rules, which has the
message exactly when both permission fields are absent or have no items. Behind the last weight
the count of containers goes on at the first one; a build that checks for overflow composes the
same page while the count fits (`Composer.run_composeChecked_eq_ok_iff`). -/
theorem fills_rules (links : Option LinkBuilder) (page : Tree) :
    FilledWith (messageFor links page) page (fill links page)
      ∧ fill links (fill links page) = fill links page
      ∧ ∀ settings disk disk' c, (openWith settings).run.run disk = (.ok c, disk') →
        c.view securityGroup.schema.name = .ok securityGroup.view →
        ∀ actions, (∀ r, .render r ∈ actions → r.Distinct) →
        ∀ r : Record, r.BuiltOn securityGroup.schema →
          ∃ shown c', (c.after actions).renderDetail r = .ok (shown, c')
            ∧ SaysMissing (c.after actions).links r shown := by
  refine ⟨filledWith_fill links page, fill_fill links page, ?_⟩
  intro settings disk disk' c hopen hview actions hdistinct r hr
  exact ((sound_of_openWith hopen).after actions hdistinct).exists_saysMissing hr
    ((c.view_after actions _).trans hview)

/-- Links to the editor of rules. -/
def ruleEditor : LinkBuilder := fun entityType id => .ok ("/" ++ entityType ++ "/" ++ id)

/-- In the built-in catalog a new security group has no rules, and its page a link. -/
theorem fills_rules_builtin :
    ∃ c disk shown c' rules m, (openWith {}).run.run default = (.ok c, disk)
      ∧ (c.after [.withLinks ruleEditor]).renderDetail (.new ⟨7⟩ securityGroup.schema)
        = .ok (shown, c')
      ∧ Tree.element? shown rulesFieldset = some rules ∧ Tree.element? rules key = some m
      ∧ (m == linked "/aws_cloud_security_group/00000000000000000000000007") = true := by
  have hviews : (((openWith {}).run.run default).1.toOption.any fun c =>
      (c.view securityGroup.schema.name).toOption.any (decide <| · = securityGroup.view)) = true := by
    decide +kernel
  rcases hopen : (openWith {}).run.run default with ⟨e | c, disk⟩
  · rw [hopen] at hviews
    cases hviews
  · have hview : c.view securityGroup.schema.name = .ok securityGroup.view := by
      simp only [hopen, Except.toOption, Option.any_some] at hviews
      cases hfound : c.view securityGroup.schema.name with
      | error e => simp [hfound] at hviews
      | ok v =>
        simp only [hfound, Option.any_some, decide_eq_true_eq] at hviews
        rw [hviews]
    have hno : NoRules (.new ⟨7⟩ securityGroup.schema) :=
      (noRules_iff (.new ⟨7⟩)).2 (by decide +kernel)
    obtain ⟨shown, c', hshown, rules, hrules, -, hmessage⟩ :=
      (fills_rules (some ruleEditor) .empty).2.2 {} default disk c hopen hview
        [.withLinks ruleEditor] (fun r hr => by simp at hr) _ (.new ⟨7⟩)
    obtain ⟨m, hm, hlinked⟩ := hmessage hno
    exact ⟨c, disk, shown, c', rules, m, rfl, hshown, hrules, hm, hlinked⟩

end Catalog
end Inventory
