/-
# Composers that outlive an exchange of roles

`CloudCatalog` hands out composers (`composer`), which share its cache of pages. An exchange
of the role directory (`with_role_directory`) empties the cache, but a composer from before
goes on looking up roles in the directory from before, and keeps its pages in the same cache.

| entity type | after the exchange |
| --- | --- |
| instances | the catalog shows a page that the composer from before has kept |
| any other | the composer from before is the one that is handed out now |

So sharing the cache shows on instances (`Catalog.not_transparent_handedOut`) and on nothing
else (`Catalog.transparent_handedOut`).
-/

import Inventory.Proofs.Catalog.Rendering
import Inventory.Proofs.Page.SharedCache

namespace Inventory
namespace Catalog

variable {c : Catalog} {roles : RoleDirectory} {entityType : String}

/-- The composers of an entity type from before and from after an exchange of roles. -/
def handedOut (c : Catalog) (roles : RoleDirectory) (entityType : String) :
    Bool → Composer (Except ViewError)
  | false => c.composer entityType
  | true => (c.withRoles roles).composer entityType

/-- Roles are looked up for instances only. -/
theorem composer_withRoles (c : Catalog) (roles : RoleDirectory)
    (h : entityType ≠ Builtin.computeInstance.schema.name) :
    (c.withRoles roles).composer entityType = c.composer entityType := by
  simp only [composer, if_neg h]
  rfl

/-- **Of any other type** the composers are the same, and so sharing the cache does not show. -/
theorem transparent_handedOut (c : Catalog) (roles : RoleDirectory)
    (h : entityType ≠ Builtin.computeInstance.schema.name) :
    SharedCache.Transparent (c.handedOut roles entityType) := by
  have hcomposer (after : Bool) : c.handedOut roles entityType after = c.composer entityType := by
    cases after with
    | false => rfl
    | true => exact c.composer_withRoles roles h
  refine SharedCache.transparent_of_agree (SharedCache.agree_of_same (fun i j => ?_) fun i => ?_)
  · rw [hcomposer i, hcomposer j]
  · rw [hcomposer i]
    exact composer_respects c entityType

/-- **A page from before the exchange** that a composer from before keeps after it is the page
that the catalog shows. -/
theorem renderDetail_withRoles {r : Record} {v : View} {page : Tree}
    (hcache : c.settings.renderCache = true) (hview : c.view r.entityType = .ok v)
    (hr : r.Distinct) (hpage : (c.composer r.entityType).compose r v c.context = .ok page) :
    ∃ cache, (c.composer r.entityType).renderDetail (c.withRoles roles).cache r v c.context
        = .ok (page, cache)
      ∧ ∃ c', ((c.withRoles roles).withCache cache).renderDetail r = .ok (page, c') := by
  have hnone : (c.withRoles roles).cache.get? r v c.context = none := rfl
  refine ⟨(c.withRoles roles).cache.insert r v c.context page, ?_, ?_⟩
  · unfold Composer.renderDetail
    rw [hnone, hpage]
    rfl
  · have hkept := SharedCache.get?_insert_of_alike hr.alike_self (c.withRoles roles).cache v
      c.context page
    generalize (c.withRoles roles).cache.insert r v c.context page = cache at hkept
    have hview' : ((c.withRoles roles).withCache cache).view r.entityType = .ok v := hview
    have hcache' : ((c.withRoles roles).withCache cache).settings.renderCache = true := hcache
    have hget : ((c.withRoles roles).withCache cache).cache.get? r v
      ((c.withRoles roles).withCache cache).context = some page := hkept
    simp only [renderDetail, hview', hcache', if_true, Composer.renderDetail, hget]
    exact ⟨_, rfl⟩

/-! ### Instances -/

/-- Instances that are labelled with their role. -/
def labelledSchema : Schema where
  name := Builtin.computeInstance.schema.name
  label := "Instance"
  labelField := roleField
  fields := [.string Record.contextField "Context", .string roleField "Role"]

/-- An instance with a role. -/
def labelled (role : String) : Record where
  id := ⟨1⟩
  schema := labelledSchema
  slots := .ofList [(Record.contextField, .string "east"), (roleField, .string role)]

theorem builtOn_labelled (role : String) : (labelled role).BuiltOn labelledSchema := by
  have hedits : ((Record.new ⟨1⟩ labelledSchema).set Record.contextField (.string "east")).bind
      (fun r => r.set roleField (.string role)) = .ok (labelled role) := rfl
  obtain ⟨r, hr, hset⟩ := bind_eq_ok_iff.1 hedits
  exact .set (.set (.new ⟨1⟩) (fun _ h => by cases h) hr) (fun _ h => by cases h) hset

/-- Under the role of an instance stands the element of its label. -/
theorem get?_page_labelled (role : String) {view : View} (hview : view.fieldsets = [])
    (context : RenderContext) :
    (Composer.page (labelled role) view context).get? roleField
      = some (.element (FieldList.fieldElement (.string roleField "Role") (.string role))) := by
  have hnames : labelledSchema.fieldNames.Nodup := by decide
  have hkeeps : Composer.keeps view (labelled role) roleField = true := by
    rw [Composer.keeps, hview]
    rfl
  have hshown : (FieldList.shown (labelled role)).get? roleField
      = some (.element (FieldList.fieldElement (.string roleField "Role") (.string role))) := by
    have hempty : (FieldValue.string role).isEmpty = false := rfl
    have hslot : (labelled role).slots.get? roleField = some (.string role) := rfl
    refine (FieldList.get?_shown_eq_some_iff hnames).2
      ⟨.string roleField "Role", List.mem_cons_of_mem _ List.mem_cons_self, rfl, ?_⟩
    unfold FieldList.shownNode?
    simp only [Field.string, hslot, hempty]
    rfl
  rw [Composer.get?_page hnames, if_pos hkeeps, hview, hshown]
  rfl

/-- **On instances** sharing the cache shows: a catalog without role directory gets one, and
a composer from before keeps a page with the role in place of its name. -/
theorem not_transparent_handedOut (c : Catalog) (h : c.roles = none) :
    ¬ SharedCache.Transparent (c.handedOut oneRole Builtin.computeInstance.schema.name) := by
  intro htransparent
  have hr := (builtOn_labelled "r1").wellFormed
  let view : View := { entityType := Builtin.computeInstance.schema.name }
  have hbefore : (c.handedOut oneRole Builtin.computeInstance.schema.name false).compose
      (labelled "r1") view {} = .ok (Composer.page (labelled "r1") view {}) := by
    have hresolve : Composer.resolveValues (c.handedOut oneRole
        Builtin.computeInstance.schema.name false).resolvers (labelled "r1")
          = .ok (labelled "r1") := by
      simp only [handedOut, composer, h]
      rfl
    exact Composer.compose_eq_of_resolveValues rfl hresolve hr.filled view {}
  have hafter : (c.handedOut oneRole Builtin.computeInstance.schema.name true).compose
      (labelled "r1") view {} = .ok (Composer.page (labelled "admin") view {}) :=
    Composer.compose_eq_of_resolveValues rfl rfl (builtOn_labelled "admin").wellFormed.filled
      view {}
  obtain ⟨page', hpage', hequal⟩ := SharedCache.agree_of_transparent htransparent false true _ _
    hr.toDistinct hr.toDistinct hr.toDistinct.alike_self.beq _ _ _ hbefore
  obtain rfl := Except.ok.inj (hafter.symm.trans hpage')
  have hnodes := (OrderedMap.alike_of_beq (Composer.nodup_keys_page _ view {})
    (Composer.nodup_keys_page _ view {}) hequal).rel
      (get?_page_labelled "r1" rfl {}) (get?_page_labelled "admin" rfl {})
  revert hnodes
  decide +kernel

end Catalog
end Inventory
