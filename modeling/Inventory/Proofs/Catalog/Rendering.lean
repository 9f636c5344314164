/-
# Which detail pages render

`render_detail` of `CloudCatalog`, with `resolve` of `IamRoleResolver`.

A record that is built on a schema has a value for every field that is asked for, so its
plain page is always rendered. What a catalog adds can go wrong in one place: the name of a
role is shown in the field of the role, where it has to fit.

| what is looked up | when it is found | when it is not |
| --- | --- | --- |
| the name of a role that is a text | it is shown | the role is shown |
| the name of a role that is another scalar | there is no page | the role is shown |
| a link | it is shown | the message without link is shown |

Schemas of a folder may give the role any type, so a catalog always renders exactly when its
instances have no roles of the second kind (`Catalog.alwaysRenders_iff`). A build that checks
for overflow also has to find a weight for each container
(`Catalog.alwaysComposesChecked_iff`).
-/

import Inventory.Proofs.Catalog.Transparency
import Inventory.Proofs.Definitions.Opening
import Inventory.Proofs.Page.Substitution

namespace Inventory

/-! ### Roles -/

/-- A name fits a field exactly when the field holds texts. -/
theorem FieldValue.conformsTo_string_iff {name : String} {t : FieldType} :
    (FieldValue.string name).conformsTo t = true ↔ t = .primitive .string := by
  cases t with
  | composite properties => exact iff_of_false Bool.false_ne_true fun h => by cases h
  | primitive t => cases t <;> simp [conformsTo, primitive?]

/-- A composite field holds nothing that has a text. -/
theorem FieldValue.text?_of_conformsTo_composite {v : FieldValue} {properties : List String}
    (h : v.conformsTo (.composite properties) = true) : v.text? = none := by
  cases v <;> first
    | rfl
    | cases h

/-- Scalars of every type have texts. -/
theorem PrimitiveType.exists_scalar (t : PrimitiveType) :
    ∃ (v : FieldValue) (role : String), v.conformsTo (.primitive t) = true
      ∧ v.text? = some role ∧ v.Distinct := by
  cases t with
  | string => exact ⟨.string "5", "5", rfl, rfl, fun _ h => by cases h⟩
  | boolean => exact ⟨.boolean true, "true", rfl, rfl, fun _ h => by cases h⟩
  | integer => exact ⟨.integer 5, _, rfl, rfl, fun _ h => by cases h⟩
  | timestamp => exact ⟨.timestamp .epoch, _, rfl, rfl, fun _ h => by cases h⟩

/-- The cloud context of a record is the text in its field. -/
theorem Record.cloudContext?_eq_some_iff {r : Record} {context : String} :
    r.cloudContext? = some context ↔
      r.slots.get? contextField = some (.string context) := by
  unfold cloudContext? get value
  rcases r.slots.get? contextField with _ | v
  · simp
  · cases v <;> simp [FieldValue.asString]

/-- A role that is not a text, for whose text a directory has a name. -/
def Record.Misfit (directory : RoleDirectory) (r : Record) : Prop :=
  ∃ f v context role name, r.schema.field? roleField = some f ∧ f.type ≠ .primitive .string
    ∧ r.slots.get? roleField = some v ∧ r.cloudContext? = some context ∧ v.text? = some role
    ∧ directory context role = .ok (some name)

/-- A role is resolved when it has a text, in a cloud context, that the directory has a name for.
-/
theorem roleResolver_eq_some_iff {directory : RoleDirectory} {r : Record} {v w : FieldValue} :
    (roleResolver directory).resolve r v = some w ↔
      ∃ context role name, r.cloudContext? = some context ∧ v.text? = some role
        ∧ directory context role = .ok (some name) ∧ w = .string name := by
  simp only [roleResolver]
  cases hcontext : r.cloudContext? with
  | none => simp
  | some context =>
    cases hrole : v.text? with
    | none => simp
    | some role =>
      rcases hname : directory context role with e | _ | name
      · simp [hname]
      · simp [hname]
      · simp [hname, eq_comm]

/-- **The name of a role** does not fit the field of the role exactly when the role is a
misfit. -/
theorem exists_misfits_roleResolver_iff {r : Record} (h : r.Filled) (directory : RoleDirectory) :
    (∃ e, (roleResolver directory).Misfits r e) ↔ r.Misfit directory := by
  constructor
  · rintro ⟨-, f, v, hf, hv, -, hmisfits, rfl⟩
    cases hresolve : (roleResolver directory).resolve r v with
    | none =>
      -- The role itself is shown, and it fits.
      obtain ⟨f', hf', hfits⟩ := h.fits _ v hv
      obtain rfl := Option.some.inj (hf.symm.trans hf')
      rw [Resolver.shown, hresolve] at hmisfits
      exact absurd hfits (Bool.eq_false_iff.1 hmisfits)
    | some w =>
      obtain ⟨context, role, name, hcontext, hrole, hname, rfl⟩ :=
        roleResolver_eq_some_iff.1 hresolve
      rw [Resolver.shown, hresolve, Option.getD_some, ← Bool.not_eq_true,
        FieldValue.conformsTo_string_iff] at hmisfits
      exact ⟨f, v, context, role, name, hf, hmisfits, hv, hcontext, hrole, hname⟩
  · rintro ⟨f, v, context, role, name, hf, htype, hv, hcontext, hrole, hname⟩
    have hresolve : (roleResolver directory).resolve r v = some (.string name) :=
      roleResolver_eq_some_iff.2 ⟨context, role, name, hcontext, hrole, hname, rfl⟩
    have hempty : v.isEmpty = false := by
      cases v <;> simp [FieldValue.text?, FieldValue.isEmpty] at hrole ⊢
    refine ⟨_, f, v, hf, hv, hempty, ?_, rfl⟩
    rw [Resolver.shown, hresolve, Option.getD_some, ← Bool.not_eq_true,
      FieldValue.conformsTo_string_iff]
    exact htype

/-! ### Schemas and views -/

/-- Schemas are registered under their own names. -/
theorem SchemaRegistry.named_of_extend {registry registry' : SchemaRegistry}
    {schemas : List Schema} (h : Schema.format.Named registry.schemas)
    (hextend : registry.extend schemas = .ok registry') :
    Schema.format.Named registry'.schemas := by
  induction schemas generalizing registry with
  | nil =>
    obtain rfl := Except.ok.inj hextend
    exact h
  | cons s rest ih =>
    rw [extend, insert_eq] at hextend
    split at hextend
    · cases hextend
    · cases hvalidate : s.validate with
      | error e => simp [hvalidate] at hextend
      | ok _ =>
        rw [hvalidate] at hextend
        exact ih (h.insert s) hextend

/-- Views are accepted when each agrees with its schema. -/
theorem ViewFolder.checkEach_eq_ok {schemas : SchemaRegistry} {mode : ValidationMode}
    {views : List View}
    (h : ∀ v ∈ views, ∃ s, schemas.require v.entityType = .ok s ∧ v.check s mode = .ok ()) :
    checkEach schemas mode views = .ok () := by
  induction views with
  | nil => rfl
  | cons v rest ih =>
    obtain ⟨⟨s, hs, hcheck⟩, hrest⟩ := List.forall_mem_cons.1 h
    rw [checkEach, hs]
    simp only [hcheck]
    exact ih hrest

namespace Catalog

open DiskM

variable {c : Catalog} {r : Record}

/-- Opening the definitions of a folder. -/
theorem definitions_some_eq_ok_iff {root : String} {disk disk' : Disk}
    {schemas : SchemaRegistry} {views : ViewFolder} :
    (definitions (some root)).run.run disk = (.ok (schemas, views), disk') ↔
      ∃ held disk₁, (SchemaFolder.openAt (.ofText root) Builtin.schemas).run.run disk
          = (.ok held, disk₁)
        ∧ (ViewFolder.openAt (.ofText root) Builtin.views).run.run disk₁ = (.ok views, disk')
        ∧ SchemaFolder.registry held = schemas := by
  unfold definitions
  simp only [run_bind_eq_ok_iff, run_adapt_eq_ok_iff, run_pure_eq_ok_iff, Prod.mk.injEq]
  constructor
  · rintro ⟨held, disk₁, hschemas, _, _, hviews, ⟨rfl, rfl⟩, rfl⟩
    exact ⟨held, disk₁, hschemas, hviews, rfl⟩
  · rintro ⟨held, disk₁, hschemas, hviews, rfl⟩
    exact ⟨held, disk₁, hschemas, _, _, hviews, ⟨rfl, rfl⟩, rfl⟩

/-- Whatever folder they are from, definitions are found under their own names. -/
theorem named_of_definitions {registryRoot : Option String} {disk disk' : Disk}
    {schemas : SchemaRegistry} {views : ViewFolder}
    (h : (definitions registryRoot).run.run disk = (.ok (schemas, views), disk')) :
    Schema.format.Named schemas.schemas := by
  cases registryRoot with
  | none =>
    unfold definitions at h
    cases hlist : SchemaRegistry.ofList Builtin.schemas with
    | error e =>
      rw [hlist] at h
      exact absurd h run_throw_ne_ok
    | ok registry =>
      rw [hlist] at h
      obtain ⟨hpair, -⟩ := run_pure_eq_ok_iff.1 h
      obtain ⟨rfl, -⟩ := Prod.mk.inj hpair
      exact SchemaRegistry.named_of_extend (fun name s hs => by cases hs) hlist
  | some root =>
    obtain ⟨held, disk₁, hopen, -, rfl⟩ := definitions_some_eq_ok_iff.1 h
    obtain ⟨d₁, d₂, byName, -, -, hload, rfl⟩ := Definitions.openAt_eq_ok_iff.1 hopen
    exact DefinitionFormat.named_of_load hload

/-- **In a catalog that was opened** a schema is found under its own name. -/
theorem name_of_openWith {settings : Settings} {disk disk' : Disk}
    (hopen : (openWith settings).run.run disk = (.ok c, disk')) {entityType : String} {s : Schema}
    (hs : c.schema entityType = .ok s) : s.name = entityType := by
  obtain ⟨-, schemas, views, hfound, -, rfl⟩ := openWith_eq_ok_iff.1 hopen
  refine named_of_definitions hfound entityType s ?_
  simp only [schema, SchemaRegistry.require, SchemaRegistry.get?] at hs
  cases hget : schemas.schemas.get? entityType with
  | none => simp [hget] at hs
  | some s' =>
    rw [hget] at hs
    exact congrArg some (Except.ok.inj hs)

/-! ### One page -/

/-- The values that a catalog shows can be set, unless the record is an instance with a
misfit role. -/
theorem exists_resolveValues_composer (c : Catalog) (h : r.Filled) :
    (∃ r', Composer.resolveValues (c.composer r.entityType).resolvers r = .ok r') ↔
      (r.entityType = Builtin.computeInstance.schema.name →
        ∀ directory, c.roles = some directory → ¬r.Misfit directory) := by
  rw [Composer.exists_resolveValues_iff h]
  simp only [composer]
  split
  · rename_i hinstance
    cases c.roles with
    | none => simp
    | some directory => simp [← exists_misfits_roleResolver_iff h directory, hinstance]
  · rename_i hother
    exact iff_of_true (fun _ hs => absurd hs List.not_mem_nil) fun hinstance =>
      absurd hinstance hother

/-- A page that is composed afresh is composed under the view of its type. -/
theorem exists_freshPage_iff_compose {v : View} (hview : c.view r.entityType = .ok v) :
    (∃ page, c.freshPage r = .ok page) ↔
      ∃ page, (c.composer r.entityType).compose r v c.context = .ok page := by
  unfold freshPage
  cases hcompose : (c.composer r.entityType).compose r v c.context <;> simp [hview, hcompose]

/-- **A detail page** is composed when there is a view, unless the record is an instance
with a misfit role. -/
theorem exists_freshPage_iff (c : Catalog) (h : r.Filled) :
    (∃ page, c.freshPage r = .ok page) ↔
      (∃ v, c.view r.entityType = .ok v)
        ∧ (r.entityType = Builtin.computeInstance.schema.name →
          ∀ directory, c.roles = some directory → ¬r.Misfit directory) := by
  rw [← c.exists_resolveValues_composer h]
  cases hview : c.view r.entityType with
  | error e => simp [freshPage, hview]
  | ok v =>
    rw [exists_freshPage_iff_compose hview,
      ← Composer.exists_compose_iff (c := c.composer r.entityType) rfl h v c.context]
    simp

/-- With a sound cache a page is shown when one is composed. -/
theorem Sound.exists_renderDetail_iff (hc : c.Sound) (h : r.Distinct) :
    (∃ page c', c.renderDetail r = .ok (page, c')) ↔ ∃ page, c.freshPage r = .ok page := by
  have hsame := hc.renderDetail h
  cases hrender : c.renderDetail r with
  | error e =>
    rw [hrender] at hsame
    rcases hsame.cases with ⟨e', -, hfresh⟩ | ⟨t, t', hpage, -, -⟩
    · exact iff_of_false (fun ⟨_, _, h⟩ => by cases h) fun ⟨_, h⟩ => by cases hfresh.symm.trans h
    · cases hpage
  | ok shown =>
    rw [hrender] at hsame
    rcases hsame.cases with ⟨e', hpage, -⟩ | ⟨t, t', -, hfresh, -⟩
    · cases hpage
    · exact iff_of_true ⟨shown.1, shown.2, rfl⟩ ⟨t', hfresh⟩

/-! ### After anything was done -/

/-- The catalog after actions, one after another. -/
def after (c : Catalog) (actions : List Action) : Catalog := actions.foldl step c

/-- **Step:** an action changes no schema, no view and no setting. -/
theorem step_definitions (c : Catalog) (a : Action) : (c.step a).schemas = c.schemas
    ∧ (c.step a).views = c.views ∧ (c.step a).settings = c.settings := by
  cases a with
  | render r =>
    have hrendering := c.rendering r
    simp only [step]
    generalize c.renderDetail r = result at hrendering ⊢
    cases hrendering with
    | noView hview => exact ⟨rfl, rfl, rfl⟩
    | kept hview hkept => exact ⟨rfl, rfl, rfl⟩
    | failed hview hcompose => exact ⟨rfl, rfl, rfl⟩
    | @composed view page hview hcompose =>
      change (c.keeping r view page).schemas = c.schemas
        ∧ (c.keeping r view page).views = c.views
        ∧ (c.keeping r view page).settings = c.settings
      unfold keeping
      split <;> exact ⟨rfl, rfl, rfl⟩
  | _ => exact ⟨rfl, rfl, rfl⟩

/-- **Run:** actions change no schema, no view and no setting. -/
theorem after_definitions (c : Catalog) (actions : List Action) :
    (c.after actions).schemas = c.schemas ∧ (c.after actions).views = c.views
      ∧ (c.after actions).settings = c.settings := by
  induction actions generalizing c with
  | nil => exact ⟨rfl, rfl, rfl⟩
  | cons a rest ih =>
    obtain ⟨hschemas, hviews, hsettings⟩ := ih (c.step a)
    obtain ⟨hschemas', hviews', hsettings'⟩ := c.step_definitions a
    exact ⟨hschemas.trans hschemas', hviews.trans hviews', hsettings.trans hsettings'⟩

/-- **Run:** actions change no view of an entity type. -/
theorem view_after (c : Catalog) (actions : List Action) (entityType : String) :
    (c.after actions).view entityType = c.view entityType := by
  rw [view, (c.after_definitions actions).2.1]
  rfl

/-- **Run:** actions keep the cache sound. -/
theorem Sound.after (h : c.Sound) (actions : List Action)
    (hdistinct : ∀ r, .render r ∈ actions → r.Distinct) : (c.after actions).Sound := by
  induction actions generalizing c with
  | nil => exact h
  | cons a rest ih =>
    have ha : ∀ r, a = .render r → r.Distinct := by
      rintro r rfl
      exact hdistinct r List.mem_cons_self
    exact ih (h.step a ha) fun r hr => hdistinct r (List.mem_cons_of_mem _ hr)

/-- **Detail pages always render:** whatever was done with the catalog, every record that is
built on one of its schemas has a detail page when there is a view for it. -/
def AlwaysRenders (c : Catalog) : Prop :=
  ∀ actions, (∀ r, .render r ∈ actions → r.Distinct) → ∀ entityType s r v,
    c.schema entityType = .ok s → r.BuiltOn s → c.view entityType = .ok v →
      ∃ page c', (c.after actions).renderDetail r = .ok (page, c')

/-- The roles of instances that have a view and a cloud context are texts or items. -/
def RolesFit (c : Catalog) : Prop :=
  ∀ s v, c.schema Builtin.computeInstance.schema.name = .ok s →
    c.view Builtin.computeInstance.schema.name = .ok v →
    ∀ f g, s.field? roleField = some f → s.field? Record.contextField = some g →
      g.type = .primitive .string →
      f.type = .primitive .string ∨ ∃ properties, f.type = .composite properties

/-! ### Every record -/

/-- A field that fits roles holds no misfit. -/
theorem RolesFit.not_misfit (h : c.RolesFit) {s : Schema} {v : View} (hr : r.BuiltOn s)
    (hs : c.schema Builtin.computeInstance.schema.name = .ok s)
    (hv : c.view Builtin.computeInstance.schema.name = .ok v) (directory : RoleDirectory) :
    ¬r.Misfit directory := by
  rintro ⟨f, value, context, role, name, hf, htype, hvalue, hcontext, hrole, -⟩
  have hfits := hr.wellFormed.fits
  rw [hr.schema_eq] at hf hfits
  obtain ⟨g, hg, hcontextFits⟩ := hfits _ _ (Record.cloudContext?_eq_some_iff.1 hcontext)
  obtain ⟨f', hf', hvalueFits⟩ := hfits _ _ hvalue
  obtain rfl := Option.some.inj (hf.symm.trans hf')
  rcases h s v hs hv f g hf hg (FieldValue.conformsTo_string_iff.1 hcontextFits) with
    hstring | ⟨properties, hcomposite⟩
  · exact htype hstring
  · rw [hcomposite] at hvalueFits
    rw [FieldValue.text?_of_conformsTo_composite hvalueFits] at hrole
    cases hrole

/-- The directory in which every role has the same name. -/
def oneRole : RoleDirectory := fun _ _ => .ok (some "admin")

/-- A field that does not fit roles holds a misfit on some record. -/
theorem exists_misfit {s : Schema} {f g : Field} {t : PrimitiveType}
    (hf : s.field? roleField = some f) (hg : s.field? Record.contextField = some g)
    (hcontext : g.type = .primitive .string) (htype : f.type = .primitive t) (ht : t ≠ .string) :
    ∃ r : Record, r.BuiltOn s ∧ r.Misfit oneRole := by
  obtain ⟨v, role, hfits, hrole, hdistinct⟩ := t.exists_scalar
  let r₁ : Record := { Record.new ⟨1⟩ s with
    slots := (Record.new ⟨1⟩ s).slots.insert Record.contextField (.string "east") }
  let r₂ : Record := { r₁ with slots := r₁.slots.insert roleField v }
  have hr₁ : (Record.new ⟨1⟩ s).set Record.contextField (.string "east") = .ok r₁ :=
    Record.set_eq_ok_iff.2 ⟨g, hg, hcontext ▸ rfl, rfl⟩
  have hr₂ : r₁.set roleField v = .ok r₂ :=
    Record.set_eq_ok_iff.2 ⟨f, hf, htype ▸ hfits, rfl⟩
  have hbuilt : r₂.BuiltOn s :=
    ((Record.BuiltOn.new ⟨1⟩).set (fun _ h => by cases h) hr₁).set hdistinct hr₂
  have hne : Record.contextField ≠ roleField := by decide
  refine ⟨r₂, hbuilt, f, v, "east", role, "admin", hf, ?_, OrderedMap.get?_insert_self _ _ _,
    Record.cloudContext?_eq_some_iff.2 ?_, hrole, rfl⟩
  · rw [htype]
    exact fun h => ht (FieldType.primitive.inj h)
  · exact (OrderedMap.get?_insert_of_ne hne _ _).trans (OrderedMap.get?_insert_self _ _ _)

/-- A catalog that is opened has an empty cache, which is sound. -/
theorem sound_of_openWith {settings : Settings} {disk disk' : Disk}
    (hopen : (openWith settings).run.run disk = (.ok c, disk')) : c.Sound := by
  obtain ⟨-, schemas, views, -, -, rfl⟩ := openWith_eq_ok_iff.1 hopen
  exact sound_of_cache_eq_empty rfl

/-- Pages of a catalog in which schemas are found under their own names. -/
theorem alwaysRenders_iff_of_named (hsound : c.Sound)
    (hnamed : ∀ entityType s, c.schema entityType = .ok s → s.name = entityType) :
    c.AlwaysRenders ↔ c.RolesFit := by
  constructor
  · intro hrenders s v hs hv f g hf hg hcontext
    cases htype : f.type with
    | composite properties => exact .inr ⟨properties, rfl⟩
    | primitive t =>
      refine .inl (congrArg _ (by_contra fun ht => ?_))
      -- A record with a misfit is built, and its role looked up.
      obtain ⟨r, hr, hmisfit⟩ := exists_misfit hf hg hcontext htype ht
      have hname : r.entityType = Builtin.computeInstance.schema.name := by
        rw [Record.entityType, hr.schema_eq, hnamed _ s hs]
      have hpage := hrenders [.withRoles oneRole] (fun r hr => by simp at hr) _ s r v hs hr hv
      change ∃ page c', (c.withRoles oneRole).renderDetail r = .ok (page, c') at hpage
      rw [(sound_of_cache_eq_empty rfl).exists_renderDetail_iff hr.wellFormed.toDistinct,
        exists_freshPage_iff _ hr.wellFormed.filled] at hpage
      exact hpage.2 hname oneRole rfl hmisfit
  · intro hfit actions hdistinct entityType s r v hs hr hv
    have hname : r.entityType = entityType := by
      rw [Record.entityType, hr.schema_eq, hnamed _ s hs]
    have hview : (c.after actions).view entityType = .ok v :=
      (c.view_after actions entityType).trans hv
    rw [(hsound.after actions hdistinct).exists_renderDetail_iff hr.wellFormed.toDistinct,
      exists_freshPage_iff _ hr.wellFormed.filled, hname]
    refine ⟨⟨v, hview⟩, fun hinstance directory _ => ?_⟩
    subst hinstance
    exact hfit.not_misfit hr hs hv directory

/-- **When detail pages always render.** Take a catalog that was opened with any settings, weights
at either end of the range included, and any folder of definitions. Whatever is done with it, with any role directories and link
builders, every record that is built on one of its schemas has a detail page when there is a
view for it, exactly when the roles of instances are texts or items, or instances have no
view or no cloud context. -/
theorem alwaysRenders_iff {settings : Settings} {disk disk' : Disk}
    (hopen : (openWith settings).run.run disk = (.ok c, disk')) :
    c.AlwaysRenders ↔ c.RolesFit :=
  alwaysRenders_iff_of_named (sound_of_openWith hopen) fun _ _ hs => name_of_openWith hopen hs

/-- The roles of the built-in instances are texts, so the built-in catalog always renders. -/
theorem alwaysRenders_iff_builtin :
    ∃ c disk, (openWith {}).run.run default = (.ok c, disk) ∧ c.RolesFit ∧ c.AlwaysRenders := by
  have hroles : (((openWith {}).run.run default).1.toOption.any fun c =>
      (c.schema Builtin.computeInstance.schema.name).toOption.any fun s =>
        (s.field? roleField).all fun f => decide (f.type = .primitive .string)) = true := by
    decide +kernel
  rcases hopen : (openWith {}).run.run default with ⟨e | c, disk⟩
  · rw [hopen] at hroles
    cases hroles
  · have hfit : c.RolesFit := fun s v hs _ f g hf _ _ => by
      simp only [hopen, Except.toOption, Option.any_some, hs, hf, Option.all_some] at hroles
      exact .inl (of_decide_eq_true hroles)
    exact ⟨c, disk, rfl, hfit, (alwaysRenders_iff hopen).2 hfit⟩

/-! ### Builds that check for overflow -/

/-- Detail pages are always composed in a build that checks for overflow. -/
def AlwaysComposesChecked (c : Catalog) : Prop :=
  ∀ actions, (∀ r, .render r ∈ actions → r.Distinct) → ∀ entityType s r v,
    c.schema entityType = .ok s → r.BuiltOn s → c.view entityType = .ok v →
      ∃ page, (((c.after actions).composer r.entityType).composeChecked r v
        (c.after actions).context).run = .ok (.ok page)

/-- The fieldsets of every view can be counted from the weight that the settings start with,
and the count goes one further. -/
def WeightsFit (c : Catalog) : Prop :=
  ∀ entityType s v, c.schema entityType = .ok s → c.view entityType = .ok v →
    c.settings.fieldsetWeightStart.toInt + v.fieldsets.length < 2147483647

/-- **Run:** the weight of the first container stays what the settings say. -/
theorem weightStart_composer_after (c : Catalog) (actions : List Action) (entityType : String) :
    ((c.after actions).composer entityType).weightStart = c.settings.fieldsetWeightStart := by
  rw [← (c.after_definitions actions).2.2]
  rfl

/-- After actions a page is shown when it can be composed. -/
theorem Sound.exists_renderDetail_after_iff (h : c.Sound) {actions : List Action}
    (hdistinct : ∀ r, .render r ∈ actions → r.Distinct) (hr : r.Distinct) {v : View}
    (hv : c.view r.entityType = .ok v) :
    (∃ page c', (c.after actions).renderDetail r = .ok (page, c')) ↔
      ∃ page, ((c.after actions).composer r.entityType).compose r v (c.after actions).context
        = .ok page := by
  rw [(h.after actions hdistinct).exists_renderDetail_iff hr,
    exists_freshPage_iff_compose ((c.view_after actions _).trans hv)]

/-- **In a build that checks for overflow** the pages that always render are those whose
fieldsets can be counted: besides the roles, the weights have to fit. -/
theorem alwaysComposesChecked_iff {settings : Settings} {disk disk' : Disk}
    (hopen : (openWith settings).run.run disk = (.ok c, disk')) :
    c.AlwaysComposesChecked ↔ c.AlwaysRenders ∧ c.WeightsFit := by
  have hsound := sound_of_openWith hopen
  have hname {entityType : String} {s : Schema} {r : Record}
      (hs : c.schema entityType = .ok s) (hr : r.BuiltOn s) : r.entityType = entityType := by
    rw [Record.entityType, hr.schema_eq, name_of_openWith hopen hs]
  constructor
  · intro hcomposes
    constructor
    · intro actions hdistinct entityType s r v hs hr hv
      obtain ⟨page, hpage⟩ := hcomposes actions hdistinct entityType s r v hs hr hv
      have hview : c.view r.entityType = .ok v := by rw [hname hs hr, hv]
      exact (hsound.exists_renderDetail_after_iff hdistinct hr.wellFormed.toDistinct hview).2
        ⟨page, (Composer.run_composeChecked_eq_ok_iff.1 hpage).1⟩
    · -- a new record is rendered before anything is done
      intro entityType s v hs hv
      obtain ⟨page, hpage⟩ := hcomposes [] (fun r hr => by cases hr) entityType s
        (Record.new ⟨1⟩ s) v hs (.new ⟨1⟩) hv
      exact (Composer.run_composeChecked_eq_ok_iff.1 hpage).2
  · -- what is done to the catalog changes neither its views nor the first weight
    rintro ⟨hrenders, hfit⟩ actions hdistinct entityType s r v hs hr hv
    have hview : c.view r.entityType = .ok v := by rw [hname hs hr, hv]
    obtain ⟨page, hpage⟩ := (hsound.exists_renderDetail_after_iff hdistinct
      hr.wellFormed.toDistinct hview).1 (hrenders actions hdistinct entityType s r v hs hr hv)
    refine ⟨page, Composer.run_composeChecked_eq_ok_iff.2 ⟨hpage, ?_⟩⟩
    rw [weightStart_composer_after]
    exact hfit entityType s v hs hv

/-! ### Roles that are numbers -/

/-- Instances whose role is a number. -/
def numberedSchema : Schema where
  name := Builtin.computeInstance.schema.name
  label := "Instance"
  labelField := roleField
  fields := [.string Record.contextField "Context", .integer roleField "Role"]

/-- A file of this schema. -/
def numberedText : String :=
  "name: aws_cloud_instance\nlabel: Instance\nlabel_field: iam_role\nfields:\n"
    ++ "- \x7bname: cloud_context, label: Context,"
    ++ " type: \x7bkind: primitive, primitive: string\x7d\x7d\n"
    ++ "- \x7bname: iam_role, label: Role, type: \x7bkind: primitive, primitive: integer\x7d\x7d\n"

/-- A view without fieldsets of such instances. -/
def numberedView : View where
  entityType := Builtin.computeInstance.schema.name

/-- One file for each name, all empty but that of instances. -/
def filesFor (folder : String) (names : List String) (text : String) :
    List (Location × FileEntry) :=
  names.map fun name => (["registry", folder, DefinitionFormat.fileName name],
    .file (if name = Builtin.computeInstance.schema.name then text else "").toUTF8)

/-- A disk with files for all built-in definitions, all empty but those of instances. -/
def numberedRegistry : Disk where
  entries := ⟨(["registry"], .directory) :: (["registry", "schemas"], .directory)
    :: (["registry", "views"], .directory)
    :: (filesFor "schemas" (Builtin.schemas.map Schema.name) numberedText
      ++ filesFor "views" (Builtin.views.map View.entityType) numberedView.toYaml)⟩

theorem proper_numberedRegistry : numberedRegistry.Proper :=
  Disk.proper_of_keys (by decide +kernel) (by decide +kernel)

/-- Every file in a folder of definitions is empty, or that of instances. -/
theorem entryAt?_numberedRegistry {folder file : String} {e : FileEntry}
    (h : numberedRegistry.entryAt? (["registry", folder] ++ [file]) = some e) :
    ∃ text : String, e = .file text.toUTF8 ∧ (text = "" ∨ folder = "schemas" ∧ text = numberedText
      ∨ folder = "views" ∧ text = numberedView.toYaml) := by
  have hfiles {folder' text : String} {names : List String}
      (hmem : (["registry", folder] ++ [file], e) ∈ filesFor folder' names text) :
      ∃ text' : String, e = .file text'.toUTF8
        ∧ (text' = "" ∨ folder = folder' ∧ text' = text) := by
    obtain ⟨name, -, heq⟩ := List.mem_map.1 hmem
    obtain ⟨hlocation, rfl⟩ := Prod.mk.inj heq
    refine ⟨_, rfl, ?_⟩
    split
    · simp only [List.cons_append, List.nil_append, List.cons.injEq] at hlocation
      exact .inr ⟨hlocation.2.1.symm, rfl⟩
    · exact .inl rfl
  rw [Disk.entryAt?_of_ne_nil (Disk.concat_ne_nil _ _)] at h
  have hmem := OrderedMap.mem_entries_of_get? h
  simp only [numberedRegistry, List.mem_cons, List.mem_append] at hmem
  rcases hmem with h | h | h | h | h
  · simp at h
  · simp at h
  · simp at h
  · obtain ⟨text, he, htext⟩ := hfiles h
    exact ⟨text, he, htext.imp_right .inl⟩
  · obtain ⟨text, he, htext⟩ := hfiles h
    exact ⟨text, he, htext.imp_right .inr⟩

/-- A folder of `numberedRegistry` is opened without a change, and one definition is found. -/
theorem exists_openAt_numberedRegistry {α ε : Type} {format : DefinitionFormat α}
    (hformat : format.Placed) (defaults : List α) (a : α) (text : String)
    (hfolder : numberedRegistry.entryAt? (["registry"] ++ [format.folder]) = some .directory)
    (hplain : ∀ b ∈ defaults, format.Plain b)
    (hfiles : ∀ b ∈ defaults, (numberedRegistry.entryAt? (["registry", format.folder]
      ++ [DefinitionFormat.fileName (format.nameOf b)])).isSome = true)
    (hentry : numberedRegistry.entryAt? (["registry", format.folder]
      ++ [DefinitionFormat.fileName (format.nameOf a)]) = some (.file text.toUTF8))
    (hname : format.nameOf a ≠ "") (ha : format.valid? text = some a)
    (hempty : format.valid? "" = none)
    (htexts : ∀ file e, numberedRegistry.entryAt? (["registry", format.folder] ++ [file]) = some e →
      ∃ text' : String, e = .file text'.toUTF8 ∧ (text' = "" ∨ text' = text))
    (report reportWriting : FileError → ε) :
    ∃ byName, (Definitions.openAt format report reportWriting (.ofText "registry")
          defaults).run.run numberedRegistry = (.ok ⟨.ofText "registry", byName⟩, numberedRegistry)
      ∧ byName.get? (format.nameOf a) = some a ∧ ∀ b ∈ byName.values, b = a := by
  have hroot : numberedRegistry.DirectoryAt (.ofText "registry") ["registry"] :=
    ⟨by decide, by decide, rfl⟩
  have hlegible : format.Legible (.ofText "registry") ["registry", format.folder]
      numberedRegistry := by
    refine ⟨proper_numberedRegistry, ?_, fun file e _ he => ?_⟩
    · rw [hformat.folderIn_eq]
      exact hroot.child hformat.canName hfolder
    · obtain ⟨text', rfl, -⟩ := htexts file e he
      exact ⟨text', rfl⟩
  refine hlegible.openAt_of_forall_eq hformat hplain hfiles
    ⟨DefinitionFormat.isDefinitionFile_fileName hname, text, hentry, ha⟩ ?_ report reportWriting
  -- Only one file defines something.
  rintro file b ⟨-, text₁, hentry₁, hvalid⟩
  obtain ⟨text₂, htext, hcases⟩ := htexts file _ hentry₁
  rw [String.toByteArray_inj.1 (FileEntry.file.inj htext)] at hvalid
  rcases hcases with rfl | rfl
  · rw [hempty] at hvalid
    cases hvalid
  · exact Option.some.inj (hvalid.symm.trans ha)

/-- The only schema of `numberedRegistry` is that of instances. -/
theorem exists_schemas_numberedRegistry :
    ∃ schemas, (SchemaFolder.openAt (.ofText "registry") Builtin.schemas).run.run numberedRegistry
        = (.ok ⟨.ofText "registry", schemas⟩, numberedRegistry)
      ∧ (⟨schemas⟩ : SchemaRegistry).require Builtin.computeInstance.schema.name
        = .ok numberedSchema := by
  have htexts : ∀ file e, numberedRegistry.entryAt? (["registry", "schemas"] ++ [file]) = some e →
      ∃ text : String, e = .file text.toUTF8 ∧ (text = "" ∨ text = numberedText) := by
    intro file e he
    obtain ⟨text, rfl, htext⟩ := entryAt?_numberedRegistry he
    refine ⟨text, rfl, htext.imp_right fun h => ?_⟩
    rcases h with ⟨-, htext⟩ | ⟨hfolder, -⟩
    · exact htext
    · exact absurd hfolder (by decide)
  obtain ⟨schemas, hopen, hget, -⟩ := exists_openAt_numberedRegistry SchemaFolder.keep.placed
    Builtin.schemas numberedSchema numberedText rfl (by decide +kernel) (by decide +kernel) rfl
    (by decide) (by decide +kernel) (by decide +kernel) htexts SchemaError.file SchemaError.file
  have hget' : (⟨schemas⟩ : SchemaRegistry).get? Builtin.computeInstance.schema.name
      = some numberedSchema := hget
  exact ⟨schemas, hopen, by rw [SchemaRegistry.require, hget']⟩

/-- The only view of `numberedRegistry` is that of instances. -/
theorem exists_views_numberedRegistry :
    ∃ views, (ViewFolder.openAt (.ofText "registry") Builtin.views).run.run numberedRegistry
        = (.ok ⟨.ofText "registry", views⟩, numberedRegistry)
      ∧ ViewFolder.require ⟨.ofText "registry", views⟩ Builtin.computeInstance.schema.name
        = .ok numberedView
      ∧ ∀ v ∈ views.values, v = numberedView := by
  have htexts : ∀ file e, numberedRegistry.entryAt? (["registry", "views"] ++ [file]) = some e →
      ∃ text : String, e = .file text.toUTF8 ∧ (text = "" ∨ text = numberedView.toYaml) := by
    intro file e he
    obtain ⟨text, rfl, htext⟩ := entryAt?_numberedRegistry he
    refine ⟨text, rfl, htext.imp_right fun h => ?_⟩
    rcases h with ⟨hfolder, -⟩ | ⟨-, htext⟩
    · exact absurd hfolder (by decide)
    · exact htext
  obtain ⟨views, hopen, hget, hall⟩ := exists_openAt_numberedRegistry ViewFolder.keep.placed
    Builtin.views numberedView numberedView.toYaml rfl (by decide +kernel) (by decide +kernel) rfl
    (by decide) (by decide +kernel) (by decide +kernel) htexts ViewError.file
    ViewFolder.writingError
  have hget' : (⟨.ofText "registry", views⟩ : ViewFolder).get? Builtin.computeInstance.schema.name
      = some numberedView := hget
  exact ⟨views, hopen, by rw [ViewFolder.require, hget'], hall⟩

/-- A catalog is opened on `numberedRegistry`, but an instance whose role is a number has no
detail page when the directory has a name for it. -/
theorem not_alwaysRenders_numbered :
    ∃ c, (openWith { registryRoot := some "registry" }).run.run numberedRegistry
        = (.ok c, numberedRegistry)
      ∧ ¬c.AlwaysRenders := by
  obtain ⟨schemas, hschemas, hschema⟩ := exists_schemas_numberedRegistry
  obtain ⟨views, hviews, hview, hall⟩ := exists_views_numberedRegistry
  have hcheck : numberedView.check numberedSchema .strict = .ok () := by decide +kernel
  have hcheckAll : ViewFolder.checkAll ⟨.ofText "registry", views⟩ ⟨schemas⟩ .strict = .ok () :=
    ViewFolder.checkEach_eq_ok fun v hv => hall v hv ▸ ⟨numberedSchema, hschema, hcheck⟩
  have hfound : (definitions (some "registry")).run.run numberedRegistry
      = (.ok (⟨schemas⟩, ⟨.ofText "registry", views⟩), numberedRegistry) :=
    definitions_some_eq_ok_iff.2 ⟨_, _, hschemas, hviews, rfl⟩
  let c : Catalog := ⟨{ registryRoot := some "registry" }, ⟨schemas⟩, ⟨.ofText "registry", views⟩,
    .new .empty, none, none⟩
  have hopen : (openWith { registryRoot := some "registry" }).run.run numberedRegistry
      = (.ok c, numberedRegistry) := openWith_eq_ok_iff.2 ⟨rfl, _, _, hfound, hcheckAll, rfl⟩
  have hs : c.schema Builtin.computeInstance.schema.name = .ok numberedSchema := by
    rw [schema, hschema]
  have hv : c.view Builtin.computeInstance.schema.name = .ok numberedView := by
    rw [view, hview]
  refine ⟨c, hopen, fun hrenders => ?_⟩
  rw [alwaysRenders_iff_of_named (sound_of_openWith hopen) fun _ _ h => name_of_openWith hopen h]
    at hrenders
  rcases hrenders _ _ hs hv _ _ rfl rfl rfl with htype | ⟨properties, htype⟩
  · cases htype
  · cases htype

end Catalog
end Inventory
