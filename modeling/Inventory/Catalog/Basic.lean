/-
# The catalog

`CloudCatalog`: `open`, `with_role_directory`, `with_link_builder`, `render_context`, `composer`,
`render_detail`, `list_view` and `list`.

A catalog brings together the settings, the definitions, the stored records and
the lookups, and answers with pages. Its definitions are the built-in ones, or
those of a folder that starts out with the built-in ones. It opens only when every
view agrees with its schema as the settings ask.

Detail pages are cached when the settings say so. Whatever a page depends on
besides its record and view clears the cache: a change of the stored records, and
another role directory or link builder.

| entity type | its detail page |
| --- | --- |
| instances | show the name of the role, when there is a role directory |
| security groups | say so when there are no rules |
-/

import Inventory.Builtin.Defaults
import Inventory.Catalog.Lookup
import Inventory.Listing.Query
import Inventory.Page.Cache
import Inventory.Page.ViewFolder
import Inventory.Schema.Folder
import Inventory.Settings.Basic

namespace Inventory

/-- What can go wrong with a catalog. -/
inductive CatalogError where
  | settings (cause : SettingsError)
  | schema (cause : SchemaError)
  | record (cause : RecordError)
  | view (cause : ViewError)
  deriving DecidableEq, Repr

/-- The text of a catalog error. -/
def CatalogError.message : CatalogError → String
  | .settings cause => cause.message
  | .schema cause => cause.message
  | .record cause => cause.message
  | .view cause => cause.message

/-- A catalog. The watcher of its store is the cache of detail pages. -/
structure Catalog where
  settings : Settings
  schemas : SchemaRegistry
  views : ViewFolder
  store : Store PageCache := .new .empty
  roles : Option RoleDirectory := none
  links : Option LinkBuilder := none

namespace Catalog

/-- The definitions of a folder, or the built-in ones. -/
def definitions (registryRoot : Option String) :
    DiskM CatalogError (SchemaRegistry × ViewFolder) := do
  match registryRoot with
  | some root =>
    let schemas ← ExceptT.adapt CatalogError.schema
      (SchemaFolder.openAt (.ofText root) Builtin.schemas)
    let views ← ExceptT.adapt CatalogError.view (ViewFolder.openAt (.ofText root) Builtin.views)
    return (SchemaFolder.registry schemas, views)
  | none =>
    match SchemaRegistry.ofList Builtin.schemas with
    | .ok schemas => return (schemas, ViewFolder.inMemory Builtin.views)
    | .error e => throw (.schema e)

/-- Open a catalog without records. -/
def openWith (settings : Settings) : DiskM CatalogError Catalog := do
  match settings.validate with
  | .error e => throw (.settings e)
  | .ok () =>
    let (schemas, views) ← definitions settings.registryRoot
    match ViewFolder.checkAll views schemas settings.validation with
    | .error e => throw (.view e)
    | .ok () => return { settings, schemas, views }

/-- The schema of an entity type. -/
def schema (c : Catalog) (entityType : String) : Except CatalogError Schema :=
  match c.schemas.require entityType with
  | .ok s => .ok s
  | .error e => .error (.schema e)

/-- The view of an entity type. -/
def view (c : Catalog) (entityType : String) : Except CatalogError View :=
  match ViewFolder.require c.views entityType with
  | .ok v => .ok v
  | .error e => .error (.view e)

/-- An empty record of an entity type. -/
def newRecord (c : Catalog) (id : Ulid) (entityType : String) : Except CatalogError Record :=
  (c.schema entityType).map (Record.new id)

/-- The cache of detail pages. -/
def cache (c : Catalog) : PageCache := c.store.watcher

/-- The catalog with another cache. -/
def withCache (c : Catalog) (cache : PageCache) : Catalog :=
  { c with store := { c.store with watcher := cache } }

/-- Look up roles elsewhere. -/
def withRoles (c : Catalog) (roles : RoleDirectory) : Catalog :=
  { c.withCache .empty with roles := some roles }

/-- Build links in another way. -/
def withLinks (c : Catalog) (links : LinkBuilder) : Catalog :=
  { c.withCache .empty with links := some links }

/-- The variant of detail pages that the settings ask for. -/
def context (c : Catalog) : RenderContext :=
  { viewMode := c.settings.viewMode, langcode := c.settings.langcode }

/-- What composes the detail pages of an entity type. -/
def composer (c : Catalog) (entityType : String) : Composer (Except ViewError) where
  render := FieldList.renderer
  resolvers :=
    if entityType = Builtin.computeInstance.schema.name then
      (c.roles.map roleResolver).toList
    else []
  transforms :=
    if entityType = Builtin.securityGroup.schema.name then [RulesMessage.fill c.links] else []
  weightStart := c.settings.fieldsetWeightStart

/-- The detail page of a record, through the cache when the settings say so. -/
def renderDetail (c : Catalog) (r : Record) : Except CatalogError (Tree × Catalog) :=
  match c.view r.entityType with
  | .error e => .error e
  | .ok v =>
    let composer := c.composer r.entityType
    if c.settings.renderCache then
      match composer.renderDetail c.cache r v c.context with
      | .ok (page, cache) => .ok (page, c.withCache cache)
      | .error e => .error (.view e)
    else
      match composer.compose r v c.context with
      | .ok page => .ok (page, c)
      | .error e => .error (.view e)

/-- The list page of an entity type. -/
def listView (c : Catalog) (entityType : String) : Except CatalogError ListView :=
  match c.schema entityType with
  | .error e => .error e
  | .ok s => (c.view entityType).map fun v => { schema := s, selectable := v.selectable }

/-- The filters of a list page and the stored records that a query leaves. -/
def list (c : Catalog) (entityType : String) (q : ListQuery) :
    Except CatalogError (FilterTable × List Record) :=
  (c.listView entityType).map fun page => page.query (c.store.list entityType) q

end Catalog
end Inventory
