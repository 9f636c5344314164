/-
# Cached detail pages

`RenderCache` with `CacheKey`: `get`, `insert` and `invalidate_all`.

A composed page is kept under the entity type, the identifier of the record, the
view mode and the language, together with the record and the view it was
composed from. It answers only for an equal record and an equal view, so a copy
that was edited but not saved is composed afresh.
-/

import Inventory.Page.Compose
import Inventory.Store

namespace Inventory

/-- Under what a page is kept. -/
structure CacheKey where
  entityType : String
  id : Ulid
  viewMode : String
  langcode : Option String
  deriving DecidableEq, Repr

/-- A page and what it was composed from. -/
structure CachedPage where
  record : Record
  view : View
  page : Tree

/-- Composed pages by key. -/
structure PageCache where
  pages : OrderedMap CacheKey CachedPage := .empty

namespace PageCache

/-- The cache without pages. -/
def empty : PageCache := ⟨.empty⟩

/-- Number of pages. -/
def size (c : PageCache) : Nat := c.pages.size

/-- The key of a record's page. -/
def keyOf (r : Record) (context : RenderContext) : CacheKey :=
  ⟨r.entityType, r.id, context.viewMode, context.langcode⟩

/-- The page kept for a record and a view. -/
def get? (c : PageCache) (r : Record) (view : View) (context : RenderContext) : Option Tree :=
  match c.pages.get? (keyOf r context) with
  | some kept => if kept.record == r && decide (kept.view = view) then some kept.page else none
  | none => none

/-- Keep a page, in place of another one under its key. -/
def insert (c : PageCache) (r : Record) (view : View) (context : RenderContext) (page : Tree) :
    PageCache :=
  ⟨c.pages.insert (keyOf r context) ⟨r, view, page⟩⟩

instance : Watcher PageCache := ⟨fun _ => empty⟩

end PageCache

/-- The detail page of a record, from the cache when it has it, else composed and
put into the cache. -/
def Composer.renderDetail {m : Type → Type} [Monad m] [MonadExceptOf ViewError m] (c : Composer m)
    (cache : PageCache) (r : Record) (view : View) (context : RenderContext) :
    m (Tree × PageCache) :=
  match cache.get? r view context with
  | some page => pure (page, cache)
  | none => do
    let page ← c.compose r view context
    return (page, cache.insert r view context page)

end Inventory
