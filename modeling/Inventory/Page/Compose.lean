/-
# Detail pages

`ViewComposer`: `compose`, `resolve_values`, `container` and `render_detail`, with `ValueResolver`
and `TransformPipeline`.

A detail page shows the fieldsets of a view as containers. For each fieldset the
record is rendered with only the fields it lists; the children of that rendering
become the children of the container. The containers are laid over a rendering
of the whole record, of which only the properties and the label field stay. So a
field that no fieldset lists is not shown, whatever the schema declares.

Before rendering, resolvers replace values by friendlier ones on a copy of the
record. Each sees the original values; of several for one field the last wins.
After composing, transforms rewrite the page in order.

How a record is rendered is a parameter, in any monad that can fail with a view
error; `FieldList.render` is the usual choice.

Weights have 32 bits. What happens behind the last one is decided when the program is
built:

| build | behind the last weight |
| --- | --- |
| without overflow checks (`compose`) | the count goes on at the first weight |
| with overflow checks (`composeChecked`) | composing stops |

The next weight is counted before it is known whether it is needed.
-/

import Inventory.Page.FieldList
import Inventory.Page.View

namespace Inventory

/-- Replaces the shown value of one field. When it finds none, the fallback is
shown, which is the stored value unless the resolver says otherwise. -/
structure Resolver where
  field : String
  resolve : Record → FieldValue → Option FieldValue
  fallback : Record → FieldValue → FieldValue := fun _ value => value

/-- The value a resolver shows. -/
def Resolver.shown (s : Resolver) (r : Record) (value : FieldValue) : FieldValue :=
  (s.resolve r value).getD (s.fallback r value)

/-- A rewriting of a composed page. -/
abbrev Transform := Tree → Tree

/-- What composes detail pages. -/
structure Composer (m : Type → Type) where
  render : Record → RenderContext → m Tree
  resolvers : List Resolver := []
  transforms : List Transform := []
  weightStart : Int32 := 0

/-- Why a build that checks for overflow stops. -/
inductive Stop where
  | overflow
  deriving DecidableEq, Repr

namespace Composer

/-- A container with the children of a rendering. -/
def container (fieldset : Fieldset) (weight : Int32) (body : Tree) : Tree :=
  (Tree.children body).foldl (fun t (key, child) => Tree.setElement t key child) (.ofProperties [
    ("#type", .str "details"),
    ("#title", .str fieldset.title),
    ("#open", .bool fieldset.isOpen),
    ("#weight", .int weight.toInt)])

/-- The value that a resolver puts in place of one that is declared and not empty. -/
def override? (r : Record) (s : Resolver) : Option (String × FieldValue) :=
  match r.slots.get? s.field with
  | none => none
  | some value => if value.isEmpty then none else some (s.field, s.shown r value)

/-- A copy of the record with the values that are shown. -/
def resolveValues (resolvers : List Resolver) (r : Record) : Except RecordError Record :=
  r.setAll (resolvers.filterMap (override? r))

/-- Whether a key of the overlaid page stays. -/
def keeps (view : View) (r : Record) (key : String) : Bool :=
  isMetaKey key || decide (key ∈ view.fieldsets.map (·.name)) || decide (key = r.schema.labelField)

variable {m : Type → Type} [Monad m]

/-- The next weight. Behind the last one of 32 bits comes the first. -/
def nextWeight (weight : Int32) : m Int32 := pure (weight + 1)

/-- The next weight, where additions are checked. There is none behind the last one. -/
def nextWeightChecked (weight : Int32) : ExceptT Stop m Int32 :=
  if weight = Int32.maxValue then throwThe Stop .overflow else pure (weight + 1)

/-- The containers of the fieldsets, with weights that count up. The next weight is asked for
before it is known whether there is another fieldset, so once more than there are fieldsets. -/
def sections (c : Composer m) (next : Int32 → m Int32) (r : Record) (context : RenderContext)
    (weight : Int32) (done : Tree) : List Fieldset → m Tree
  | [] => do
    let _ ← next weight
    return done
  | f :: rest => do
    let following ← next weight
    let body ← c.render (r.withOnly f.fields) context
    c.sections next r context following (Tree.setElement done f.name (container f weight body)) rest

/-- Where additions are not checked, counting does nothing beside. -/
theorem sections_cons [LawfulMonad m] (c : Composer m) (r : Record) (context : RenderContext)
    (weight : Int32) (done : Tree) (f : Fieldset) (rest : List Fieldset) :
    c.sections nextWeight r context weight done (f :: rest) = (do
      let body ← c.render (r.withOnly f.fields) context
      c.sections nextWeight r context (weight + 1)
        (Tree.setElement done f.name (container f weight body)) rest) := by
  rw [sections, nextWeight, pure_bind]

variable [MonadExceptOf ViewError m]

/-- The detail page of a record, with weights that are counted in one of the two ways. -/
def composeCounting (c : Composer m) (next : Int32 → m Int32) (r : Record) (view : View)
    (context : RenderContext) : m Tree := do
  let r ← match resolveValues c.resolvers r with
    | .ok r => pure r
    | .error e => throw (ViewError.record e)
  let sections ← c.sections next r context c.weightStart .empty view.fieldsets
  let whole ← c.render r context
  let page := (whole.merge sections).filter fun key _ => keeps view r key
  return c.transforms.foldl (fun t f => f t) page

/-- The detail page of a record. -/
def compose (c : Composer m) (r : Record) (view : View) (context : RenderContext) : m Tree :=
  c.composeCounting nextWeight r view context

/-- The composer where additions are checked, so that it can stop. -/
def checked (c : Composer m) : Composer (ExceptT Stop m) where
  render r context := ExceptT.lift (c.render r context)
  resolvers := c.resolvers
  transforms := c.transforms
  weightStart := c.weightStart

/-- The detail page of a record in a build that checks for overflow. -/
def composeChecked (c : Composer m) (r : Record) (view : View) (context : RenderContext) :
    ExceptT Stop m Tree :=
  c.checked.composeCounting nextWeightChecked r view context

end Composer

/-- The plain rendering of a record as a page renderer. -/
def FieldList.renderer (r : Record) (context : RenderContext) : Except ViewError Tree :=
  match FieldList.render r context with
  | .ok t => .ok t
  | .error e => .error (.record e)

end Inventory
