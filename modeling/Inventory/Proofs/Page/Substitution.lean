/-
# What resolvers substitute

`resolve_values` of `ViewComposer`.

A page is that of a record on which some values are replaced, each by what the last
resolver for its field makes of the record as it is stored (`Record.shownBy`):

| slot | on the record that is shown |
| --- | --- |
| absent or empty | as it was |
| not empty, the field has resolvers | the value of the last of them |
| not empty, the field has none | as it was |

There is no page when the value of a resolver does not fit the field, also of one that a
later resolver would have overruled; the error is that of the first such resolver
(`Composer.compose_eq_error_iff`). So a resolver that finds nothing, and falls back on what
is stored, might as well be left out, and only the order of the resolvers for one field
matters to a page.
-/

import Inventory.Proofs.Record.Edits

namespace Inventory

namespace Resolver

/-- The last resolver for a field. -/
def lastFor (resolvers : List Resolver) (name : String) : Option Resolver :=
  (resolvers.filter fun s => s.field = name).getLast?

/-- A further resolver is the last one for its field. -/
theorem lastFor_concat (resolvers : List Resolver) (s : Resolver) (name : String) :
    lastFor (resolvers ++ [s]) name
      = if s.field = name then some s else lastFor resolvers name := by
  by_cases hname : s.field = name <;> simp [lastFor, hname]

/-- The value that a resolver shows does not fit the field, which is declared and not empty. -/
def Misfits (s : Resolver) (r : Record) (e : RecordError) : Prop :=
  ∃ f v, r.schema.field? s.field = some f ∧ r.slots.get? s.field = some v ∧ v.isEmpty = false
    ∧ (s.shown r v).conformsTo f.type = false
    ∧ e = .typeMismatch r.entityType s.field f.type.name

end Resolver

/-- What is shown of a value: where it is not empty, what the last resolver for the field
makes of the record as it is. -/
def Record.shownValue (r : Record) (resolvers : List Resolver) (name : String) (v : FieldValue) :
    FieldValue :=
  if v.isEmpty then v
  else match Resolver.lastFor resolvers name with
    | some s => s.shown r v
    | none => v

/-- The record with the values that are shown. -/
def Record.shownBy (r : Record) (resolvers : List Resolver) : Record :=
  { r with slots := r.slots.mapValues (r.shownValue resolvers) }

namespace Record

variable {r r₁ : Record} {name name' : String} {v w : FieldValue}

/-! ### Setting what is there -/

/-- Setting a field to the value that it has changes nothing. -/
theorem Filled.set_self (h : r.Filled) (hv : r.slots.get? name = some v) :
    r.set name v = .ok r := by
  obtain ⟨f, hf, hfits⟩ := h.fits name v hv
  exact set_eq_ok_iff.2 ⟨f, hf, hfits, by rw [OrderedMap.insert_eq_self hv]⟩

/-- A value that could be set again still can after another field is set. -/
theorem set_self_of_set (hself : r.set name v = .ok r) (hne : name ≠ name')
    (hset : r.set name' w = .ok r₁) : r₁.set name v = .ok r₁ := by
  obtain ⟨f, hf, hfits, hr⟩ := set_eq_ok_iff.1 hself
  have hv : r.slots.get? name = some v := by
    rw [hr]
    exact OrderedMap.get?_insert_self r.slots name v
  obtain ⟨-, -, -, rfl⟩ := set_eq_ok_iff.1 hset
  refine set_eq_ok_iff.2 ⟨f, hf, hfits, ?_⟩
  rw [OrderedMap.insert_eq_self ((OrderedMap.get?_insert_of_ne hne _ _).trans hv)]

/-- A value that is there already can be left out of those that are set, when its field is
not set before. -/
theorem setAll_append_self (hself : r.set name v = .ok r) {before : List (String × FieldValue)}
    (hbefore : ∀ e ∈ before, name ≠ e.1) (after : List (String × FieldValue)) :
    r.setAll (before ++ (name, v) :: after) = r.setAll (before ++ after) := by
  induction before generalizing r with
  | nil =>
    rw [List.nil_append, List.nil_append, setAll, hself]
  | cons e before ih =>
    obtain ⟨hne, hbefore⟩ := List.forall_mem_cons.1 hbefore
    rw [List.cons_append, List.cons_append, setAll, setAll]
    cases hset : r.set e.1 e.2 with
    | error _ => rfl
    | ok r₁ => exact ih (set_self_of_set hself hne hset) hbefore

/-- What is set is laid over the slots. -/
theorem setAll_eq_ok {values : List (String × FieldValue)} (h : r.setAll values = .ok r₁) :
    r₁ = { r with slots := r.slots.merge ⟨values⟩ } := by
  induction values generalizing r with
  | nil => exact (Except.ok.inj h).symm
  | cons e rest ih =>
    rw [setAll] at h
    cases hset : r.set e.1 e.2 with
    | error _ => simp [hset] at h
    | ok r₂ =>
      rw [hset] at h
      obtain ⟨-, -, -, rfl⟩ := set_eq_ok_iff.1 hset
      exact ih h

/-- Setting fields fails with the error of the first value that is refused. -/
theorem setAll_eq_error_iff_firstRefused {values : List (String × FieldValue)}
    {err : RecordError} : r.setAll values = .error err ↔
      FirstRefused (fun e err => r.set e.1 e.2 = .error err) values err := by
  have haccepted (e : String × FieldValue) :
      (∃ r', r.set e.1 e.2 = .ok r') ↔ ∀ err', ¬ r.set e.1 e.2 = .error err' := by
    cases r.set e.1 e.2 <;> simp
  simp only [setAll_eq_error_iff, FirstRefused, haccepted, Prod.exists]

end Record

namespace Composer

variable {r r' : Record} {resolvers : List Resolver}

/-! ### The values that are put in place -/

/-- A resolver puts its value where there is one that is not empty. -/
theorem override?_eq_some_iff {s : Resolver} {e : String × FieldValue} :
    override? r s = some e ↔
      ∃ v, r.slots.get? s.field = some v ∧ v.isEmpty = false ∧ e = (s.field, s.shown r v) := by
  rw [override?]
  cases r.slots.get? s.field with
  | none => simp
  | some v => cases hempty : v.isEmpty <;> simp [hempty, @eq_comm _ e]

/-- A further resolver decides what is shown in its field, if that is not empty. -/
theorem shownValue_concat (resolvers : List Resolver) (s : Resolver) (name : String)
    (v : FieldValue) :
    r.shownValue (resolvers ++ [s]) name v
      = if s.field = name ∧ v.isEmpty = false then s.shown r v
        else r.shownValue resolvers name v := by
  rw [Record.shownValue, Record.shownValue, Resolver.lastFor_concat]
  cases hempty : v.isEmpty <;> by_cases hname : s.field = name <;> simp [hname]

/-- **Step:** one resolver more, behind the others. -/
theorem slots_shownBy_concat (h : r.slots.keys.Nodup) (s : Resolver) :
    (r.shownBy (resolvers ++ [s])).slots
      = (r.shownBy resolvers).slots.merge ⟨(override? r s).toList⟩ := by
  have hslot {e : String × FieldValue} (he : e ∈ r.slots.entries) :
      r.slots.get? e.1 = some e.2 := (OrderedMap.get?_eq_some_iff h).2 he
  have hkeys : (r.shownBy resolvers).slots.keys = r.slots.keys := OrderedMap.keys_mapValues _ _
  cases hoverride : override? r s with
  | none =>
    change r.slots.mapValues (r.shownValue (resolvers ++ [s]))
      = r.slots.mapValues (r.shownValue resolvers)
    refine OrderedMap.mapValues_congr fun e he => ?_
    -- a resolver without a value to override changes nothing
    rw [shownValue_concat, if_neg]
    rintro ⟨hname, hempty⟩
    have hsome := override?_eq_some_iff.2 ⟨e.2, hname ▸ hslot he, hempty, rfl⟩
    cases hoverride.symm.trans hsome
  | some e' =>
    obtain ⟨v, hv, hempty, rfl⟩ := override?_eq_some_iff.1 hoverride
    have hkey : s.field ∈ r.slots.keys := OrderedMap.isSome_get?_iff.1 (by rw [hv]; rfl)
    change r.slots.mapValues (r.shownValue (resolvers ++ [s]))
      = (r.shownBy resolvers).slots.insert s.field (s.shown r v)
    rw [OrderedMap.insert_eq_mapValues (hkeys ▸ h) (hkeys ▸ hkey), Record.shownBy,
      OrderedMap.mapValues_mapValues]
    refine OrderedMap.mapValues_congr fun e he => ?_
    rw [shownValue_concat]
    by_cases hname : s.field = e.1
    · obtain rfl : e.2 = v := Option.some.inj ((hslot he).symm.trans (hname ▸ hv))
      rw [if_pos ⟨hname, hempty⟩, if_pos hname.symm]
    · rw [if_neg fun hboth => hname hboth.1, if_neg (Ne.symm hname)]

/-- **Run:** all resolvers. -/
theorem slots_shownBy (h : r.slots.keys.Nodup) (resolvers : List Resolver) :
    (r.shownBy resolvers).slots = r.slots.merge ⟨resolvers.filterMap (override? r)⟩ := by
  induction resolvers using List.reverseRecOn with
  | nil =>
    refine OrderedMap.mapValues_eq_self fun e _ => ?_
    rw [Record.shownValue]
    split <;> rfl
  | append_singleton resolvers s ih =>
    have hsingleton : [s].filterMap (override? r) = (override? r s).toList := by
      cases hoverride : override? r s <;> simp [hoverride]
    rw [slots_shownBy_concat h, ih, List.filterMap_append, OrderedMap.merge_append, hsingleton]

/-- **The record that is shown,** when the values of all resolvers fit. -/
theorem resolveValues_eq_ok (h : r.slots.keys.Nodup)
    (hresolve : resolveValues resolvers r = .ok r') : r' = r.shownBy resolvers := by
  rw [Record.setAll_eq_ok hresolve, ← slots_shownBy h]
  rfl

/-- **The values of all resolvers fit,** or the first that does not is the error. -/
theorem resolveValues_eq_error_iff (h : r.Filled) {err : RecordError} :
    resolveValues resolvers r = .error err ↔
      FirstRefused (fun s err => s.Misfits r err) resolvers err := by
  have hmisfits (s : Resolver) (err : RecordError) :
      (∃ e, override? r s = some e ∧ r.set e.1 e.2 = .error err) ↔ s.Misfits r err := by
    simp only [override?_eq_some_iff, Resolver.Misfits]
    constructor
    · rintro ⟨-, ⟨v, hv, hempty, rfl⟩, hset⟩
      obtain ⟨f, hf, -⟩ := h.fits s.field v hv
      rw [Record.set_eq, hf] at hset
      cases hfits : (s.shown r v).conformsTo f.type with
      | true => simp [hfits] at hset
      | false =>
        simp only [hfits, Bool.false_eq_true, if_false, Except.error.injEq] at hset
        exact ⟨f, v, hf, hv, hempty, hfits, hset.symm⟩
    · rintro ⟨f, v, hf, hv, hempty, hfits, rfl⟩
      refine ⟨_, ⟨v, hv, hempty, rfl⟩, ?_⟩
      simp [Record.set_eq, hf, hfits]
  rw [resolveValues, Record.setAll_eq_error_iff_firstRefused, firstRefused_filterMap]
  simp only [hmisfits]

/-- The values cannot be shown when that of some resolver does not fit. -/
theorem exists_resolveValues_eq_error_iff (h : r.Filled) :
    (∃ err, resolveValues resolvers r = .error err) ↔ ∃ s ∈ resolvers, ∃ err, s.Misfits r err := by
  simp only [resolveValues_eq_error_iff h, exists_firstRefused_iff]

/-- The values can be shown when that of each resolver fits. -/
theorem exists_resolveValues_iff (h : r.Filled) :
    (∃ r', resolveValues resolvers r = .ok r') ↔ ∀ s ∈ resolvers, ∀ err, ¬ s.Misfits r err := by
  have hok : (∃ r', resolveValues resolvers r = .ok r')
      ↔ ¬ ∃ err, resolveValues resolvers r = .error err := by
    cases resolveValues resolvers r <;> simp
  rw [hok, exists_resolveValues_eq_error_iff h]
  simp only [not_exists, not_and]

/-- A resolver that shows the values that are stored, and no other for its field, can be
left out. -/
theorem resolveValues_leave_out (h : r.Filled) {s : Resolver} {before : List Resolver}
    (hbefore : ∀ u ∈ before, u.field ≠ s.field)
    (hstored : ∀ v, r.slots.get? s.field = some v → s.shown r v = v) (after : List Resolver) :
    resolveValues (before ++ s :: after) r = resolveValues (before ++ after) r := by
  rw [resolveValues, resolveValues, List.filterMap_append, List.filterMap_append]
  cases hoverride : override? r s with
  | none => rw [List.filterMap_cons_none hoverride]
  | some e =>
    obtain ⟨v, hv, -, rfl⟩ := override?_eq_some_iff.1 hoverride
    rw [List.filterMap_cons_some hoverride, hstored v hv]
    refine Record.setAll_append_self (h.set_self hv) (fun e he => ?_) _
    obtain ⟨u, hu, hoverride⟩ := List.mem_filterMap.1 he
    obtain ⟨-, -, -, rfl⟩ := override?_eq_some_iff.1 hoverride
    exact (hbefore u hu).symm

/-! ### Pages -/

variable {c : Composer (Except ViewError)} {view : View} {context : RenderContext}

/-- What becomes of a record depends on the record that is shown alone. -/
theorem compose_eq (hrender : c.render = FieldList.renderer) (h : r.Filled) (view : View)
    (context : RenderContext) :
    c.compose r view context = match resolveValues c.resolvers r with
      | .ok r' => .ok (c.transforms.foldl (fun t f => f t) (pageFrom c.weightStart r' view context))
      | .error err => .error (.record err) := by
  cases hresolve : resolveValues c.resolvers r with
  | ok r' => exact compose_eq_of_resolveValues hrender hresolve (h.setAll hresolve).2 view context
  | error err => exact compose_of_resolveValues_eq_error hresolve

/-- **A page fails** with the error of the first resolver whose value does not fit. -/
theorem compose_eq_error_iff (hrender : c.render = FieldList.renderer) (h : r.Filled)
    {e : ViewError} : c.compose r view context = .error e ↔
      ∃ err, FirstRefused (fun s err => s.Misfits r err) c.resolvers err ∧ e = .record err := by
  simp only [compose_eq hrender h, ← resolveValues_eq_error_iff h]
  cases resolveValues c.resolvers r <;> simp [@eq_comm _ e]

/-- There is no page when the value of some resolver does not fit. -/
theorem exists_compose_eq_error_iff (hrender : c.render = FieldList.renderer) (h : r.Filled) :
    (∃ e, c.compose r view context = .error e) ↔
      ∃ s ∈ c.resolvers, ∃ err, s.Misfits r err := by
  rw [← exists_resolveValues_eq_error_iff h]
  simp only [compose_eq hrender h]
  cases resolveValues c.resolvers r <;> simp

/-- **A page that does not fail** is that of the record that is shown. -/
theorem compose_eq_shownBy (hrender : c.render = FieldList.renderer) (h : r.Filled)
    (hfits : ∀ s ∈ c.resolvers, ∀ err, ¬ s.Misfits r err) :
    c.compose r view context
      = ({ c with resolvers := [] } : Composer _).compose (r.shownBy c.resolvers) view context := by
  obtain ⟨r', hresolve⟩ := (exists_resolveValues_iff h).2 hfits
  have hfilled : r'.Filled := (h.setAll hresolve).2
  rw [← resolveValues_eq_ok h.nodup hresolve, compose_eq hrender h, hresolve]
  exact (compose_eq (c := { c with resolvers := [] }) hrender hfilled view context).symm

/-- Resolvers that are in the same order for each field make the same pages. -/
theorem compose_eq_ok_iff_of_filter_eq (hrender : c.render = FieldList.renderer) (h : r.Filled)
    (hresolvers : ∀ name, (resolvers.filter fun s => s.field = name)
      = c.resolvers.filter fun s => s.field = name) (page : Tree) :
    ({ c with resolvers } : Composer _).compose r view context = .ok page
      ↔ c.compose r view context = .ok page := by
  have hmem (s : Resolver) : s ∈ resolvers ↔ s ∈ c.resolvers := by
    have hs := congrArg (s ∈ ·) (hresolvers s.field)
    simpa only [List.mem_filter, decide_true, and_true, eq_iff_iff] using hs
  have hshown : r.shownBy resolvers = r.shownBy c.resolvers := by
    unfold Record.shownBy Record.shownValue Resolver.lastFor
    simp only [hresolvers]
  by_cases hfits : ∀ s ∈ c.resolvers, ∀ err, ¬ s.Misfits r err
  · have hfits' : ∀ s ∈ resolvers, ∀ err, ¬ s.Misfits r err := fun s hs => hfits s ((hmem s).1 hs)
    rw [compose_eq_shownBy hrender h hfits,
      compose_eq_shownBy (c := { c with resolvers }) hrender h hfits']
    simp only [hshown]
  · have hmisfits : ∃ s ∈ c.resolvers, ∃ err, s.Misfits r err := by simpa using hfits
    have hmisfits' : ∃ s ∈ resolvers, ∃ err, s.Misfits r err := by simpa only [hmem] using hmisfits
    have hfails : ∃ e, c.compose r view context = .error e :=
      (exists_compose_eq_error_iff hrender h).2 hmisfits
    have hfails' : ∃ e, ({ c with resolvers } : Composer _).compose r view context = .error e :=
      (exists_compose_eq_error_iff (c := { c with resolvers }) hrender h).2 hmisfits'
    obtain ⟨e, he⟩ := hfails
    obtain ⟨e', he'⟩ := hfails'
    rw [he, he']
    simp

/-- What is asked of the pages of a composer with resolvers. -/
structure Substitutes (c : Composer (Except ViewError)) (r : Record) (view : View)
    (context : RenderContext) : Prop where
  /-- There is no page exactly when the value of some resolver does not fit. -/
  fails : (∃ e, c.compose r view context = .error e) ↔ ∃ s ∈ c.resolvers, ∃ err, s.Misfits r err
  /-- The error is that of the first such resolver. -/
  error : ∀ e, c.compose r view context = .error e ↔
    ∃ err, FirstRefused (fun s err => s.Misfits r err) c.resolvers err ∧ e = .record err
  /-- Otherwise the page is that, without resolvers, of the record that is shown. -/
  shows : (∀ s ∈ c.resolvers, ∀ err, ¬ s.Misfits r err) → c.compose r view context
    = ({ c with resolvers := [] } : Composer _).compose (r.shownBy c.resolvers) view context
  /-- A field that is not declared or has nothing to show is left as it is. -/
  unfilled : ∀ name, (∀ v, r.slots.get? name = some v → v.isEmpty = true) →
    (r.shownBy c.resolvers).slots.get? name = r.slots.get? name
  /-- The only resolver for a field, when it finds nothing and falls back on the value that is
  stored, can be left out. -/
  fallback : ∀ before s after, c.resolvers = before ++ s :: after →
    (∀ u ∈ before ++ after, u.field ≠ s.field) →
    (∀ v, r.slots.get? s.field = some v → s.resolve r v = none ∧ s.fallback r v = v) →
    c.compose r view context
      = ({ c with resolvers := before ++ after } : Composer _).compose r view context
  /-- Only the order of the resolvers for one field matters to a page. -/
  anyOrder : ∀ resolvers, (∀ name, (resolvers.filter fun s => s.field = name)
      = c.resolvers.filter fun s => s.field = name) →
    ∀ page, ({ c with resolvers } : Composer _).compose r view context = .ok page
      ↔ c.compose r view context = .ok page

/-- **Resolvers substitute independently.** Whatever resolvers a composer has, a page fails
exactly when the value of one of them does not fit its field. Otherwise it is the page of the
record that the resolvers show: each of them reads the record that is stored, and of several
for one field the last one decides (`Record.shownBy`). -/
theorem substitutes (hrender : c.render = FieldList.renderer) (h : r.Filled) (view : View)
    (context : RenderContext) : c.Substitutes r view context where
  fails := exists_compose_eq_error_iff hrender h
  error _ := compose_eq_error_iff hrender h
  shows := compose_eq_shownBy hrender h
  unfilled name hempty := by
    rw [Record.shownBy, OrderedMap.get?_mapValues]
    cases hv : r.slots.get? name with
    | none => rfl
    | some v => rw [Option.map_some, Record.shownValue, if_pos (hempty v hv)]
  fallback before s after hresolvers honly hstored := by
    have hleave : resolveValues c.resolvers r = resolveValues (before ++ after) r := by
      rw [hresolvers]
      refine resolveValues_leave_out h (fun u hu => honly u (List.mem_append_left _ hu))
        (fun v hv => ?_) after
      obtain ⟨hnone, hfallback⟩ := hstored v hv
      rw [Resolver.shown, hnone, Option.getD_none, hfallback]
    rw [compose_eq hrender h, hleave]
    exact (compose_eq (c := { c with resolvers := before ++ after }) hrender h view context).symm
  anyOrder _ hresolvers page := compose_eq_ok_iff_of_filter_eq hrender h hresolvers page

/-- Hosts with a role and a state. -/
def hostSchema : Schema where
  name := "host"
  label := "Host"
  labelField := "name"
  fields := [.string "name" "Name", .string "role" "Role", .string "state" "State"]

/-- A host without a name. -/
def hostRecord : Record :=
  (Record.new ⟨7⟩ hostSchema).edited [.set "role" (.string "r-1"), .set "state" (.string "on")]

/-- Two resolvers for the role, of which the second shows the state, one for the state, which
finds nothing, and one for the name. -/
def hostComposer : Composer (Except ViewError) where
  render := FieldList.renderer
  resolvers := [
    { field := "role", resolve := fun _ _ => some (.string "admin") },
    { field := "state", resolve := fun _ _ => none, fallback := fun _ _ => .string "unknown" },
    { field := "role", resolve := fun r _ => (r.text? "state").map .string },
    { field := "name", resolve := fun _ _ => some (.string "nobody") }]

/-- A host with two resolvers for one field and one that finds nothing. -/
theorem substitutes_host :
    hostComposer.render = FieldList.renderer ∧ hostRecord.Filled
      ∧ hostComposer.Substitutes hostRecord { entityType := "host" } {} :=
  have hfilled : hostRecord.Filled := (Record.filled_edited ⟨7⟩ hostSchema _).2
  ⟨rfl, hfilled, substitutes rfl hfilled _ _⟩

/-- The role is shown as the state that is stored, and not as the one that is shown. -/
example : (hostRecord.shownBy hostComposer.resolvers).slots.entries
    = [("name", .absent), ("role", .string "on"), ("state", .string "unknown")] := rfl

end Composer
end Inventory
