/-
# Keys and choices tell values apart

What `as_text` means for `reconcile`, which matches records by it, and for `mark_selectable`, which
offers it.

Records are matched by the text of a key field when they are reconciled, and a choice keeps the
records with a text. In a column of one scalar type a text stands for one value, so both go by
the values:

| a record | because of a text | that is, because of a value |
| --- | --- | --- |
| reported, under a stored identifier | its key is stored | a stored record holds it |
| reported, under its own identifier | its key is not stored | no stored record holds it |
| stored and deleted | an earlier record has its key | another record holds it too |
| stored and deleted | its key is not reported | no reported record holds it |
| kept by a choice | it has the text of the option | it holds the one of the option |

What is said of a plan is `Reconcile.GoesByValue`, what is said of an option `FilterTable.Chooses`.
-/

import Inventory.Proofs.Listing.Options
import Inventory.Proofs.Reconcile.Plan
import Inventory.Proofs.Record.ValueText

namespace Inventory

variable {t : PrimitiveType} {records : List Record}

/-! ### Keys -/

namespace Reconcile

variable {schema : Schema} {context keyField key : String} {stored remote : List Record}
  {held : StoredIndex} {incoming : ReportedIndex} {r r' u : Record}

/-- The reported records as they count, moved to the cloud context. -/
def Arrives (schema : Schema) (context : String) (remote : List Record) (r' : Record) : Prop :=
  ∃ r ∈ remote, moved schema context r = .ok r'

/-- A record that was moved to a cloud context still has the scalar field. -/
theorem hasScalar_of_moved (h : r.HasScalar keyField t)
    (hmoved : moved schema context r = .ok r') : r'.HasScalar keyField t := by
  unfold moved at hmoved
  split at hmoved
  · exact h.set hmoved
  · exact Except.ok.inj hmoved ▸ h

/-- Records that arrive have the scalar field of those that are reported. -/
theorem Arrives.hasScalar (hremote : ∀ r ∈ remote, r.HasScalar keyField t)
    (h : Arrives schema context remote r') : r'.HasScalar keyField t := by
  obtain ⟨r, hr, hmoved⟩ := h
  exact hasScalar_of_moved (hremote r hr) hmoved

/-- There is a first record of every text that occurs. -/
theorem exists_firstWith (hr : r ∈ records) (htext : r.text? keyField = some key) :
    ∃ r₀, firstWith keyField records key = some r₀ := by
  rw [← Option.isSome_iff_exists, firstWith, List.find?_isSome]
  exact ⟨r, hr, decide_eq_true htext⟩

/-- The reported index holds the last record that arrives with a key. -/
theorem ReportedIndex.exists_last
    (h : remote.foldlM (ReportedIndex.enter schema context keyField) {} = .ok incoming) :
    ∃ arrived : List Record, (∀ r, r ∈ arrived ↔ Arrives schema context remote r)
      ∧ ∀ key, incoming.byKey.get? key = firstWith keyField arrived key := by
  obtain ⟨place, hplace⟩ := exists_places schema context
  have hentered := ReportedIndex.exists_foldlM_iff.1 ⟨incoming, h⟩
  refine ⟨(remote.map place).reverse, fun r' => ?_, (holds_of_foldlM hplace h).last⟩
  rw [List.mem_reverse, List.mem_map]
  refine exists_congr fun r => and_congr_right fun hr => ?_
  obtain ⟨-, r₁, hmoved, -⟩ := hentered r hr
  obtain rfl := hplace r r₁ hmoved
  rw [hmoved, Except.ok.injEq]

/-- What the reported index holds under a key has arrived with that key. -/
theorem ReportedIndex.arrives_of_get?
    (h : remote.foldlM (ReportedIndex.enter schema context keyField) {} = .ok incoming)
    (hget : incoming.byKey.get? key = some r) :
    Arrives schema context remote r ∧ r.text? keyField = some key := by
  obtain ⟨arrived, harrived, hlast⟩ := exists_last h
  obtain ⟨hmem, htext⟩ := mem_of_firstWith ((hlast key).symm.trans hget)
  exact ⟨(harrived r).1 hmem, htext⟩

theorem ReportedIndex.exists_get?
    (h : remote.foldlM (ReportedIndex.enter schema context keyField) {} = .ok incoming)
    (hr : Arrives schema context remote r) (htext : r.text? keyField = some key) :
    ∃ r', incoming.byKey.get? key = some r' := by
  obtain ⟨arrived, harrived, hlast⟩ := exists_last h
  rw [hlast]
  exact exists_firstWith ((harrived r).2 hr) htext

/-- What is saved for a record that arrives: it takes the identifier of a stored record that
holds the value of its key field, and keeps its own when there is none. -/
structure SavedFor (keyField : String) (stored : List Record) (r u : Record) : Prop where
  restamped : Restamped u r
  id : (∃ s ∈ stored, s.value keyField = r.value keyField ∧ u.id = s.id)
    ∨ (∀ s ∈ stored, s.value keyField ≠ r.value keyField) ∧ u.id = r.id

/-- A plan that goes by the values of the key field. -/
structure GoesByValue (schema : Schema) (context keyField : String) (stored remote : List Record)
    (p : Plan) : Prop where
  /-- Whatever is saved is saved for a record that arrives. -/
  saved : ∀ u ∈ p.upserts, ∃ r, Arrives schema context remote r ∧ SavedFor keyField stored r u
  /-- Every value that arrives is saved. -/
  arrived : ∀ r, Arrives schema context remote r → ∀ v, r.value keyField = .ok v →
    v.isAbsent = false → ∃ u ∈ p.upserts, ∃ r', Arrives schema context remote r'
      ∧ r'.value keyField = .ok v ∧ SavedFor keyField stored r' u
  /-- A stored record is deleted when another one holds its value, or none that arrives does. -/
  deleted : (stored.map Record.id).Nodup → ∀ id ∈ p.deletes, ∃ s ∈ stored, s.id = id
    ∧ ((∃ s' ∈ stored, s'.id ≠ id ∧ s'.value keyField = s.value keyField)
      ∨ ∀ r, Arrives schema context remote r → r.value keyField ≠ s.value keyField)

/-- **The identifier of a saved record** is settled by the value of its key field. -/
theorem savedFor_of_settleWith {now : Timestamp} {o : Outcome} (hr : r.HasScalar keyField t)
    (hstored : ∀ s ∈ stored, s.HasScalar keyField t) (htext : r.text? keyField = some key)
    (h : settleWith now (firstWith keyField stored key) r = .ok (u, o)) :
    SavedFor keyField stored r u := by
  cases hfirst : firstWith keyField stored key with
  | none =>
    rw [hfirst] at h
    obtain ⟨hstamped, hid⟩ := fresh_eq_ok h
    refine ⟨hstamped, .inr ⟨fun s hs hvalue => ?_, hid⟩⟩
    obtain ⟨s₀, h₀⟩ := exists_firstWith hs ((hr.text?_eq_iff (hstored s hs) htext).2 hvalue)
    rw [hfirst] at h₀
    cases h₀
  | some s =>
    rw [hfirst] at h
    obtain ⟨hstamped, hid⟩ := matched_eq_ok h
    obtain ⟨hs, hstext⟩ := mem_of_firstWith hfirst
    exact ⟨hstamped, .inl ⟨s, hs, (hr.text?_eq_iff (hstored s hs) htext).1 hstext, hid⟩⟩

/-- **What is deleted** goes by the values: a record that holds the value of another one, or a
value that does not arrive. -/
theorem deleted_by_value (hstored : ∀ s ∈ stored, s.HasScalar keyField t)
    (hremote : ∀ r ∈ remote, r.HasScalar keyField t) (hheld : held.Holds keyField stored)
    (hincoming : remote.foldlM (ReportedIndex.enter schema context keyField) {} = .ok incoming)
    (hids : (stored.map Record.id).Nodup) {id : Ulid}
    (hid : id ∈ held.duplicates ++ (held.byKey.filter fun key _ =>
      !incoming.byKey.contains key).values.map Record.id) :
    ∃ s ∈ stored, s.id = id
      ∧ ((∃ s' ∈ stored, s'.id ≠ id ∧ s'.value keyField = s.value keyField)
        ∨ ∀ r, Arrives schema context remote r → r.value keyField ≠ s.value keyField) := by
  rw [List.mem_append, hheld.others hids, mem_stale hheld.nodup] at hid
  rcases hid with ⟨s, hs, rfl, key, s₀, htext, hfirst, hne⟩ | ⟨key, s, hget, hkey, rfl⟩
  · obtain ⟨hs₀, htext₀⟩ := mem_of_firstWith hfirst
    have hvalue := ((hstored s hs).text?_eq_iff (hstored s₀ hs₀) htext).1 htext₀
    exact ⟨s, hs, rfl, .inl ⟨s₀, hs₀, hne, hvalue⟩⟩
  · obtain ⟨hs, htext⟩ := mem_of_firstWith ((hheld.first key).symm.trans hget)
    refine ⟨s, hs, rfl, .inr fun r hr hvalue => hkey ?_⟩
    have htext' := ((hstored s hs).text?_eq_iff (hr.hasScalar hremote) htext).2 hvalue
    exact OrderedMap.isSome_get?_iff.1
      (Option.isSome_iff_exists.2 (ReportedIndex.exists_get? hincoming hr htext'))

/-- **A plan goes by the values** of a key field of a scalar type. -/
theorem goesByValue_of_plan_eq_ok {now : Timestamp} {p : Plan}
    (hstored : ∀ s ∈ stored, s.HasScalar keyField t)
    (hremote : ∀ r ∈ remote, r.HasScalar keyField t)
    (h : plan schema context keyField stored remote now = .ok p) :
    GoesByValue schema context keyField stored remote p := by
  obtain ⟨held, incoming, settled, hheld, hincoming, hsettled, hupserts, hdeletes⟩ := plan_eq_ok h
  have hholds := StoredIndex.holds_of_foldlM hheld
  have hget {e : String × Record} (he : e ∈ incoming.byKey.entries) :
      incoming.byKey.get? e.1 = some e.2 :=
    (OrderedMap.get?_eq_some_iff (ReportedIndex.nodup_of_foldlM hincoming)).2 he
  have hsettles := mapM_eq_ok_iff.1 hsettled
  have hsaved : ∀ e ∈ incoming.byKey.entries, ∀ so, settle now held.byKey e = .ok so →
      SavedFor keyField stored e.2 so.1 := by
    intro e he so hsettle
    obtain ⟨harrives, htext⟩ := ReportedIndex.arrives_of_get? hincoming (hget he)
    rw [settle_eq_settleWith, hholds.first] at hsettle
    exact savedFor_of_settleWith (harrives.hasScalar hremote) hstored htext hsettle
  refine ⟨fun u hu => ?_, fun r hr v hv hpresent => ?_, fun hids id hid => ?_⟩
  · rw [hupserts] at hu
    obtain ⟨so, hso, rfl⟩ := List.mem_map.1 hu
    obtain ⟨e, he, hsettle⟩ := exists_left_of_forall₂ hsettles hso
    exact ⟨e.2, (ReportedIndex.arrives_of_get? hincoming (hget he)).1, hsaved e he so hsettle⟩
  · -- the record that is saved for the key may be a later one, with the same text
    have hscalar := hr.hasScalar hremote
    obtain ⟨key, htext⟩ := hscalar.exists_text? hv hpresent
    obtain ⟨r', hr'⟩ := ReportedIndex.exists_get? hincoming hr htext
    obtain ⟨harrives, htext'⟩ := ReportedIndex.arrives_of_get? hincoming hr'
    have hvalue := (hscalar.text?_eq_iff (harrives.hasScalar hremote) htext).1 htext'
    have he := OrderedMap.mem_entries_of_get? hr'
    obtain ⟨so, hso, hsettle⟩ := exists_left_of_forall₂ hsettles.flip he
    exact ⟨so.1, hupserts ▸ List.mem_map_of_mem hso, r', harrives, hvalue.trans hv,
      hsaved _ he so hsettle⟩
  · exact deleted_by_value hstored hremote hholds hincoming hids (hdeletes ▸ hid)

end Reconcile

/-! ### Choices -/

namespace FilterTable

variable {column option : String}

/-- An option that stands for one value: the value has its text, and a choice of the option keeps
the records that hold the value. -/
structure Chooses (records : List Record) (column option : String) (v : FieldValue) : Prop where
  text : v.text? = some option
  held : ∃ r ∈ records, r.value column = .ok v
  keeps : ∀ c : ColumnFilter, c.field = column → (∃ options, c.widget = .select options) →
    ∀ r ∈ records, ListQuery.admits r (c, option) = true ↔ r.value column = .ok v

/-- A choice admits the records that have the text of the option. -/
theorem admits_select_iff {c : ColumnFilter} {options : List String} {r : Record}
    (hwidget : c.widget = .select options) :
    ListQuery.admits r (c, option) = true ↔ r.text? c.field = some option := by
  rw [ListQuery.admits, hwidget]
  cases r.text? c.field <;> simp

/-- **An option stands for one value** of a column of a scalar type. -/
theorem existsUnique_chooses (hrecords : ∀ r ∈ records, r.HasScalar column t)
    (hoption : option ∈ options records column) : ∃! v, Chooses records column option v := by
  obtain ⟨-, r, hr, htext⟩ := mem_options_iff.1 hoption
  obtain ⟨v, hv, hvtext, -⟩ := (hrecords r hr).exists_of_text? htext
  have hiff : ∀ r' ∈ records, r'.text? column = some option ↔ r'.value column = .ok v :=
    fun r' hr' => hv ▸ (hrecords r hr).text?_eq_iff (hrecords r' hr') htext
  refine ⟨v, ⟨hvtext, ⟨r, hr, hv⟩, ?_⟩, fun w hw => ?_⟩
  · rintro c rfl ⟨options, hwidget⟩ r' hr'
    exact (admits_select_iff hwidget).trans (hiff r' hr')
  · obtain ⟨r', hr', hw'⟩ := hw.held
    have hv' := (hiff r' hr').1 (Record.text?_eq_some_iff.2 ⟨w, hw', hw.text⟩)
    exact Except.ok.inj (hw'.symm.trans hv')

end FilterTable

/-! ### Scalar types -/

namespace PrimitiveType

/-- What is asked of the texts of a scalar type. -/
structure TextsIdentify (t : PrimitiveType) : Prop where
  /-- A value that is not absent has a text, and no other value of the type has it. -/
  values : ∀ v w : FieldValue, v.conformsTo (.primitive t) = true →
    w.conformsTo (.primitive t) = true → v.isAbsent = false → w.isAbsent = false →
    v.text?.isSome = true ∧ (v.text? = w.text? ↔ v = w)
  /-- A reconciliation by a key field of the type goes by the values of the field. -/
  keys : ∀ schema context keyField stored remote now p,
    (∀ s ∈ stored, s.HasScalar keyField t) → (∀ r ∈ remote, r.HasScalar keyField t) →
    Reconcile.plan schema context keyField stored remote now = .ok p →
    Reconcile.GoesByValue schema context keyField stored remote p
  /-- An option among the texts of a column of the type stands for one value. -/
  options : ∀ records column, (∀ r ∈ records, r.HasScalar column t) →
    ∀ option ∈ FilterTable.options records column, ∃! v, FilterTable.Chooses records column option v

/-- **The text of a value identifies it** among the values of its scalar type, and so neither a
key nor an option ever stands for two values of a column. A reconciliation by a field of the
type saves every reported value and deletes by value, and each option of a filter chooses the
rows of one value. For instants this rests on the calendar: no two days have one date, and no
leap second has the text of another second. -/
theorem texts_identify (t : PrimitiveType) : t.TextsIdentify where
  values v w hv hw hv' hw' := by
    have hscalar := FieldValue.primitive?_of_conformsTo hv hv'
    have hscalar' := FieldValue.primitive?_of_conformsTo hw hw'
    refine ⟨Option.isSome_iff_exists.2 (FieldValue.exists_text? hscalar), ?_⟩
    exact ⟨FieldValue.eq_of_text?_eq hscalar hscalar', congrArg FieldValue.text?⟩
  keys _ _ _ _ _ _ _ hstored hremote := Reconcile.goesByValue_of_plan_eq_ok hstored hremote
  options _ _ hrecords _ := FilterTable.existsUnique_chooses hrecords

/-- Readings by the instant at which they were taken. -/
def readingSchema : Schema where
  name := "reading"
  label := "Reading"
  labelField := "taken"
  fields := [.timestamp "taken" "Taken"]

/-- A reading. -/
def reading (id : BitVec 128) (taken : Timestamp) : Record where
  id := ⟨id⟩
  schema := readingSchema
  slots := .ofList [("taken", .timestamp taken)]

/-- Half a second before a leap second. -/
def lastSecond : Timestamp := ⟨1483228799, 500000000, by decide, by decide⟩

/-- The leap second itself. -/
def leapSecond : Timestamp := ⟨1483228799, 1000000000, by decide, by decide⟩

theorem hasScalar_reading (id : BitVec 128) (taken : Timestamp) :
    (reading id taken).HasScalar "taken" .timestamp := by
  have hset : (Record.new ⟨id⟩ readingSchema).set "taken" (.timestamp taken)
      = .ok (reading id taken) := Record.set_eq_ok_iff.2 ⟨_, rfl, rfl, rfl⟩
  exact ((Record.BuiltOn.new ⟨id⟩).set (fun _ h => by cases h) hset).hasScalar rfl rfl

/-- Of two readings half a second apart, only the one that was taken in the leap second is reported
again. It keeps its identifier, the other one is deleted, and each is an option of its own. -/
theorem texts_identify_leapSecond :
    (FieldValue.timestamp lastSecond).text? ≠ (FieldValue.timestamp leapSecond).text?
      ∧ (∃ p, Reconcile.plan readingSchema "" "taken"
          [reading 1 lastSecond, reading 2 leapSecond] [reading 3 leapSecond] .epoch = .ok p
        ∧ p.upserts.map Record.id = [⟨2⟩] ∧ p.deletes = [⟨1⟩]
        ∧ Reconcile.GoesByValue readingSchema "" "taken"
          [reading 1 lastSecond, reading 2 leapSecond] [reading 3 leapSecond] p)
      ∧ ∀ option ∈ ["2016-12-31T23:59:59.500+00:00", "2016-12-31T23:59:60+00:00"],
        option ∈ FilterTable.options [reading 1 lastSecond, reading 2 leapSecond] "taken"
          ∧ ∃! v, FilterTable.Chooses [reading 1 lastSecond, reading 2 leapSecond] "taken" option
            v := by
  have hidentify := texts_identify .timestamp
  have hstored : ∀ r ∈ [reading 1 lastSecond, reading 2 leapSecond],
      r.HasScalar "taken" .timestamp := by
    rw [List.forall_mem_cons, List.forall_mem_singleton]
    exact ⟨hasScalar_reading 1 _, hasScalar_reading 2 _⟩
  have hremote : ∀ r ∈ [reading 3 leapSecond], r.HasScalar "taken" .timestamp := by
    rw [List.forall_mem_singleton]
    exact hasScalar_reading 3 _
  -- both are counted on the same second; the plan goes by their texts, which differ
  have hplanned : (Reconcile.plan readingSchema "" "taken"
      [reading 1 lastSecond, reading 2 leapSecond] [reading 3 leapSecond] .epoch).toOption.map
        (fun p => (p.upserts.map Record.id, p.deletes)) = some ([⟨2⟩], [⟨1⟩]) := by
    decide +kernel
  have hoptions : ∀ option ∈ ["2016-12-31T23:59:59.500+00:00", "2016-12-31T23:59:60+00:00"],
      option ∈ FilterTable.options [reading 1 lastSecond, reading 2 leapSecond] "taken" := by
    rw [List.forall_mem_cons, List.forall_mem_singleton]
    exact ⟨FilterTable.mem_options_iff.2 ⟨by decide, reading 1 lastSecond, by simp,
        by decide +kernel⟩,
      FilterTable.mem_options_iff.2 ⟨by decide, reading 2 leapSecond, by simp, by decide +kernel⟩⟩
  refine ⟨fun htext => ?_, ?_, fun option hoption =>
    ⟨hoptions option hoption, hidentify.options _ _ hstored option (hoptions option hoption)⟩⟩
  · have hsame := (hidentify.values _ _ rfl rfl rfl rfl).2.1 htext
    exact absurd (FieldValue.timestamp.inj hsame) (by decide)
  · cases hplan : Reconcile.plan readingSchema "" "taken"
        [reading 1 lastSecond, reading 2 leapSecond] [reading 3 leapSecond] .epoch with
    | error e =>
      rw [hplan] at hplanned
      cases hplanned
    | ok p =>
      rw [hplan] at hplanned
      obtain ⟨hupserts, hdeletes⟩ := Prod.mk.inj (Option.some.inj hplanned)
      exact ⟨p, rfl, hupserts, hdeletes, hidentify.keys _ _ _ _ _ _ _ hstored hremote hplan⟩

end PrimitiveType
end Inventory
