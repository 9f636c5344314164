/-
# The text of a value stands for one value

`as_text` of `FieldValue`.

Among the values of one scalar type a text is the text of one value.

| type | text |
| --- | --- |
| string | the string itself |
| boolean | `true` or `false` |
| integer | its decimal digits, after a sign when it is negative |
| timestamp | date, time of day and fraction in writing |

Values of different types may share a text, as the string `1` and the number one do. In the
records of a column there are none, because a slot holds a value of the type of its field or
none (`Record.HasScalar`); so two of them that have a text have the same text exactly when they
hold the same value (`Record.HasScalar.text?_eq_iff`).
-/

import Inventory.Proofs.Record.Slots
import Inventory.Proofs.Timestamp.Text

namespace Inventory

/-! ### Values -/

namespace FieldValue

variable {v w : FieldValue} {t : PrimitiveType}

/-- A number is read back from its text in a document. -/
theorem toString_int_injective : Function.Injective (toString : Int → String) := by
  intro n m h
  have hjson : (Data.int n).toJson = (Data.int m).toJson :=
    congrArg (fun s : String => String.ofList s.toList) h
  exact Data.int.inj (Data.eq_of_toJson_eq rfl rfl hjson)

/-- The scalars of a type. -/
theorem exists_of_primitive? (h : v.primitive? = some t) :
    match t with
    | .string => ∃ s, v = .string s
    | .boolean => ∃ b, v = .boolean b
    | .integer => ∃ n, v = .integer n
    | .timestamp => ∃ i, v = .timestamp i := by
  cases v with
  | absent => cases h
  | items rows => cases h
  | string s =>
    cases h
    exact ⟨s, rfl⟩
  | boolean b =>
    cases h
    exact ⟨b, rfl⟩
  | integer n =>
    cases h
    exact ⟨n, rfl⟩
  | timestamp i =>
    cases h
    exact ⟨i, rfl⟩

/-- What a field of a scalar type holds, unless it is empty, is a scalar of the type. -/
theorem primitive?_of_conformsTo (hfits : v.conformsTo (.primitive t) = true)
    (hpresent : v.isAbsent = false) : v.primitive? = some t := by
  cases v with
  | absent => cases hpresent
  | items rows => cases hfits
  | _ => exact of_decide_eq_true hfits

/-- A text is not the text of nothing. -/
theorem isAbsent_of_text? {text : String} (h : v.text? = some text) : v.isAbsent = false := by
  cases v with
  | absent => cases h
  | _ => rfl

/-- A scalar has a text. -/
theorem exists_text? (h : v.primitive? = some t) : ∃ text, v.text? = some text := by
  cases v with
  | absent => cases h
  | items rows => cases h
  | boolean b => cases b <;> exact ⟨_, rfl⟩
  | _ => exact ⟨_, rfl⟩

/-- **Among the scalars of one type a text is the text of one value.** -/
theorem eq_of_text?_eq (hv : v.primitive? = some t) (hw : w.primitive? = some t)
    (htext : v.text? = w.text?) : v = w := by
  cases t with
  | string =>
    obtain ⟨s, rfl⟩ := exists_of_primitive? hv
    obtain ⟨s', rfl⟩ := exists_of_primitive? hw
    rw [Option.some.inj htext]
  | boolean =>
    obtain ⟨b, rfl⟩ := exists_of_primitive? hv
    obtain ⟨b', rfl⟩ := exists_of_primitive? hw
    cases b <;> cases b' <;> first | rfl | exact absurd htext (by decide)
  | integer =>
    obtain ⟨n, rfl⟩ := exists_of_primitive? hv
    obtain ⟨n', rfl⟩ := exists_of_primitive? hw
    rw [toString_int_injective (Option.some.inj htext)]
  | timestamp =>
    obtain ⟨i, rfl⟩ := exists_of_primitive? hv
    obtain ⟨i', rfl⟩ := exists_of_primitive? hw
    rw [Timestamp.rfc3339_injective (Option.some.inj htext)]

/-- Values of two types may share a text. -/
example : (FieldValue.string "1").text? = (FieldValue.integer 1).text? := rfl

end FieldValue

/-! ### Records with a column -/

namespace Record

variable {r r' : Record} {column text : String} {t : PrimitiveType}

/-- A record with a field of a scalar type, which holds a value of the type or none. -/
structure HasScalar (column : String) (t : PrimitiveType) (r : Record) : Prop where
  filled : r.Filled
  field : ∃ f, r.schema.field? column = some f ∧ f.type = .primitive t

/-- Records that are built on a schema have its scalar fields. -/
theorem BuiltOn.hasScalar {s : Schema} (h : r.BuiltOn s) {f : Field}
    (hf : s.field? column = some f) (htype : f.type = .primitive t) : r.HasScalar column t :=
  ⟨h.wellFormed.filled, f, h.schema_eq ▸ hf, htype⟩

/-- The value of a field is what its slot holds. -/
theorem value_eq_ok_iff {v : FieldValue} :
    r.value column = .ok v ↔ r.slots.get? column = some v := by
  unfold value
  cases r.slots.get? column <;> simp

/-- The text of a field is that of its value. -/
theorem text?_eq_some_iff : r.text? column = some text ↔
    ∃ v, r.value column = .ok v ∧ FieldValue.text? v = some text := by
  simp only [text?, Option.bind_eq_some_iff, value_eq_ok_iff]

namespace HasScalar

/-- The value of a scalar field is of its type. -/
theorem conformsTo (h : r.HasScalar column t) {v : FieldValue} (hv : r.value column = .ok v) :
    v.conformsTo (.primitive t) = true := by
  obtain ⟨f, hf, htype⟩ := h.field
  obtain ⟨f', hf', hfits⟩ := h.filled.fits column v (value_eq_ok_iff.1 hv)
  obtain rfl := Option.some.inj (hf.symm.trans hf')
  rwa [htype] at hfits

/-- A text in the column is that of a scalar of the type. -/
theorem exists_of_text? (h : r.HasScalar column t) (htext : r.text? column = some text) :
    ∃ v, r.value column = .ok v ∧ v.text? = some text ∧ v.primitive? = some t := by
  obtain ⟨v, hv, hvtext⟩ := text?_eq_some_iff.1 htext
  exact ⟨v, hv, hvtext, FieldValue.primitive?_of_conformsTo (h.conformsTo hv)
    (FieldValue.isAbsent_of_text? hvtext)⟩

/-- A value that is there has a text. -/
theorem exists_text? (h : r.HasScalar column t) {v : FieldValue} (hv : r.value column = .ok v)
    (hpresent : v.isAbsent = false) : ∃ text, r.text? column = some text := by
  obtain ⟨text, htext⟩ :=
    FieldValue.exists_text? (FieldValue.primitive?_of_conformsTo (h.conformsTo hv) hpresent)
  exact ⟨text, text?_eq_some_iff.2 ⟨v, hv, htext⟩⟩

/-- **In a column the text of a record tells its value.** -/
theorem text?_eq_iff (h : r.HasScalar column t) (h' : r'.HasScalar column t)
    (htext : r.text? column = some text) :
    r'.text? column = some text ↔ r'.value column = r.value column := by
  obtain ⟨v, hv, hvtext, hscalar⟩ := h.exists_of_text? htext
  rw [hv]
  constructor
  · intro htext'
    obtain ⟨w, hw, hwtext, hscalar'⟩ := h'.exists_of_text? htext'
    rw [hw, FieldValue.eq_of_text?_eq hscalar' hscalar (hwtext.trans hvtext.symm)]
  · exact fun hv' => text?_eq_some_iff.2 ⟨v, hv', hvtext⟩

/-- A record keeps its columns when a field is set. -/
theorem set (h : r.HasScalar column t) {name : String} {v : FieldValue}
    (hset : r.set name v = .ok r') : r'.HasScalar column t :=
  ⟨h.filled.set hset, schema_of_set hset ▸ h.field⟩

end HasScalar
end Record
end Inventory
