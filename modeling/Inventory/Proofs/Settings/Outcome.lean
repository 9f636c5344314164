/-
# How loading settings ends

What `load` of `ConfigProvider` extracts, and its `validate`.

The values that count for the six keys decide it, and no others (`Settings.outcome_ofLayers`,
`Settings.ofValues?_congr`):

| the values that count | loading gives |
| --- | --- |
| one has not the type of its key | a parse error |
| all have, the view mode is blank, or the language code is | the key as invalid, the view mode first |
| all have, and neither of the two is blank | the settings with these values |
-/

import Inventory.Settings.Load
import Mathlib.Logic.Basic

namespace Inventory

/-- A mode is known by its name. -/
theorem ValidationMode.ofName?_eq_some_iff {name : String} {mode : ValidationMode} :
    ofName? name = some mode ↔ name = mode.name := by
  constructor
  · intro h
    have hname : decide (mode.name = name) = true :=
      List.find?_some (p := fun m : ValidationMode => decide (m.name = name)) h
    exact (of_decide_eq_true hname).symm
  · rintro rfl
    cases mode <;> rfl

namespace Settings

variable {value value' : String → Data} {s : Settings} {d : Data}

/-- The keys of settings. -/
def keys : List String :=
  ["validation", "fieldset_weight_start", "view_mode", "langcode", "render_cache",
    "registry_root"]

/-! ### Types -/

/-- The values that name a validation mode: its name, and the objects whose first key in order
is the name, with null. -/
inductive NamesMode : Data → ValidationMode → Prop
  | text (mode : ValidationMode) : NamesMode (.str mode.name) mode
  | object {members : OrderedMap String Data} {mode : ValidationMode}
      (hfirst : (members.entries.mergeSort fun a b => decide (a.1 ≤ b.1)).head?
        = some (mode.name, .null)) : NamesMode (.object members) mode

/-- The value has the type of the key. -/
def HasType : String → Data → Prop
  | "validation", d => ∃ mode, NamesMode d mode
  | "fieldset_weight_start", d => ∃ n, d = .int n ∧ -2147483648 ≤ n ∧ n < 2147483648
  | "view_mode", d => ∃ text, d = .str text
  | "render_cache", d => ∃ b, d = .bool b
  | _, d => d = .null ∨ ∃ text, d = .str text

/-- The values of all keys are those of some settings. -/
structure Typed (value : String → Data) (s : Settings) : Prop where
  validation : NamesMode (value "validation") s.validation
  weight : value "fieldset_weight_start" = .int s.fieldsetWeightStart.toInt
  viewMode : value "view_mode" = .str s.viewMode
  langcode : value "langcode" = s.langcode.elim .null .str
  renderCache : value "render_cache" = .bool s.renderCache
  registryRoot : value "registry_root" = s.registryRoot.elim .null .str

/-- A value is a text or null when it is what an optional text is written as. -/
theorem exists_elim_iff :
    (∃ text : Option String, d = text.elim .null .str) ↔ d = .null ∨ ∃ text, d = .str text := by
  rw [Option.exists]
  rfl

/-- The integers of 32 bits are those from `-2147483648` up to and without `2147483648`. -/
theorem exists_weight_iff :
    (∃ weight : Int32, d = .int weight.toInt)
      ↔ ∃ n, d = .int n ∧ -2147483648 ≤ n ∧ n < 2147483648 := by
  constructor
  · rintro ⟨weight, rfl⟩
    exact ⟨_, rfl, Int32.le_toInt weight, Int32.toInt_lt weight⟩
  · rintro ⟨n, rfl, hlow, hhigh⟩
    exact ⟨.ofInt n, by rw [Int32.toInt_ofInt_of_le hlow hhigh]⟩

/-- Values are those of some settings when each has the type of its key. -/
theorem exists_typed_iff :
    (∃ s, Typed value s) ↔ ∀ key ∈ keys, HasType key (value key) := by
  simp only [keys, List.forall_mem_cons, HasType, ← exists_elim_iff, ← exists_weight_iff]
  constructor
  · rintro ⟨s, h⟩
    exact ⟨⟨_, h.validation⟩, ⟨_, h.weight⟩, ⟨_, h.viewMode⟩, ⟨_, h.langcode⟩,
      ⟨_, h.renderCache⟩, ⟨_, h.registryRoot⟩, List.forall_mem_nil _⟩
  · rintro ⟨⟨mode, hmode⟩, ⟨weight, hweight⟩, ⟨view, hview⟩, ⟨lang, hlang⟩, ⟨cache, hcache⟩,
      ⟨root, hroot⟩, -⟩
    exact ⟨⟨mode, weight, view, lang, cache, root⟩, hmode, hweight, hview, hlang, hcache, hroot⟩

/-- A value is read as the mode that it names. -/
theorem mode?_eq_some_iff {mode : ValidationMode} :
    mode? d = some mode ↔ NamesMode d mode := by
  constructor
  · intro h
    unfold mode? at h
    split at h
    · obtain rfl := ValidationMode.ofName?_eq_some_iff.1 h
      exact .text mode
    · split at h
      · rename_i hsorted
        obtain rfl := ValidationMode.ofName?_eq_some_iff.1 h
        exact .object (by rw [hsorted]; rfl)
      · cases h
    · cases h
  · rintro (_ | ⟨hfirst⟩)
    · exact ValidationMode.ofName?_eq_some_iff.2 rfl
    · obtain ⟨rest, hsorted⟩ := List.head?_eq_some_iff.1 hfirst
      simp only [mode?, hsorted]
      exact ValidationMode.ofName?_eq_some_iff.2 rfl

/-- A weight is read off an integer of 32 bits, and off nothing else. -/
theorem weight?_eq_some_iff {weight : Int32} : weight? d = some weight ↔ d = .int weight.toInt := by
  have hlimit : (Width.limit (32 - 1) : Int) = 2147483648 := by decide
  constructor
  · intro h
    obtain ⟨n, hn, rfl⟩ := Option.map_eq_some_iff.1 h
    rw [Option.filter_eq_some_iff, Width.holdsSigned_iff, hlimit] at hn
    obtain ⟨hint, hlow, hhigh⟩ := hn
    rw [Int32.toInt_ofInt_of_le hlow hhigh]
    cases d with
    | int k => rw [Option.some.inj hint]
    | _ => cases hint
  · rintro rfl
    have hholds : Width.holdsSigned 32 weight.toInt = true := by
      rw [Width.holdsSigned_iff, hlimit]
      exact ⟨Int32.le_toInt weight, Int32.toInt_lt weight⟩
    rw [weight?, Data.int?, Option.filter_some, if_pos hholds, Option.map_some, Int32.ofInt_toInt]

/-- A value is read as the optional text that it is written for. -/
theorem optionalText?_eq_some_iff {text : Option String} :
    optionalText? d = some text ↔ d = text.elim .null .str := by
  cases text <;> cases d <;> simp [optionalText?]

/-- Only a Boolean is read as one. -/
theorem bool?_eq_some_iff {b : Bool} : bool? d = some b ↔ d = .bool b := by
  cases d <;> simp [bool?]

/-- Only a text is read as one. -/
theorem str?_eq_some_iff {text : String} : d.str? = some text ↔ d = .str text := by
  cases d <;> simp [Data.str?]

/-- **Settings are made** of values that have the types of their keys. -/
theorem ofValues?_eq_some_iff :
    ofValues? value = some s ↔ Typed value s := by
  simp only [ofValues?, Option.bind_eq_bind, Option.bind_eq_some_iff, Option.pure_def,
    Option.some.injEq, mode?_eq_some_iff, weight?_eq_some_iff, str?_eq_some_iff,
    optionalText?_eq_some_iff, bool?_eq_some_iff]
  constructor
  · rintro ⟨mode, hmode, weight, hweight, view, hview, lang, hlang, cache, hcache, root, hroot, rfl⟩
    exact ⟨hmode, hweight, hview, hlang, hcache, hroot⟩
  · rintro ⟨hmode, hweight, hview, hlang, hcache, hroot⟩
    exact ⟨_, hmode, _, hweight, _, hview, _, hlang, _, hcache, _, hroot, rfl⟩

/-- Only the values of the six keys matter. -/
theorem ofValues?_congr (h : ∀ key ∈ keys, value key = value' key) :
    ofValues? value = ofValues? value' := by
  simp only [keys, List.forall_mem_cons] at h
  obtain ⟨hmode, hweight, hview, hlang, hcache, hroot, -⟩ := h
  simp only [ofValues?, hmode, hweight, hview, hlang, hcache, hroot]

/-! ### Blank texts -/

/-- A text without a character other than white space. -/
def Blank (d : Data) : Prop :=
  ∃ text, d = .str text ∧ ∀ c ∈ text.toList, Text.isWhiteSpace c = true

/-- The fault of values in which a text is blank: its key and the message. -/
inductive Faulty (value : String → Data) : String → String → Prop
  | viewMode (hview : Blank (value "view_mode")) : Faulty value "view_mode" "must not be empty"
  | langcode (hview : ¬ Blank (value "view_mode")) (hlang : Blank (value "langcode")) :
    Faulty value "langcode" "must not be empty when set"

/-- There is one fault at a time. -/
theorem Faulty.unique {key key' message message' : String} (h : Faulty value key message)
    (h' : Faulty value key' message') : key = key' ∧ message = message' := by
  cases h with
  | viewMode hview =>
    cases h' with
    | viewMode => exact ⟨rfl, rfl⟩
    | langcode hview' => exact absurd hview hview'
  | langcode hview =>
    cases h' with
    | viewMode hview' => exact absurd hview' hview
    | langcode => exact ⟨rfl, rfl⟩

/-- A fault is a blank text. -/
theorem Faulty.blank {key message : String} (h : Faulty value key message) :
    Blank (value "view_mode") ∨ Blank (value "langcode") := by
  cases h with
  | viewMode hview => exact .inl hview
  | langcode _ hlang => exact .inr hlang

/-- A text is blank as its characters are. -/
theorem blank_str_iff {text : String} :
    Blank (.str text) ↔ Text.isBlank text.toList = true := by
  constructor
  · rintro ⟨text', heq, hall⟩
    obtain rfl := Data.str.inj heq
    exact List.all_eq_true.2 hall
  · intro h
    exact ⟨text, rfl, List.all_eq_true.1 h⟩

/-- An optional text is blank when there is one and it is. -/
theorem blank_elim_iff {text : Option String} :
    Blank (text.elim .null .str) ↔ text.any (fun t => Text.isBlank t.toList) = true := by
  cases text with
  | none =>
    constructor
    · rintro ⟨text, heq, -⟩
      cases heq
    · intro h
      cases h
  | some text => exact blank_str_iff

/-- The view mode is blank as its value is. -/
theorem Typed.blank_viewMode (h : Typed value s) :
    Blank (value "view_mode") ↔ Text.isBlank s.viewMode.toList = true := by
  rw [h.viewMode, blank_str_iff]

/-- The language is blank as its value is. -/
theorem Typed.blank_langcode (h : Typed value s) :
    Blank (value "langcode") ↔ s.langcode.any (fun t => Text.isBlank t.toList) = true := by
  rw [h.langcode, blank_elim_iff]

/-! ### How loading ends -/

/-- How loading ends for the values that count. -/
inductive Outcome (value : String → Data) : Except SettingsError Settings → Prop
  | loaded {s : Settings} (htyped : Typed value s) (hview : ¬ Blank (value "view_mode"))
      (hlang : ¬ Blank (value "langcode")) : Outcome value (.ok s)
  | mistyped {key : String} (hkey : key ∈ keys) (htype : ¬ HasType key (value key)) :
    Outcome value (.error .parse)
  | blank {s : Settings} {key message : String} (htyped : Typed value s)
      (hfaulty : Faulty value key message) : Outcome value (.error (.invalidValue key message))

/-- Loading gives settings, a parse error or an invalid key, each exactly when the values say. -/
structure Decides (value : String → Data) (result : Except SettingsError Settings) : Prop where
  exists_ok_iff : (∃ s, result = .ok s) ↔ (∀ key ∈ keys, HasType key (value key))
    ∧ ¬ Blank (value "view_mode") ∧ ¬ Blank (value "langcode")
  typed_of_ok : ∀ s, result = .ok s → Typed value s
  parse_iff : result = .error .parse ↔ ∃ key ∈ keys, ¬ HasType key (value key)
  invalid_iff : ∀ key message, result = .error (.invalidValue key message)
    ↔ (∀ key ∈ keys, HasType key (value key)) ∧ Faulty value key message
  supported : ∀ format, result ≠ .error (.unsupportedFormat format)

/-- Settings are read from values of their types. -/
theorem Typed.hasType (h : Typed value s) : ∀ key ∈ keys, HasType key (value key) :=
  exists_typed_iff.1 ⟨s, h⟩

namespace Outcome

variable {result : Except SettingsError Settings}

/-- **Settings are loaded** when every value has its type and no text is blank. -/
theorem exists_ok_iff (h : Outcome value result) :
    (∃ s, result = .ok s) ↔ (∀ key ∈ keys, HasType key (value key))
      ∧ ¬ Blank (value "view_mode") ∧ ¬ Blank (value "langcode") := by
  constructor
  · rintro ⟨s, rfl⟩
    cases h with
    | loaded htyped hview hlang => exact ⟨htyped.hasType, hview, hlang⟩
  · rintro ⟨hall, hview, hlang⟩
    cases h with
    | loaded => exact ⟨_, rfl⟩
    | mistyped hkey htype => exact absurd (hall _ hkey) htype
    | blank _ hfaulty =>
      rcases hfaulty.blank with hblank | hblank
      · exact absurd hblank hview
      · exact absurd hblank hlang

/-- **Reading fails** when some value is not of its type. -/
theorem parse_iff (h : Outcome value result) :
    result = .error .parse ↔ ∃ key ∈ keys, ¬ HasType key (value key) := by
  constructor
  · rintro rfl
    cases h with
    | mistyped hkey htype => exact ⟨_, hkey, htype⟩
  · rintro ⟨key, hkey, htype⟩
    cases h with
    | loaded htyped => exact absurd (htyped.hasType key hkey) htype
    | mistyped => rfl
    | blank htyped => exact absurd (htyped.hasType key hkey) htype

/-- **A setting is refused** when all have their types and it is the first at fault. -/
theorem invalid_iff (h : Outcome value result) (key message : String) :
    result = .error (.invalidValue key message)
      ↔ (∀ key ∈ keys, HasType key (value key)) ∧ Faulty value key message := by
  constructor
  · rintro rfl
    cases h with
    | blank htyped hfaulty => exact ⟨htyped.hasType, hfaulty⟩
  · rintro ⟨hall, hfaulty⟩
    cases h with
    | loaded _ hview hlang =>
      rcases hfaulty.blank with hblank | hblank
      · exact absurd hblank hview
      · exact absurd hblank hlang
    | mistyped hkey htype => exact absurd (hall _ hkey) htype
    | blank _ hfaulty' =>
      obtain ⟨rfl, rfl⟩ := hfaulty'.unique hfaulty
      rfl

/-- The three ways are apart. -/
theorem decides (h : Outcome value result) : Decides value result where
  exists_ok_iff := h.exists_ok_iff
  typed_of_ok := by
    rintro s rfl
    cases h with
    | loaded htyped => exact htyped
  parse_iff := h.parse_iff
  invalid_iff := h.invalid_iff
  supported := by
    rintro format rfl
    cases h

end Outcome

/-- **Layers are judged** by the values that count. -/
theorem outcome_ofLayers {layers : List SettingsLayer}
    (h : ∀ key ∈ keys, chosen (layers ++ [defaultLayer]) key = value key) :
    Outcome value (ofLayers layers) := by
  rw [ofLayers, ofValues?_congr h]
  cases hvalues : ofValues? value with
  | none =>
    have huntyped : ¬ ∀ key ∈ keys, HasType key (value key) := by
      intro hall
      obtain ⟨s, htyped⟩ := exists_typed_iff.2 hall
      rw [ofValues?_eq_some_iff.2 htyped] at hvalues
      cases hvalues
    simp only [not_forall] at huntyped
    obtain ⟨key, hkey, htype⟩ := huntyped
    exact .mistyped hkey htype
  | some s =>
    have htyped : Typed value s := ofValues?_eq_some_iff.1 hvalues
    dsimp only
    unfold validate
    -- the view mode is checked first, so the language counts only after it
    by_cases hblank : Text.isBlank s.viewMode.toList = true
    · rw [if_pos hblank]
      exact .blank htyped (.viewMode (htyped.blank_viewMode.2 hblank))
    · rw [if_neg hblank]
      have hview : ¬ Blank (value "view_mode") := fun h => hblank (htyped.blank_viewMode.1 h)
      by_cases hblank' : (s.langcode.any fun t => Text.isBlank t.toList) = true
      · rw [if_pos hblank']
        exact .blank htyped (.langcode hview (htyped.blank_langcode.2 hblank'))
      · rw [if_neg hblank']
        exact .loaded htyped hview fun h => hblank' (htyped.blank_langcode.1 h)

end Settings
end Inventory
