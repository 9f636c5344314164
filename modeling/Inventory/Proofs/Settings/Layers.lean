/-
# Settings from their layers

The layers that `load` of `ConfigProvider` merges.

Every key has one value that counts, chosen before any type is looked at
(`Settings.effective`):

| set by a variable | in the file | the value that counts |
| --- | --- | --- |
| yes | | the value of the variable |
| no | yes | the value in the file |
| no | no | the default |

What is loaded depends on the six values that count and on nothing else (`Settings.load_congr`),
and they decide how loading ends (`Settings.layered_of_yields`). So these do not matter:

| | |
| --- | --- |
| in the file | other keys, and the keys that a variable sets |
| among the variables | those that set no key of settings |
| the order of the variables | where no two of them set the same key |
-/

import Inventory.Proofs.Settings.Outcome
import Inventory.Proofs.Settings.Variables

namespace Inventory
namespace Settings

variable {file file' : Option File} {layer layer' : SettingsLayer} {leading key : String}
variable {env env' : List (String × String)}

/-! ### Values that count -/

/-- The defaults. -/
def defaultValue : String → Data
  | "validation" => .str "strict"
  | "fieldset_weight_start" => .int 0
  | "view_mode" => .str "full"
  | "render_cache" => .bool true
  | _ => .null

/-- The value of a key that counts: that of the variables, else that of the file, else the
default. -/
def effective (layer : SettingsLayer) (leading : String) (env : List (String × String))
    (key : String) : Data :=
  ((Environment.value? leading env key).or (layer.get? key)).getD (defaultValue key)

/-- The keys of the settings are plain. -/
theorem isPlainKey_of_mem_keys : ∀ key ∈ keys, Environment.IsPlainKey key := by
  decide +kernel

/-- The lowest layer has a default for every key. -/
theorem get?_defaultLayer : ∀ key ∈ keys, defaultLayer.get? key = some (defaultValue key) := by
  simp only [keys, List.forall_mem_cons]
  exact ⟨rfl, rfl, rfl, rfl, rfl, rfl, List.forall_mem_nil _⟩

/-- **The highest layer counts.** -/
theorem chosen_eq_effective (hkey : key ∈ keys) :
    chosen [Environment.layer leading env, layer, defaultLayer] key
      = effective layer leading env key := by
  rw [chosen, effective, List.findSome?_cons, List.findSome?_cons, List.findSome?_cons,
    Environment.get?_layer, get?_defaultLayer key hkey]
  cases Environment.value? leading env key with
  | some d => rfl
  | none => cases layer.get? key <;> rfl

/-! ### Files -/

/-- The format of a file by its name. -/
def formatOf? (name : String) : Option SettingsFormat :=
  SettingsFormat.ofExtension?
    (String.ofList (((Path.extensionOf? name).getD "").toList.map Char.toLower))

/-- The layer of a file whose format is known: that which its text writes, and the empty one for a
missing file, or where there is no file at all. -/
inductive Yields : Option File → SettingsLayer → Prop
  | unnamed : Yields none .empty
  | missing {f : File} {format : SettingsFormat} (hformat : formatOf? f.name = some format)
      (hcontent : f.content = none) : Yields (some f) .empty
  | read {f : File} {format : SettingsFormat} {text : String} {layer : SettingsLayer}
      (hformat : formatOf? f.name = some format) (hcontent : f.content = some text)
      (hread : format.read? text = some layer) : Yields (some f) layer

/-- The layer of a file is what the file yields. -/
theorem Yields.layer_eq {f : File} (h : Yields (some f) layer) : f.layer = .ok layer := by
  cases h with
  | missing hformat hcontent =>
    rw [formatOf?] at hformat
    simp only [File.layer, hformat, hcontent]
  | read hformat hcontent hread =>
    rw [formatOf?] at hformat
    simp only [File.layer, hformat, hcontent, hread]

/-- What is loaded is made of layers in which the same values count. -/
theorem exists_layers (h : Yields file layer) (leading : String) (env : List (String × String)) :
    ∃ layers, load file leading env = ofLayers layers
      ∧ ∀ key ∈ keys, chosen (layers ++ [defaultLayer]) key = effective layer leading env key := by
  cases file with
  | none =>
    cases h
    refine ⟨[Environment.layer leading env], rfl, fun key hkey => ?_⟩
    rw [← chosen_eq_effective hkey]
    rfl
  | some f =>
    refine ⟨[Environment.layer leading env, layer], ?_, fun key hkey => chosen_eq_effective hkey⟩
    rw [load, h.layer_eq]

/-- **Loading** ends as the values that count decide. -/
theorem outcome_load (h : Yields file layer) (leading : String) (env : List (String × String)) :
    Outcome (effective layer leading env) (load file leading env) := by
  obtain ⟨layers, hload, hvalues⟩ := exists_layers h leading env
  rw [hload]
  exact outcome_ofLayers hvalues

/-- **Nothing else matters** than the values that count. -/
theorem load_congr (h : Yields file layer) (h' : Yields file' layer')
    (hsame : ∀ key ∈ keys, effective layer leading env key = effective layer' leading env' key) :
    load file leading env = load file' leading env' := by
  obtain ⟨layers, hload, hvalues⟩ := exists_layers h leading env
  obtain ⟨layers', hload', hvalues'⟩ := exists_layers h' leading env'
  have hchosen : ∀ key ∈ keys,
      chosen (layers ++ [defaultLayer]) key = chosen (layers' ++ [defaultLayer]) key := by
    intro key hkey
    rw [hvalues key hkey, hsame key hkey, hvalues' key hkey]
  rw [hload, hload', ofLayers, ofLayers, ofValues?_congr hchosen]

/-! ### Layers -/

/-- Whether a variable sets a key of settings. -/
def setsKey (leading : String) (e : String × String) : Bool :=
  keys.any fun key => (Environment.given? leading e key).isSome

/-- What is loaded from a file with a layer, and from variables. -/
structure Layered (layer : SettingsLayer) (file : Option File) (leading : String)
    (env : List (String × String)) : Prop where
  /-- The values that count decide how loading ends. -/
  decides : Decides (effective layer leading env) (load file leading env)
  /-- With plain names, variable, file and default stand for a key as the table says. -/
  named : (∀ c ∈ leading.toList, Text.isWhiteSpace c = false) → Environment.Distinct env →
    ∀ key ∈ keys,
      (∀ e ∈ env, Environment.SameLetters e.1 (leading ++ key) →
        effective layer leading env key = Environment.valueOf e.2)
      ∧ ((∀ e ∈ env, ¬ Environment.SameLetters e.1 (leading ++ key)) →
        effective layer leading env key = (layer.get? key).getD (defaultValue key))
  /-- Of a file, only the keys of settings that no variable sets matter. -/
  overridden : ∀ file' layer', Yields file' layer' →
    (∀ key ∈ keys, Environment.value? leading env key = none → layer'.get? key = layer.get? key) →
      load file' leading env = load file leading env
  /-- Variables that set no key of settings do not matter. -/
  unknown : load file leading (env.filter (setsKey leading)) = load file leading env
  /-- The order of variables does not matter where no two set the same key. -/
  order : ∀ env', env.Perm env' → (∀ key ∈ keys, Environment.SetOnce leading env key) →
    load file leading env' = load file leading env

/-- **Where no variable is given twice**, a key has the value of its variable, or of the file, or
its default. -/
theorem effective_of_distinct (hleading : ∀ c ∈ leading.toList, Text.isWhiteSpace c = false)
    (hdistinct : Environment.Distinct env) (hkey : key ∈ keys) :
    (∀ e ∈ env, Environment.SameLetters e.1 (leading ++ key) →
        effective layer leading env key = Environment.valueOf e.2)
      ∧ ((∀ e ∈ env, ¬ Environment.SameLetters e.1 (leading ++ key)) →
        effective layer leading env key = (layer.get? key).getD (defaultValue key)) := by
  have hvalue (d : Data) := hdistinct.value?_eq_some_iff (d := d) hleading
    (isPlainKey_of_mem_keys key hkey)
  constructor
  · intro e he hname
    rw [effective, (hvalue _).2 ⟨e, he, hname, rfl⟩]
    rfl
  · intro hunset
    have hnone : Environment.value? leading env key = none := by
      rw [Option.eq_none_iff_forall_ne_some]
      intro d hd
      obtain ⟨e, he, hname, -⟩ := (hvalue d).1 hd
      exact hunset e he hname
    rw [effective, hnone, Option.none_or]

/-- **Settings come from their layers.** Take a file whose format is known and whose text writes a
layer, or no such file, and any variables. Each of the six keys has the value of the variables,
else that of the file, else the default, whatever their types. Loading gives settings exactly when
these six values have the types of their keys and neither the view mode nor the language code is
blank; otherwise a parse error when a type is wrong, and an invalid key when a text is blank.
Nothing else matters: no other key, no value below another one, no other variable. -/
theorem layered_of_yields (h : Yields file layer) (leading : String)
    (env : List (String × String)) : Layered layer file leading env where
  decides := (outcome_load h leading env).decides
  named := fun hleading hdistinct key hkey => effective_of_distinct hleading hdistinct hkey
  overridden := by
    intro file' layer' h' hsame
    refine load_congr h' h fun key hkey => ?_
    rw [effective, effective]
    cases hvalue : Environment.value? leading env key with
    | some d => rfl
    | none => rw [hsame key hkey hvalue]
  unknown := by
    refine load_congr h h fun key hkey => ?_
    have hvalue : Environment.value? leading (env.filter (setsKey leading)) key
        = Environment.value? leading env key :=
      Environment.value?_filter env fun e hsome => List.any_eq_true.2 ⟨key, hkey, hsome⟩
    rw [effective, effective, hvalue]
  order := by
    intro env' hperm honce
    refine load_congr h h fun key hkey => ?_
    rw [effective, effective, Environment.value?_eq_of_perm hperm (honce key hkey)]

/-- A file with a weight that is no integer. -/
def manyFile : File :=
  ⟨"settings.yaml", some "validation: lenient\nfieldset_weight_start: many\nlangcode: ja\n"⟩

/-- Two variables, one of which sets the weight. -/
def teaserVariables : List (String × String) :=
  [("CLOUDVIEW_FIELDSET_WEIGHT_START", "5"), ("cloudview_View_Mode", "teaser")]

/-- The weight in the file does not matter, since a variable sets it. -/
theorem layered_of_yields_many :
    (∃ layer, Layered layer (some manyFile) "CLOUDVIEW_" teaserVariables)
      ∧ (load (some manyFile) "CLOUDVIEW_" teaserVariables).toOption
        = some { validation := .lenient, fieldsetWeightStart := 5, viewMode := "teaser",
                 langcode := some "ja" } := by
  constructor
  · have hread : (SettingsFormat.yaml.read?
        "validation: lenient\nfieldset_weight_start: many\nlangcode: ja\n").isSome = true := by
      decide +kernel
    obtain ⟨layer, hlayer⟩ := Option.isSome_iff_exists.1 hread
    have hformat : formatOf? manyFile.name = some .yaml := by decide +kernel
    exact ⟨layer, layered_of_yields (.read hformat rfl hlayer) _ _⟩
  · decide +kernel

end Settings
end Inventory
