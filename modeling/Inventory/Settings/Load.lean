/-
# Loading settings

`ConfigProvider`: `with_file`, `file_layer` and `load`.

Settings come in layers: the defaults, a file, the environment. For every key the
highest layer that has it counts, and only the value that counts has to be of the
right type. Keys that are none of the settings are passed over. Values are not
converted: a text of digits is no integer, an integer is no boolean.

| ending of the file's name | format | refused |
| --- | --- | --- |
| `toml` | TOML | repeated keys |
| `yaml`, `yml` | YAML | what is neither a mapping nor empty |
| `json` | JSON | what is not an object |

The ending may be written in any case. A file that is missing adds nothing.
-/

import Inventory.Files.Disk
import Inventory.Json.Reader
import Inventory.Settings.Basic
import Inventory.Settings.Environment
import Inventory.Toml.Document
import Inventory.Width
import Inventory.Yaml.Node

namespace Inventory

/-- Values of settings by key. -/
abbrev SettingsLayer := OrderedMap String Data

/-- A format of settings files. -/
inductive SettingsFormat where
  | toml
  | yaml
  | json
  deriving DecidableEq, Repr

namespace SettingsFormat

/-- The format of a file name's ending. -/
def ofExtension? (extension : String) : Option SettingsFormat :=
  if extension = "toml" then some .toml
  else if extension = "yaml" ∨ extension = "yml" then some .yaml
  else if extension = "json" then some .json
  else none

/-- How deep the values of a file nest, at most. -/
def maxDepth : Nat := 127

mutual

/-- A node of YAML as a value. Keys are texts; of a repeated one the last value
counts. -/
def ofNode? : Nat → Yaml.Node → Option Data
  | _, .scalar false text => some (.str text)
  | _, .scalar true text => some <|
    match Yaml.Scalar.ofPlain text.toList with
    | .null => .null
    | .bool b => .bool b
    | .int n => .int n
    | .real => .real text
    | .text => .str text
  | 0, .list _ | 0, .mapping _ => none
  | depth + 1, .list items => (ofNodes? depth items).map .list
  | depth + 1, .mapping entries => (ofEntries? depth entries).map fun members =>
    .object (.ofList members)

/-- The items of a list of YAML as values. -/
def ofNodes? (depth : Nat) : List Yaml.Node → Option (List Data)
  | [] => some []
  | item :: rest => do
    let d ← ofNode? depth item
    return d :: (← ofNodes? depth rest)

/-- The entries of a mapping of YAML as members. -/
def ofEntries? (depth : Nat) : List (Yaml.Node × Yaml.Node) → Option (List (String × Data))
  | [] => some []
  | (key, value) :: rest => do
    let name ← key.text?
    let d ← ofNode? depth value
    return (name, d) :: (← ofEntries? depth rest)

end

/-- Whether the numbers of a value are in the range of binary64, and its brackets
nest no deeper than allowed. -/
def isBounded : Nat → Data → Bool
  | _, .null | _, .bool _ | _, .str _ => true
  | _, .int n => Binary64.isFiniteNumeral (toString n).toList
  | _, .real written => Binary64.isFiniteNumeral written.toList
  | 0, .list _ | 0, .object _ => false
  | depth + 1, .list items => items.all (isBounded depth)
  | depth + 1, .object members => members.entries.all fun (_, d) => isBounded depth d

/-- The layer that a text writes in a format. -/
def read? (format : SettingsFormat) (text : String) : Option SettingsLayer :=
  match format with
  | .toml =>
    match Data.ofToml? text with
    | some (.object members) => some members
    | _ => none
  | .yaml =>
    match Yaml.Node.ofText? text with
    | none => none
    | some n =>
      if n.isEmpty then some .empty
      else match ofNode? (maxDepth + 1) n with
        | some (.object members) => some members
        | _ => none
  | .json =>
    match Data.ofJson? text with
    | some (.object members) =>
      if isBounded maxDepth (.object members) then some (.ofList members.entries) else none
    | _ => none

end SettingsFormat

namespace Settings

/-- The defaults as a layer. -/
def defaultLayer : SettingsLayer :=
  match ({} : Settings).toData with
  | .object members => members
  | _ => .empty

/-- The value that counts for a key, the highest layer first. -/
def chosen (layers : List SettingsLayer) (key : String) : Data :=
  (layers.findSome? (·.get? key)).getD .null

/-- The text of a value that is null or a text. -/
def optionalText? : Data → Option (Option String)
  | .null => some none
  | .str s => some (some s)
  | _ => none

/-- The integer of 32 bits that a value is. -/
def weight? (d : Data) : Option Int32 := (d.int?.filter (Width.holdsSigned 32)).map Int32.ofInt

/-- The truth value that a value is. -/
def bool? : Data → Option Bool
  | .bool b => some b
  | _ => none

/-- The mode that a value names: a text, or the first key of an object, in order,
with null as its value. -/
def mode? : Data → Option ValidationMode
  | .str name => ValidationMode.ofName? name
  | .object members =>
    match members.entries.mergeSort fun a b => decide (a.1 ≤ b.1) with
    | (name, .null) :: _ => ValidationMode.ofName? name
    | _ => none
  | _ => none

/-- The settings made of the values that count. -/
def ofValues? (value : String → Data) : Option Settings := do
  return {
    validation := ← mode? (value "validation")
    fieldsetWeightStart := ← weight? (value "fieldset_weight_start")
    viewMode := ← (value "view_mode").str?
    langcode := ← optionalText? (value "langcode")
    renderCache := ← bool? (value "render_cache")
    registryRoot := ← optionalText? (value "registry_root") }

/-- The settings of layers, the highest first, above the defaults. -/
def ofLayers (layers : List SettingsLayer) : Except SettingsError Settings :=
  match ofValues? (chosen (layers ++ [defaultLayer])) with
  | none => .error .parse
  | some s =>
    match s.validate with
    | .error e => .error e
    | .ok () => .ok s

/-- A settings file: its name, and its text unless it is missing. -/
structure File where
  name : String
  content : Option String

/-- The layer of a file. -/
def File.layer (f : File) : Except SettingsError SettingsLayer :=
  let extension := String.ofList (((Path.extensionOf? f.name).getD "").toList.map Char.toLower)
  match SettingsFormat.ofExtension? extension with
  | none => .error (.unsupportedFormat extension)
  | some format =>
    match f.content with
    | none => .ok .empty
    | some text =>
      match format.read? text with
      | some layer => .ok layer
      | none => .error .parse

/-- Load settings from a file, if there is one, and the environment variables whose
names start with a prefix. -/
def load (file : Option File) (leading : String) (environment : List (String × String)) :
    Except SettingsError Settings :=
  let top := Environment.layer leading environment
  match file with
  | none => ofLayers [top]
  | some f =>
    match f.layer with
    | .error e => .error e
    | .ok layer => ofLayers [top, layer]

end Settings
end Inventory
