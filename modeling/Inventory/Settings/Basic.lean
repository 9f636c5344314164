/-
# Settings

`CloudviewConfig` with `ValidationMode`: the defaults and `validate`.

| key | holds | default |
| --- | --- | --- |
| `validation` | `strict` or `lenient` | `strict` |
| `fieldset_weight_start` | an integer of 32 bits | 0 |
| `view_mode` | a text that is not blank | `full` |
| `langcode` | null, or a text that is not blank | null |
| `render_cache` | a boolean | true |
| `registry_root` | null, or the directory of definitions | null |

The containers of a detail page are weighted from `fieldset_weight_start` on.
-/

import Inventory.Data
import Inventory.Page.View
import Inventory.Text.WhiteSpace

namespace Inventory

/-- What can be wrong with settings. -/
inductive SettingsError where
  | parse
  | unsupportedFormat (format : String)
  | invalidValue (key message : String)
  deriving DecidableEq, Repr

/-- The text of a settings error. -/
def SettingsError.message : SettingsError → String
  | .parse => "Failed to parse configuration"
  | .unsupportedFormat format => "Unsupported configuration file format: " ++ format
  | .invalidValue key message =>
    "Invalid configuration value for key '" ++ key ++ "': " ++ message

/-- The name of a validation mode. -/
def ValidationMode.name : ValidationMode → String
  | .strict => "strict"
  | .lenient => "lenient"

/-- The validation mode of a name. -/
def ValidationMode.ofName? (s : String) : Option ValidationMode :=
  [ValidationMode.strict, .lenient].find? (·.name = s)

/-- Settings of a catalog. -/
structure Settings where
  validation : ValidationMode := .strict
  fieldsetWeightStart : Int32 := 0
  viewMode : String := "full"
  langcode : Option String := none
  renderCache : Bool := true
  registryRoot : Option String := none
  deriving DecidableEq, Repr

namespace Settings

/-- The settings in a document. -/
def toData (s : Settings) : Data := .ofMembers [
  ("validation", .str s.validation.name),
  ("fieldset_weight_start", .int s.fieldsetWeightStart.toInt),
  ("view_mode", .str s.viewMode),
  ("langcode", (s.langcode.map Data.str).getD .null),
  ("render_cache", .bool s.renderCache),
  ("registry_root", (s.registryRoot.map Data.str).getD .null)]

/-- Check that the texts are not blank; of two faults the view mode is reported. -/
def validate (s : Settings) : Except SettingsError Unit :=
  if Text.isBlank s.viewMode.toList then
    .error (.invalidValue "view_mode" "must not be empty")
  else if s.langcode.any fun l => Text.isBlank l.toList then
    .error (.invalidValue "langcode" "must not be empty when set")
  else .ok ()

end Settings
end Inventory
