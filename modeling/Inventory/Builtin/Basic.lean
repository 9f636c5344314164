/-
# Resource types of a cloud

`cloud_resource`, `name`, `key_values`, `tags`, `tags_fieldset`, `single_field_fieldset`, `others`
and `view`: what the built-in resource types are put together from.

Every resource type of a cloud has the field of its cloud context and its label
field first, then fields of its own, then the owner and the three stamps. Its
view ends with a closed fieldset of the context and the owner.

| field | |
| --- | --- |
| `cloud_context` | which cloud account the resource belongs to |
| the label field | what the resource is called |
| `uid` | who owns it |
| `created`, `changed`, `refreshed` | when it appeared, differed, was last reported |
-/

import Inventory.Page.View
import Inventory.Reconcile

namespace Inventory

/-- A resource type: what its records hold and how they are presented. -/
structure ResourceType where
  schema : Schema
  view : View
  deriving DecidableEq, Repr

namespace Builtin

/-- The field of the cloud context. -/
def contextField : Field :=
  ((Field.string Record.contextField "Cloud service provider ID").describe
    "A unique ID for the cloud service provider.").fixed

/-- The field of the owner. -/
def ownerField : Field :=
  (Field.integer "uid" "Owner").describe "The user ID of the resource owner."

/-- The fields of the stamps. -/
def stampFields : List Field :=
  [(Field.timestamp Reconcile.createdField "Created").fixed,
   (Field.timestamp Reconcile.changedField "Changed").fixed,
   (Field.timestamp Reconcile.refreshedField "Refreshed").fixed]

/-- A resource type of a cloud. -/
def cloudResource (entityType label : String) (labelField : Field) (fields : List Field)
    (fieldsets : List Fieldset) (selectable : List String) : ResourceType where
  schema := Schema.addFields { name := entityType, label, labelField := labelField.name }
    (contextField :: labelField :: fields ++ ownerField :: stampFields)
  view := { entityType, fieldsets, selectable }

/-- The name of a resource. -/
def nameField : Field := .string "name" "Name"

/-- A field of keys and values. -/
def keyValues (name label : String) : Field := .composite name label ["item_key", "item_value"]

/-- The tags of a resource. -/
def tagsField : Field := keyValues "tags" "Tags"

/-- A fieldset for one field, named so that it differs from the field. -/
def singleField (field title : String) : Fieldset :=
  { name := "fieldset_" ++ field, title, fields := [field] }

/-- The fieldset of the tags. -/
def tagsFieldset : Fieldset := singleField "tags" "Tags"

/-- The closed fieldset of the context and the owner. -/
def othersFieldset : Fieldset :=
  Fieldset.collapsed
    { name := "others", title := "Others", fields := [Record.contextField, "uid"] }

end Builtin
end Inventory
