/-
# Lookups outside the catalog

`RoleDirectory` with `StaticRoleDirectory`, `IamRoleResolver`, `LinkBuilder` and
`rules_fallback`.

Names of roles and links to other pages come from elsewhere, and may not be had.
A page is shown in either case:

| what is looked up | otherwise |
| --- | --- |
| the name of an instance's role, in its cloud context | the role as stored |
| the link to the rule editor of a security group without rules | the message without link |
-/

import Inventory.Builtin.Network
import Inventory.Page.Compose

namespace Inventory

/-- Why a lookup failed. -/
structure LookupError where
  message : String
  deriving DecidableEq, Repr

/-- The name of a role in a cloud context, if there is such a role. -/
abbrev RoleDirectory := String → String → Except LookupError (Option String)

/-- The address of the rule editor for an entity type and an identifier. -/
abbrev LinkBuilder := String → String → Except LookupError String

/-- A fixed table of roles. Of several entries for one role the last counts. -/
def RoleDirectory.ofList (roles : List ((String × String) × String)) : RoleDirectory :=
  fun context role => .ok ((OrderedMap.ofList roles).get? (context, role))

/-- The field that holds the role of an instance. -/
def roleField : String := "iam_role"

/-- Shows the name of a role, on records of a cloud context whose role is a text. -/
def roleResolver (directory : RoleDirectory) : Resolver where
  field := roleField
  resolve r value :=
    match r.cloudContext?, value.text? with
    | some context, some role =>
      match directory context role with
      | .ok (some name) => some (.string name)
      | .ok none | .error _ => none
    | _, _ => none

namespace RulesMessage

/-- What is said when a security group has no rules. -/
def text : String := "No permissions configured."

/-- Where the message stands among the rules. -/
def key : String := "permissions_message"

/-- The message without a link. -/
def plain : Tree := .ofProperties [("#type", .str "markup"), ("#markup", .str text)]

/-- The message with a link. -/
def linked (url : String) : Tree :=
  .ofProperties [("#type", .str "link"), ("#title", .str text), ("#url", .str url)]

/-- The message for the page of an entity. -/
def message (links : Option LinkBuilder) (entityType entityId : String) : Tree :=
  match links with
  | none => plain
  | some link =>
    match link entityType entityId with
    | .ok url => linked url
    | .error _ => plain

/-- Put the message among the rules of a page that shows none. -/
def fill (links : Option LinkBuilder) : Transform := fun page =>
  match Tree.element? page Builtin.rulesFieldset with
  | none => page
  | some rules =>
    if Builtin.permissionFields.any rules.contains then page
    else
      let property (key : String) : String := (Tree.text? page key).getD ""
      Tree.setElement page Builtin.rulesFieldset
        (Tree.setElement rules key
          (message links (property "#entity_type") (property "#entity_id")))

end RulesMessage
end Inventory
