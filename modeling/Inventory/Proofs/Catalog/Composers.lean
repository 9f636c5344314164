/-
# The composers of a catalog

`composer` of `CloudCatalog`, with `IamRoleResolver` and `rules_fallback`.

What a catalog adds to the plain composing of pages does not tell alike records
apart either: the role resolver reads the cloud context and the text of the role,
and the message about missing rules looks up elements and texts of the page.
-/

import Inventory.Catalog.Basic
import Inventory.Proofs.Page.Congruence

namespace Inventory

/-- The name of a role depends on texts only, which equal records have in common. -/
theorem roleResolver_respects (directory : RoleDirectory) : (roleResolver directory).Respects := by
  intro r r' v w h hvw
  have hresolve : (roleResolver directory).resolve r v = (roleResolver directory).resolve r' w := by
    simp only [roleResolver, h.cloudContext?_eq, hvw.text?_eq]
  unfold Resolver.shown
  rw [hresolve]
  cases hname : (roleResolver directory).resolve r' w with
  | none => exact hvw
  | some shown =>
    -- what is found is the name of a role
    obtain ⟨name, rfl⟩ : ∃ name, shown = .string name := by
      simp only [roleResolver] at hname
      split at hname
      · split at hname
        · exact ⟨_, (Option.some.inj hname).symm⟩
        · cases hname
        · cases hname
      · cases hname
    exact .string name

namespace RulesMessage

/-- A message is like itself. -/
theorem message_alike (links : Option LinkBuilder) (entityType entityId : String) :
    Tree.Alike (message links entityType entityId) (message links entityType entityId) := by
  have hplain : Tree.Alike plain plain := Tree.alike_ofProperties (by simp)
  have hlinked (url : String) : Tree.Alike (linked url) (linked url) :=
    Tree.alike_ofProperties (by simp)
  unfold message
  split
  · exact hplain
  · split
    · exact hlinked _
    · exact hplain

/-- Alike pages are filled alike. -/
theorem fill_respects (links : Option LinkBuilder) : Transform.Respects (fill links) := by
  intro t t' h
  unfold fill
  rcases OrderedMap.rel_cases (h.element? Builtin.rulesFieldset) with
    ⟨hr, hr'⟩ | ⟨rules, rules', hr, hr', hrules⟩
  · rw [hr, hr']
    exact h
  · have hcontains : rules.contains = rules'.contains := funext hrules.contains_eq
    simp only [hr, hr', hcontains, h.text?]
    split
    · exact h
    · exact h.setElement _ (hrules.setElement _ (message_alike links _ _))

end RulesMessage

namespace Catalog

/-- **The composers of a catalog** do not tell alike records apart. -/
theorem composer_respects (c : Catalog) (entityType : String) :
    (c.composer entityType).Respects where
  render := fun r r' context h => FieldList.renderer_alike h context
  resolvers := by
    intro s hs
    simp only [composer] at hs
    split at hs
    · obtain ⟨directory, -, rfl⟩ :
          ∃ directory, c.roles = some directory ∧ roleResolver directory = s := by
        simpa using hs
      exact roleResolver_respects directory
    · cases hs
  transforms := by
    intro f hf
    simp only [composer] at hf
    split at hf
    · rw [List.mem_singleton.1 hf]
      exact RulesMessage.fill_respects c.links
    · cases hf

end Catalog
end Inventory
