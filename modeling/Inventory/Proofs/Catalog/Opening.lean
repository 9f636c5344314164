/-
# Opening a catalog

`open` of `CloudCatalog`.

A catalog opens when its settings are valid, its definitions are found and their
views pass the check (`openWith_eq_ok_iff`). Whether pages are kept is asked only
later, so a catalog opens without cache exactly as it does with one.
-/

import Inventory.Proofs.Catalog.Actions
import Inventory.Proofs.Files.Run

namespace Inventory
namespace Catalog

open DiskM

/-- What has to succeed for a catalog to open. -/
theorem openWith_eq_ok_iff {settings : Settings} {disk disk' : Disk} {c : Catalog} :
    (openWith settings).run.run disk = (.ok c, disk') ↔
      settings.validate = .ok () ∧ ∃ schemas views,
        (definitions settings.registryRoot).run.run disk = (.ok (schemas, views), disk')
          ∧ ViewFolder.checkAll views schemas settings.validation = .ok ()
          ∧ c = { settings, schemas, views } := by
  unfold openWith
  cases settings.validate with
  | error e =>
    refine iff_of_false run_throw_ne_ok fun h => ?_
    cases h.1
  | ok _ =>
    rw [run_bind_eq_ok_iff]
    constructor
    · rintro ⟨⟨schemas, views⟩, disk₁, hfound, h⟩
      dsimp only at h
      cases hcheck : ViewFolder.checkAll views schemas settings.validation with
      | error e =>
        rw [hcheck] at h
        exact absurd h run_throw_ne_ok
      | ok _ =>
        rw [hcheck] at h
        obtain ⟨rfl, rfl⟩ := run_pure_eq_ok_iff.1 h
        exact ⟨rfl, schemas, views, hfound, hcheck, rfl⟩
    · rintro ⟨-, schemas, views, hfound, hcheck, rfl⟩
      refine ⟨(schemas, views), disk', hfound, ?_⟩
      dsimp only
      rw [hcheck]
      exact run_pure_eq_ok_iff.2 ⟨rfl, rfl⟩

/-- A catalog that opens with a cache opens without one, and is the same but for it. -/
theorem openWith_uncached {settings : Settings} {disk disk' : Disk} {c : Catalog}
    (h : (openWith { settings with renderCache := true }).run.run disk = (.ok c, disk')) :
    c.cache = .empty
      ∧ (openWith { settings with renderCache := false }).run.run disk
        = (.ok c.uncached, disk') := by
  obtain ⟨hvalidate, schemas, views, hfound, hcheck, rfl⟩ := openWith_eq_ok_iff.1 h
  exact ⟨rfl, openWith_eq_ok_iff.2 ⟨hvalidate, schemas, views, hfound, hcheck, rfl⟩⟩

end Catalog
end Inventory
