/-
# Running steps on a disk

Two steps run one after the other: the second where the first one ends, if the first
one succeeds (`DiskM.run_bind_of_ok`, `DiskM.run_bind_of_error`).
-/

import Inventory.Files.Disk

namespace Inventory
namespace DiskM

variable {ε ε' α β : Type} {x : DiskM ε α} {f : α → DiskM ε β} {disk disk' : Disk}

/-- After a step that succeeds the next one runs on the disk it leaves. -/
theorem run_bind_of_ok {a : α} (h : x.run.run disk = (.ok a, disk')) :
    (x >>= f).run.run disk = (f a).run.run disk' := by
  rw [ExceptT.run_bind, StateT.run_bind, h]
  rfl

/-- After a step that fails nothing else runs, and what it did is done. -/
theorem run_bind_of_error {e : ε} (h : x.run.run disk = (.error e, disk')) :
    (x >>= f).run.run disk = (.error e, disk') := by
  rw [ExceptT.run_bind, StateT.run_bind, h]
  rfl

/-- Two steps on a disk succeed when the second does where the first one ends. -/
theorem run_bind_eq_ok_iff {b : β} :
    (x >>= f).run.run disk = (.ok b, disk') ↔
      ∃ a disk₁, x.run.run disk = (.ok a, disk₁) ∧ (f a).run.run disk₁ = (.ok b, disk') := by
  rcases hx : x.run.run disk with ⟨e | a, disk₁⟩
  · rw [run_bind_of_error hx]
    refine iff_of_false (fun h => ?_) fun h => ?_
    · cases (Prod.mk.inj h).1
    · obtain ⟨a, disk₂, h, -⟩ := h
      cases (Prod.mk.inj h).1
  · rw [run_bind_of_ok hx]
    constructor
    · exact fun h => ⟨a, disk₁, rfl, h⟩
    · rintro ⟨a', disk₂, h, hf⟩
      obtain ⟨ha, rfl⟩ := Prod.mk.inj h
      obtain rfl := Except.ok.inj ha
      exact hf

/-- A step that only fails does not succeed. -/
theorem run_throw_ne_ok {e : ε} {a : α} :
    (throw e : DiskM ε α).run.run disk ≠ (.ok a, disk') := by
  rintro ⟨⟩

/-- A step that does nothing succeeds on the disk as it is. -/
theorem run_pure_eq_ok_iff {a b : α} :
    (pure a : DiskM ε α).run.run disk = (.ok b, disk') ↔ a = b ∧ disk = disk' := by
  change ((Except.ok a, disk) : Except ε α × Disk) = _ ↔ _
  rw [Prod.mk.injEq, Except.ok.injEq]

/-- Errors that are reported in another way do not change what a step does. -/
theorem run_adapt (report : ε → ε') (x : DiskM ε α) (disk : Disk) :
    (ExceptT.adapt report x).run.run disk
      = ((x.run.run disk).1.mapError report, (x.run.run disk).2) := rfl

/-- How errors are reported does not matter for success. -/
theorem run_adapt_eq_ok_iff {report : ε → ε'} {a : α} :
    (ExceptT.adapt report x).run.run disk = (.ok a, disk') ↔ x.run.run disk = (.ok a, disk') := by
  rw [run_adapt]
  rcases x.run.run disk with ⟨e | a', disk₁⟩
  · exact iff_of_false (fun h => by cases (Prod.mk.inj h).1) fun h => by cases (Prod.mk.inj h).1
  · change ((Except.ok a', disk₁) : Except ε' α × Disk) = _
      ↔ ((Except.ok a', disk₁) : Except ε α × Disk) = _
    simp only [Prod.mk.injEq, Except.ok.injEq]

/-- A change leads to the disk that its operation makes, or leaves it alone. -/
theorem run_change (operation : Disk → Except FileError Disk) (disk : Disk) :
    (Disk.change operation).run.run disk = match operation disk with
      | .ok disk' => (.ok (), disk')
      | .error e => (.error e, disk) := by
  change (match operation disk with
    | .ok disk' => (set disk' : DiskM FileError Unit)
    | .error e => throw e).run.run disk = _
  cases operation disk <;> rfl

/-- A change succeeds exactly when its operation does. -/
theorem run_change_eq_ok_iff {operation : Disk → Except FileError Disk} {u : Unit} :
    (Disk.change operation).run.run disk = (.ok u, disk') ↔ operation disk = .ok disk' := by
  rw [run_change]
  cases operation disk with
  | ok disk₁ =>
    exact ⟨fun h => congrArg Except.ok (Prod.mk.inj h).2,
      fun h => congrArg (Prod.mk (Except.ok u)) (Except.ok.inj h)⟩
  | error e => exact iff_of_false (fun h => by cases (Prod.mk.inj h).1) fun h => by cases h

/-- A question that is answered leaves the disk alone. -/
theorem run_ask {question : Disk → Except FileError α} {a : α} (h : question disk = .ok a) :
    (Disk.ask question).run.run disk = (.ok a, disk) := by
  have hget : (get : DiskM FileError Disk).run.run disk = (.ok disk, disk) := rfl
  rw [Disk.ask, run_bind_of_ok hget, h]
  rfl

theorem run_ask_of_error {question : Disk → Except FileError α} {e : FileError}
    (h : question disk = .error e) : (Disk.ask question).run.run disk = (.error e, disk) := by
  have hget : (get : DiskM FileError Disk).run.run disk = (.ok disk, disk) := rfl
  rw [Disk.ask, run_bind_of_ok hget, h]
  rfl

end DiskM
end Inventory
