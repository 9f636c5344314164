/-
# Changes that may fail

The shape of every call that answers with a result and works on a state in place: `set` of a
record, `insert` of a registry, `update`, `delete` and `reconcile` on a store, and what `DiskM`
does with files.

A change reads and writes a state, and may fail with an error. What it wrote before it
failed stays written. So the type does not say that a failure changes nothing; where that
holds it is proved (`Attempt.Atomic`).
-/

namespace Inventory

/-- A change of a state that may fail with an error. -/
abbrev Attempt (σ ε : Type) := ExceptT ε (StateM σ)

namespace Attempt

variable {σ ε α : Type}

/-- What a change gives and the state after it, when it succeeds. -/
def outcome (x : Attempt σ ε α) (s : σ) : Except ε (α × σ) :=
  match x.run.run s with
  | (.ok a, s') => .ok (a, s')
  | (.error e, _) => .error e

/-- The state after a change that succeeds. -/
def next (x : Attempt σ ε α) (s : σ) : Except ε σ := (x.outcome s).map Prod.snd

/-- The state after a change, whether it succeeds or fails. -/
def after (x : Attempt σ ε α) (s : σ) : σ := (x.run.run s).2

/-- Make a state beside the one that is there, and take it once it is made. -/
def replacing (make : σ → Except ε σ) : Attempt σ ε Unit := do
  match make (← get) with
  | .ok s => set s
  | .error e => throw e

/-- A change that leaves the state alone when it fails. -/
def Atomic (x : Attempt σ ε α) : Prop := ∀ s s' e, x.run.run s = (.error e, s') → s' = s

/-- A change that cannot fail keeps the promise. -/
theorem atomic_modify (f : σ → σ) : (modify f : Attempt σ ε Unit).Atomic := nofun

/-- Replacing, run on a state. -/
theorem run_replacing (make : σ → Except ε σ) (s : σ) :
    (replacing make).run.run s = match make s with
      | .ok s' => (.ok (), s')
      | .error e => (.error e, s) := by
  rw [replacing, ExceptT.run_bind, StateT.run_bind]
  change (match make s with
    | .ok s' => _
    | .error e => _ : Attempt σ ε Unit).run.run s = _
  cases make s <;> rfl

/-- A replacement that succeeds leads to the state that is made. -/
@[simp]
theorem next_replacing (make : σ → Except ε σ) (s : σ) : (replacing make).next s = make s := by
  rw [next, outcome, run_replacing]
  cases make s <;> rfl

/-- A state that is not made does not take the place of the one that is there. -/
theorem atomic_replacing (make : σ → Except ε σ) : (replacing make).Atomic := by
  intro s s' e h
  rw [run_replacing] at h
  split at h
  · cases h
  · exact (Prod.mk.inj h).2.symm

/-- Another answer does not change what a change does when it fails. -/
theorem Atomic.map {β : Type} {x : Attempt σ ε α} (h : x.Atomic) (f : α → β) :
    (f <$> x : Attempt σ ε β).Atomic := by
  intro s s' e hrun
  rw [ExceptT.run_map, StateT.run_map] at hrun
  cases hx : x.run.run s with
  | mk a s₁ =>
    rw [hx] at hrun
    cases a with
    | ok a => cases hrun
    | error e₁ =>
      obtain ⟨-, rfl⟩ := Prod.mk.inj hrun
      exact h s _ e₁ hx

/-- **The state after a change that leaves it alone when it fails** is the one it leads to, or
the one before. -/
theorem Atomic.after_eq {x : Attempt σ ε α} (h : x.Atomic) (s : σ) :
    x.after s = match x.next s with
      | .ok s' => s'
      | .error _ => s := by
  unfold after next outcome
  cases hrun : x.run.run s with
  | mk a s' =>
    cases a with
    | ok a => rfl
    | error e => exact h s s' e hrun

/-- A change that fails leaves the state alone. -/
theorem Atomic.after_of_error {x : Attempt σ ε α} (h : x.Atomic) {s : σ} {e : ε}
    (herror : x.next s = .error e) : x.after s = s := by
  rw [h.after_eq, herror]

end Attempt
end Inventory
