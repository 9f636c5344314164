/-
# Steps that may fail, one after another

What is known when a chain of steps succeeded: each step of it did
(`bind_eq_ok_iff`, `mapM_eq_ok_iff`), and an invariant that every successful step
keeps holds at the end (`foldlM_ok_induction`). The invariant speaks of the part
of the list that is done. Where what a step accepts does not depend on what was done
before, a chain succeeds on the lists that it accepts all of (`exists_foldlM_iff`), and
fails at the first element that it refuses (`foldlM_eq_error_iff`, `FirstRefused`). Of two
results, that they are alike (`SameResult`): the same error, or related answers.
-/

import Mathlib.Data.List.Forall2

namespace Inventory

variable {ε α β : Type}

/-- **A chain succeeds** when its first step does and the rest does with what it gave. -/
theorem bind_eq_ok_iff {x : Except ε α} {f : α → Except ε β} {b : β} :
    (x >>= f) = .ok b ↔ ∃ a, x = .ok a ∧ f a = .ok b := by
  cases x with
  | error e => simp [bind, Except.bind]
  | ok a => simp [bind, Except.bind]

/-- A chain fails with the error of its first step, or with that of the rest. -/
theorem bind_eq_error_iff {x : Except ε α} {f : α → Except ε β} {e : ε} :
    (x >>= f) = .error e ↔ x = .error e ∨ ∃ a, x = .ok a ∧ f a = .error e := by
  cases x with
  | error e' => simp [bind, Except.bind]
  | ok a => simp [bind, Except.bind]

/-- A result that is no error is some value. -/
theorem exists_of_isOk {x : Except ε α} (h : x.isOk = true) : ∃ a, x = .ok a := by
  cases x with
  | error e => cases h
  | ok a => exact ⟨a, rfl⟩

/-- A list is mapped successfully when every element of it is. -/
theorem mapM_eq_ok_iff {f : α → Except ε β} {l : List α} {l' : List β} :
    l.mapM f = .ok l' ↔ List.Forall₂ (fun a b => f a = .ok b) l l' := by
  induction l generalizing l' with
  | nil => simp [pure, Except.pure, eq_comm]
  | cons a rest ih =>
    rw [List.mapM_cons, bind_eq_ok_iff, List.forall₂_cons_left_iff]
    constructor
    · rintro ⟨b, hb, h⟩
      obtain ⟨bs, hbs, h⟩ := bind_eq_ok_iff.1 h
      exact ⟨b, bs, hb, ih.1 hbs, (Except.ok.inj h).symm⟩
    · rintro ⟨b, bs, hb, hbs, rfl⟩
      exact ⟨b, hb, bind_eq_ok_iff.2 ⟨bs, ih.2 hbs, rfl⟩⟩

/-- A step that succeeds on every element succeeds on the list. -/
theorem exists_mapM {f : α → Except ε β} {l : List α} (h : ∀ a ∈ l, ∃ b, f a = .ok b) :
    ∃ l', l.mapM f = .ok l' := by
  induction l with
  | nil => exact ⟨[], rfl⟩
  | cons a rest ih =>
    obtain ⟨b, hb⟩ := h a List.mem_cons_self
    obtain ⟨bs, hbs⟩ := ih fun a' ha' => h a' (List.mem_cons_of_mem _ ha')
    exact ⟨b :: bs, by rw [List.mapM_cons, hb, hbs]; rfl⟩

/-- Steps that refuse some elements, whatever was done before, fail at the first of these. -/
theorem foldlM_eq_error_iff {f : β → α → Except ε β} {refused : α → Bool} {fault : α → ε}
    {l : List α} (hok : ∀ b, ∀ a ∈ l, refused a = false → ∃ b', f b a = .ok b')
    (herror : ∀ b, ∀ a ∈ l, refused a = true → f b a = .error (fault a)) {b : β} {e : ε} :
    l.foldlM f b = .error e ↔ ∃ a, l.find? refused = some a ∧ e = fault a := by
  induction l generalizing b with
  | nil => simp [pure, Except.pure]
  | cons a rest ih =>
    have hrest {b : β} := ih (b := b) (fun b a' ha' => hok b a' (List.mem_cons_of_mem _ ha'))
      fun b a' ha' => herror b a' (List.mem_cons_of_mem _ ha')
    rw [List.foldlM_cons, bind_eq_error_iff]
    cases ha : refused a with
    | true =>
      rw [herror b a List.mem_cons_self ha, List.find?_cons_of_pos ha]
      simp [eq_comm]
    | false =>
      obtain ⟨b', hb'⟩ := hok b a List.mem_cons_self ha
      rw [hb', List.find?_cons_of_neg (by simp [ha]), ← hrest (b := b')]
      simp

/-- Steps that accept what satisfies a test, whatever was done before, succeed on a list when
all of it does. -/
theorem exists_foldlM_iff {f : β → α → Except ε β} {P : α → Prop}
    (h : ∀ b a, (∃ b', f b a = .ok b') ↔ P a) {l : List α} {b : β} :
    (∃ b', l.foldlM f b = .ok b') ↔ ∀ a ∈ l, P a := by
  induction l generalizing b with
  | nil => simp [pure, Except.pure]
  | cons a rest ih =>
    simp only [List.foldlM_cons, bind_eq_ok_iff, List.forall_mem_cons, ← h b a]
    constructor
    · rintro ⟨b', b₁, h₁, hb'⟩
      exact ⟨⟨b₁, h₁⟩, (ih (b := b₁)).1 ⟨b', hb'⟩⟩
    · rintro ⟨⟨b₁, h₁⟩, hrest⟩
      obtain ⟨b', hb'⟩ := (ih (b := b₁)).2 hrest
      exact ⟨b', b₁, h₁, hb'⟩

/-- **What every successful step keeps holds at the end.** -/
theorem foldlM_ok_induction {f : β → α → Except ε β} {b₀ : β} (P : List α → β → Prop)
    (start : P [] b₀)
    (step : ∀ done a b b', P done b → f b a = .ok b' → P (done ++ [a]) b')
    {l : List α} {b : β} (h : l.foldlM f b₀ = .ok b) : P l b := by
  suffices hs : ∀ (l done : List α) (b₀ : β), P done b₀ → l.foldlM f b₀ = .ok b → P (done ++ l) b by
    simpa using hs l [] b₀ start h
  intro l
  induction l with
  | nil =>
    intro done b₀ hb h
    obtain rfl := Except.ok.inj h
    simpa using hb
  | cons a rest ih =>
    intro done b₀ hb h
    rw [List.foldlM_cons] at h
    obtain ⟨b₁, h₁, h₂⟩ := bind_eq_ok_iff.1 h
    simpa using ih (done ++ [a]) b₁ (step done a b₀ b₁ hb h₁) h₂

/-! ### Lists related element by element -/

/-- Every element of the second list has a partner in the first one. -/
theorem exists_left_of_forall₂ {R : α → β → Prop} {l : List α} {l' : List β}
    (h : List.Forall₂ R l l') {b : β} (hb : b ∈ l') : ∃ a ∈ l, R a b := by
  induction h with
  | nil => cases hb
  | @cons a b' l l' hab _ ih =>
    rcases List.mem_cons.1 hb with rfl | hb
    · exact ⟨a, List.mem_cons_self, hab⟩
    · obtain ⟨a', ha', hr⟩ := ih hb
      exact ⟨a', List.mem_cons_of_mem _ ha', hr⟩

/-- Lists whose partners are picked alike are picked from alike. -/
theorem filterMap_eq_of_forall₂ {γ : Type} {f : α → Option γ} {g : β → Option γ} {l : List α}
    {l' : List β} (h : List.Forall₂ (fun a b => f a = g b) l l') :
    l.filterMap f = l'.filterMap g := by
  induction h with
  | nil => rfl
  | cons hab _ ih => rw [List.filterMap_cons, List.filterMap_cons, hab, ih]

/-- Where every element is picked, what is picked is the list of partners. -/
theorem filterMap_eq_map_of_forall₂ {γ : Type} {f : α → Option γ} {g : β → γ} {l : List α}
    {l' : List β} (h : List.Forall₂ (fun a b => f a = some (g b)) l l') :
    l.filterMap f = l'.map g := by
  rw [filterMap_eq_of_forall₂ h, ← List.filterMap_eq_map]
  rfl

/-- The first element that passes is related to one that comes first among those passing. -/
theorem exists_find?_of_forall₂ {R : α → β → Prop} {p : α → Bool} {q : β → Bool} {l : List α}
    {l' : List β} (h : List.Forall₂ R l l') (hpq : ∀ a b, R a b → p a = q b) {b : β}
    (hb : l'.find? q = some b) : ∃ a, l.find? p = some a ∧ R a b := by
  induction h with
  | nil => cases hb
  | @cons a b' l l' hab _ ih =>
    cases hpass : q b' with
    | true =>
      rw [List.find?_cons_of_pos hpass] at hb
      exact ⟨a, List.find?_cons_of_pos ((hpq a b' hab).trans hpass), Option.some.inj hb ▸ hab⟩
    | false =>
      rw [List.find?_cons_of_neg (by simp [hpass])] at hb
      obtain ⟨a', ha', hab'⟩ := ih hb
      exact ⟨a', by rwa [List.find?_cons_of_neg (by simp [hpq a b' hab, hpass])], hab'⟩

/-! ### The first element that is refused -/

/-- The first element of a list that is refused at all is refused with the error `e`. -/
def FirstRefused (refuses : α → ε → Prop) (l : List α) (e : ε) : Prop :=
  ∃ before a after, l = before ++ a :: after ∧ (∀ b ∈ before, ∀ e', ¬ refuses b e') ∧ refuses a e

section FirstRefused

variable {refuses refuses' : α → ε → Prop} {a : α} {l : List α} {e : ε}

/-- An empty list holds nothing that is refused. -/
theorem not_firstRefused_nil : ¬ FirstRefused refuses [] e := by
  rintro ⟨before, a, after, h, -⟩
  simp at h

/-- The first that is refused is the head, or the first of the rest when the head passes. -/
theorem firstRefused_cons : FirstRefused refuses (a :: l) e ↔
    refuses a e ∨ (∀ e', ¬ refuses a e') ∧ FirstRefused refuses l e := by
  constructor
  · rintro ⟨before, b, after, hl, hbefore, hb⟩
    cases before with
    | nil =>
      obtain ⟨rfl, -⟩ := List.cons.inj hl
      exact .inl hb
    | cons c before =>
      obtain ⟨rfl, rfl⟩ := List.cons.inj hl
      obtain ⟨ha, hbefore⟩ := List.forall_mem_cons.1 hbefore
      exact .inr ⟨ha, before, b, after, rfl, hbefore, hb⟩
  · rintro (ha | ⟨ha, before, b, after, rfl, hbefore, hb⟩)
    · exact ⟨[], a, l, rfl, fun b hb => absurd hb List.not_mem_nil, ha⟩
    · exact ⟨a :: before, b, after, rfl, List.forall_mem_cons.2 ⟨ha, hbefore⟩, hb⟩

/-- Some element is the first that is refused, when one is refused at all. -/
theorem exists_firstRefused_iff :
    (∃ e, FirstRefused refuses l e) ↔ ∃ a ∈ l, ∃ e, refuses a e := by
  induction l with
  | nil => simp [not_firstRefused_nil]
  | cons a rest ih =>
    simp only [firstRefused_cons, List.exists_mem_cons_iff, exists_or, exists_and_left, ih]
    by_cases ha : ∃ e, refuses a e
    · simp [ha]
    · simp [not_exists.1 ha]

/-- The first that is refused among those picked is the first whose pick is refused. -/
theorem firstRefused_filterMap {g : β → Option α} {l : List β} :
    FirstRefused refuses (l.filterMap g) e ↔
      FirstRefused (fun b e => ∃ a, g b = some a ∧ refuses a e) l e := by
  induction l with
  | nil => simp [not_firstRefused_nil]
  | cons b rest ih =>
    cases hb : g b with
    | none => simp [firstRefused_cons, hb, ih]
    | some a => simp [firstRefused_cons, hb, ih]

end FirstRefused

/-! ### Two results that are alike -/

/-- The same error, or related answers. -/
inductive SameResult {ε α β : Type} (R : α → β → Prop) : Except ε α → Except ε β → Prop where
  | error (e : ε) : SameResult R (.error e) (.error e)
  | ok {a : α} {b : β} (h : R a b) : SameResult R (.ok a) (.ok b)

namespace SameResult

variable {ε α β γ δ : Type} {R : α → β → Prop} {S : γ → δ → Prop}

/-- Alike results are one error, or two related answers. -/
theorem cases {x : Except ε α} {y : Except ε β} (h : SameResult R x y) :
    (∃ e, x = .error e ∧ y = .error e) ∨ ∃ a b, x = .ok a ∧ y = .ok b ∧ R a b := by
  cases h with
  | error e => exact .inl ⟨e, rfl, rfl⟩
  | ok h => exact .inr ⟨_, _, rfl, rfl, h⟩

/-- A relation that holds of values may take the place of the one that was known. -/
theorem mono {R' : α → β → Prop} {x : Except ε α} {y : Except ε β} (h : SameResult R x y)
    (hR : ∀ a b, R a b → R' a b) : SameResult R' x y := by
  cases h with
  | error e => exact .error e
  | ok h => exact .ok (hR _ _ h)

/-- Chains of steps with the same results have the same results. -/
theorem bind {x : Except ε α} {y : Except ε β} {f : α → Except ε γ} {g : β → Except ε δ}
    (h : SameResult R x y) (hfg : ∀ a b, R a b → SameResult S (f a) (g b)) :
    SameResult S (x >>= f) (y >>= g) := by
  cases h with
  | error e => exact .error e
  | ok h => exact hfg _ _ h

/-- Steps that take related states to the same result do so one after another. -/
theorem foldlM {σ : Type} {f : α → σ → Except ε α} {g : β → σ → Except ε β} {l : List σ}
    {a : α} {b : β} (hab : R a b)
    (hfg : ∀ a b, R a b → ∀ s ∈ l, SameResult R (f a s) (g b s)) :
    SameResult R (l.foldlM f a) (l.foldlM g b) := by
  induction l generalizing a b with
  | nil => exact .ok hab
  | cons s rest ih =>
    rw [List.foldlM_cons, List.foldlM_cons]
    refine (hfg a b hab s List.mem_cons_self).bind fun a' b' hab' => ?_
    exact ih hab' fun a b h s' hs' => hfg a b h s' (List.mem_cons_of_mem _ hs')

end SameResult
end Inventory
