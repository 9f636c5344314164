/-
# Pages of builds that check for overflow

`with_weight_start` and the count of weights in `compose`.

Containers are weighted from the start of a composer on, in 32 bits, and the next weight is
counted before it is known whether a fieldset is left for it. With `n` fieldsets:

| `start + n` | without checks | with checks |
| --- | --- | --- |
| up to 2147483646 | the weights count up | the same page |
| 2147483647 and 2147483648 | the weights count up | composing stops |
| beyond | they go on at the first weight | composing stops |

So the two builds compose the same page, or the one that checks stops
(`Composer.run_composeChecked_eq_ok_iff`), also where every weight that is needed fits.
-/

import Inventory.Page.Compose
import Inventory.Proofs.Except

namespace Inventory
namespace Composer

variable {c : Composer (Except ViewError)} {r : Record} {view : View} {context : RenderContext}
  {weight : Int32} {done page : Tree}

/-- The weight so many places behind another one, while 32 bits hold it. -/
theorem toInt_add_ofNat {n : Nat} (h : weight.toInt + n < 2147483648) :
    (weight + .ofNat n).toInt = weight.toInt + n := by
  have hlow := Int32.le_toInt weight
  have hsize : (Int32.size : Int) = 4294967296 := rfl
  rw [Int32.toInt_add, ← Int32.ofInt_eq_ofNat, Int32.toInt_ofInt, Int.add_bmod_bmod]
  exact Int.bmod_eq_of_le (by omega) (by omega)

/-- The last weight is the last number of 32 bits. -/
theorem eq_maxValue_iff : weight = Int32.maxValue ↔ weight.toInt = 2147483647 := by
  rw [← Int32.toInt_inj]
  rfl

/-- The next weight is one more, except behind the last one. -/
theorem toInt_add_one (h : weight ≠ Int32.maxValue) : (weight + 1).toInt = weight.toInt + 1 := by
  have hlast : weight.toInt ≠ 2147483647 := fun hw => h (eq_maxValue_iff.2 hw)
  have hhigh := Int32.toInt_lt weight
  exact toInt_add_ofNat (n := 1) (by omega)

/-! ### Containers -/

/-- **Step:** where there is a next weight, a container is made in both builds. -/
theorem run_sections_checked_cons (h : weight ≠ Int32.maxValue) (f : Fieldset)
    (rest : List Fieldset) :
    (c.checked.sections nextWeightChecked r context weight done (f :: rest)).run = (do
      let body ← c.render (r.withOnly f.fields) context
      (c.checked.sections nextWeightChecked r context (weight + 1)
        (Tree.setElement done f.name (container f weight body)) rest).run) := by
  rw [sections, nextWeightChecked, if_neg h, pure_bind]
  simp only [checked, ExceptT.run_bind, ExceptT.run_lift]
  cases c.render (r.withOnly f.fields) context <;> rfl

/-- Where there is no next weight, the build that checks stops at once. -/
theorem run_sections_checked_maxValue (fieldsets : List Fieldset) :
    (c.checked.sections nextWeightChecked r context Int32.maxValue done fieldsets).run
      = .ok (.error .overflow) := by
  cases fieldsets with
  | nil => rfl
  | cons f rest => rfl

/-- **Run:** while the count fits, both builds make the same containers. -/
theorem run_sections_checked_of_lt {fieldsets : List Fieldset}
    (h : weight.toInt + fieldsets.length < 2147483647) :
    (c.checked.sections nextWeightChecked r context weight done fieldsets).run
      = (c.sections nextWeight r context weight done fieldsets).map .ok := by
  have hnext : weight ≠ Int32.maxValue := fun hw => by
    have hlast := eq_maxValue_iff.1 hw
    omega
  induction fieldsets generalizing weight done with
  | nil =>
    rw [sections, nextWeightChecked, if_neg hnext]
    rfl
  | cons f rest ih =>
    rw [run_sections_checked_cons hnext, sections_cons]
    cases c.render (r.withOnly f.fields) context with
    | error e => rfl
    | ok body =>
      have hweight := toInt_add_one hnext
      rw [List.length_cons] at h
      refine ih (by omega) fun hw => ?_
      have hlast := eq_maxValue_iff.1 hw
      omega

/-- **Run:** where the count does not fit, the build that checks stops, unless both fail before. -/
theorem run_sections_checked_of_le {fieldsets : List Fieldset}
    (h : 2147483647 ≤ weight.toInt + fieldsets.length) :
    (c.checked.sections nextWeightChecked r context weight done fieldsets).run
        = .ok (.error .overflow)
      ∨ ∃ e, c.sections nextWeight r context weight done fieldsets = .error e
        ∧ (c.checked.sections nextWeightChecked r context weight done fieldsets).run = .error e := by
  induction fieldsets generalizing weight done with
  | nil =>
    have hhigh := Int32.toInt_lt weight
    obtain rfl : weight = Int32.maxValue := by
      rw [List.length_nil] at h
      exact eq_maxValue_iff.2 (by omega)
    exact .inl (run_sections_checked_maxValue [])
  | cons f rest ih =>
    by_cases hnext : weight = Int32.maxValue
    · subst hnext
      exact .inl (run_sections_checked_maxValue (f :: rest))
    · rw [run_sections_checked_cons hnext, sections_cons]
      cases c.render (r.withOnly f.fields) context with
      | error e => exact .inr ⟨e, rfl, rfl⟩
      | ok body =>
        have hweight := toInt_add_one hnext
        rw [List.length_cons] at h
        exact ih (by omega)

/-! ### Pages -/

/-- Without values that can be shown there is no page. -/
theorem compose_of_resolveValues_eq_error {e : RecordError}
    (h : resolveValues c.resolvers r = .error e) :
    c.compose r view context = .error (.record e) := by
  unfold compose composeCounting
  rw [h]
  rfl

/-- Nor is there one in the build that checks. -/
theorem run_composeChecked_of_resolveValues_eq_error {e : RecordError}
    (h : resolveValues c.resolvers r = .error e) :
    (c.composeChecked r view context).run = .error (.record e) := by
  have hresolve : resolveValues c.checked.resolvers r = .error e := h
  unfold composeChecked composeCounting
  rw [hresolve]
  rfl

/-- What is left to do once the containers are made: the whole record is rendered, and the page
laid out and rewritten. -/
def finished (c : Composer (Except ViewError)) (r : Record) (view : View) (context : RenderContext)
    (containers : Tree) : Except ViewError Tree :=
  (c.render r context).map fun whole =>
    c.transforms.foldl (fun t f => f t) ((whole.merge containers).filter fun key _ => keeps view r key)

/-- Composing makes the containers, and then the page around them. -/
theorem compose_eq_bind {r' : Record} (h : resolveValues c.resolvers r = .ok r') :
    c.compose r view context
      = (c.sections nextWeight r' context c.weightStart .empty view.fieldsets).bind
        (c.finished r' view context) := by
  unfold compose composeCounting
  simp only [h, pure_bind]
  refine bind_congr fun containers => ?_
  rw [finished]
  cases c.render r' context <;> rfl

/-- The build that checks may stop in between. -/
theorem run_composeChecked_eq_bind {r' : Record} (h : resolveValues c.resolvers r = .ok r') :
    (c.composeChecked r view context).run
      = (c.checked.sections nextWeightChecked r' context c.weightStart .empty
          view.fieldsets).run.bind fun
        | .ok containers => (c.finished r' view context containers).map .ok
        | .error stop => .ok (.error stop) := by
  have hresolve : resolveValues c.checked.resolvers r = .ok r' := h
  unfold composeChecked composeCounting
  simp only [hresolve, pure_bind, ExceptT.run_bind]
  refine bind_congr fun made => ?_
  cases made with
  | error stop => rfl
  | ok containers =>
    simp only [finished, checked, ExceptT.run_lift]
    cases c.render r' context <;> rfl

/-- **While the count fits**, both builds compose the same page, or fail in the same way. -/
theorem run_composeChecked_of_lt (h : c.weightStart.toInt + view.fieldsets.length < 2147483647)
    (r : Record) (context : RenderContext) :
    (c.composeChecked r view context).run = (c.compose r view context).map .ok := by
  cases hresolve : resolveValues c.resolvers r with
  | error e =>
    rw [compose_of_resolveValues_eq_error hresolve,
      run_composeChecked_of_resolveValues_eq_error hresolve]
    rfl
  | ok r' =>
    rw [run_composeChecked_eq_bind hresolve, compose_eq_bind hresolve, run_sections_checked_of_lt h]
    cases c.sections nextWeight r' context c.weightStart .empty view.fieldsets <;> rfl

/-- **Where the count does not fit**, the build that checks stops, unless both fail before. -/
theorem run_composeChecked_of_le
    (h : 2147483647 ≤ c.weightStart.toInt + view.fieldsets.length) (r : Record)
    (context : RenderContext) :
    (c.composeChecked r view context).run = .ok (.error .overflow)
      ∨ ∃ e, c.compose r view context = .error e
        ∧ (c.composeChecked r view context).run = .error e := by
  cases hresolve : resolveValues c.resolvers r with
  | error e =>
    exact .inr ⟨_, compose_of_resolveValues_eq_error hresolve,
      run_composeChecked_of_resolveValues_eq_error hresolve⟩
  | ok r' =>
    rw [run_composeChecked_eq_bind hresolve, compose_eq_bind hresolve]
    rcases run_sections_checked_of_le h with hstop | ⟨e, hmade, hchecked⟩
    · rw [hstop]
      exact .inl rfl
    · rw [hchecked, hmade]
      exact .inr ⟨e, rfl, rfl⟩

/-- **A build that checks composes** the pages that the other one composes, while the count
fits, and no others. -/
theorem run_composeChecked_eq_ok_iff :
    (c.composeChecked r view context).run = .ok (.ok page) ↔
      c.compose r view context = .ok page
        ∧ c.weightStart.toInt + view.fieldsets.length < 2147483647 := by
  by_cases hfits : c.weightStart.toInt + view.fieldsets.length < 2147483647
  · rw [run_composeChecked_of_lt hfits, and_iff_left hfits]
    cases c.compose r view context <;> simp [Except.map]
  · refine iff_of_false (fun hpage => ?_) fun h => hfits h.2
    rcases run_composeChecked_of_le (Int.not_lt.1 hfits) r context with hstop | ⟨e, -, herror⟩
    · cases hstop.symm.trans hpage
    · cases herror.symm.trans hpage

/-- It stops in place of composing a page where the count does not fit. -/
theorem run_composeChecked_eq_stop
    (h : 2147483647 ≤ c.weightStart.toInt + view.fieldsets.length)
    (hpage : c.compose r view context = .ok page) :
    (c.composeChecked r view context).run = .ok (.error .overflow) := by
  rcases run_composeChecked_of_le h r context with hstop | ⟨e, herror, -⟩
  · exact hstop
  · cases herror.symm.trans hpage

end Composer
end Inventory
