import OData.Part
import OData.Proofs.Outcome

/-!
# Options one after the other

Reading and checking take the options in the order of `Part.all` and stop at
the first fault.
-/

namespace OData.Part

/-- The first option of which something holds, in the order in which options
are read and checked. -/
def IsFirst (holds : Part → Prop) (part : Part) : Prop :=
  ∃ before after, all = before ++ part :: after ∧ holds part ∧
    ∀ earlier ∈ before, ¬ holds earlier

theorem IsFirst.holds {holds : Part → Prop} {part : Part} (first : part.IsFirst holds) :
    holds part := by
  rcases first with ⟨_, _, _, ofPart, _⟩
  exact ofPart

theorem IsFirst.congr {holds other : Part → Prop} (same : ∀ part, holds part ↔ other part)
    {part : Part} : part.IsFirst holds ↔ part.IsFirst other := by
  rw [funext fun part => propext (same part)]

variable {ε : Type} {step : Part → Except ε Unit}

theorem eq_ok_iff_not_exists_error {part : Part} :
    step part = .ok () ↔ ¬ ∃ error, step part = .error error := by
  cases step part with
  | error error => simp
  | ok value => simp

/-- The options before the first that fails succeed. -/
theorem IsFirst.exists_before {part : Part}
    (first : part.IsFirst fun part => ∃ error, step part = .error error) :
    ∃ before after, all = before ++ part :: after ∧ ∀ earlier ∈ before, step earlier = .ok () := by
  rcases first with ⟨before, after, order, _, succeed⟩
  exact ⟨before, after, order,
    fun earlier member => eq_ok_iff_not_exists_error.mpr (succeed earlier member)⟩

/-- Steps for all options succeed exactly when every one does. -/
theorem forM_all_eq_ok_iff : all.forM step = .ok () ↔ ∀ part, step part = .ok () := by
  rw [Except.forM_eq_ok_iff]
  exact ⟨fun succeed part => succeed part part.mem_all, fun succeed part _ => succeed part⟩

/-- Steps for all options fail with the error of the first that fails. -/
theorem forM_all_eq_error_iff {error : ε} :
    all.forM step = .error error ↔
      ∃ part, part.IsFirst (fun part => ∃ error, step part = .error error) ∧
        step part = .error error := by
  rw [Except.forM_eq_error_iff]
  constructor
  · rintro ⟨before, part, after, order, failed, succeed⟩
    exact ⟨part, ⟨before, after, order, ⟨error, failed⟩,
      fun earlier member => eq_ok_iff_not_exists_error.mp (succeed earlier member)⟩, failed⟩
  · rintro ⟨part, ⟨before, after, order, _, succeed⟩, failed⟩
    exact ⟨before, part, after, order, failed,
      fun earlier member => eq_ok_iff_not_exists_error.mpr (succeed earlier member)⟩

end OData.Part
