import Mathlib.Data.List.Forall2

/-!
# Outcomes of partial computations

Readers and checks run in `Except`.  A sequence of steps gives a value exactly
when every step does, and fails with the error of the first step that fails.
That takes an outcome of the whole apart into outcomes of its steps.
-/

namespace Except

universe u v w

variable {ε : Type u} {δ : Type w} {α β : Type v}

/-- A sequence gives a value exactly when its first step does and the rest
goes on from it. -/
theorem bind_eq_ok_iff {first : Except ε α} {more : α → Except ε β} {result : β} :
    first >>= more = .ok result ↔ ∃ value, first = .ok value ∧ more value = .ok result := by
  cases first with
  | error error => simp [Bind.bind, Except.bind]
  | ok value => simp [Bind.bind, Except.bind]

/-- A sequence fails with the error of its first step, or of the rest. -/
theorem bind_eq_error_iff {first : Except ε α} {more : α → Except ε β} {error : ε} :
    first >>= more = .error error ↔
      first = .error error ∨ ∃ value, first = .ok value ∧ more value = .error error := by
  cases first with
  | error error => simp [Bind.bind, Except.bind]
  | ok value => simp [Bind.bind, Except.bind]

/-- Mapping the value neither hides nor makes a failure. -/
theorem map_eq_ok_iff {f : α → β} {outcome : Except ε α} {result : β} :
    outcome.map f = .ok result ↔ ∃ value, outcome = .ok value ∧ f value = result := by
  cases outcome with
  | error error => simp [Except.map]
  | ok value => simp [Except.map]

theorem map_eq_error_iff {f : α → β} {outcome : Except ε α} {error : ε} :
    outcome.map f = .error error ↔ outcome = .error error := by
  cases outcome with
  | error error => simp [Except.map]
  | ok value => simp [Except.map]

/-- Renaming errors keeps values. -/
theorem mapError_eq_ok_iff {f : ε → δ} {outcome : Except ε α} {result : α} :
    outcome.mapError f = .ok result ↔ outcome = .ok result := by
  cases outcome with
  | error error =>
      constructor
      · intro impossible
        cases impossible
      · intro impossible
        cases impossible
  | ok value =>
      constructor
      · intro same
        cases same
        rfl
      · intro same
        cases same
        rfl

theorem mapError_eq_error_iff {f : ε → δ} {outcome : Except ε α} {result : δ} :
    outcome.mapError f = .error result ↔ ∃ error, outcome = .error error ∧ f error = result := by
  cases outcome with
  | error error =>
      constructor
      · intro same
        cases same
        exact ⟨error, rfl, rfl⟩
      · rintro ⟨_, same, rfl⟩
        cases same
        rfl
  | ok value =>
      constructor
      · intro impossible
        cases impossible
      · rintro ⟨_, impossible, _⟩
        cases impossible

/-- Renaming errors goes through a sequence step by step. -/
theorem mapError_bind {f : ε → δ} {first : Except ε α} {more : α → Except ε β} :
    (first >>= more).mapError f = first.mapError f >>= fun value => (more value).mapError f := by
  cases first with
  | error error => rfl
  | ok value => rfl

theorem mapError_map {f : ε → δ} {g : α → β} {outcome : Except ε α} :
    (outcome.map g).mapError f = (outcome.mapError f).map g := by
  cases outcome with
  | error error => rfl
  | ok value => rfl

theorem mapError_mapError {ζ : Type u} {f : ε → δ} {g : ζ → ε} {outcome : Except ζ α} :
    (outcome.mapError g).mapError f = outcome.mapError (f ∘ g) := by
  cases outcome with
  | error error => rfl
  | ok value => rfl

/-! ## Lists of steps -/

/-- Renaming the errors of steps for all items renames those of each step. -/
theorem mapError_forM {f : ε → δ} {step : α → Except ε PUnit} {items : List α} :
    (items.forM step).mapError f = items.forM fun item => (step item).mapError f := by
  rw [List.forM_eq_forM, List.forM_eq_forM]
  induction items with
  | nil => rfl
  | cons item items ih =>
      rw [List.forM_cons, List.forM_cons, mapError_bind]
      congr 1
      funext
      exact ih

/-- Renaming the errors of the results for all items renames those of each. -/
theorem mapError_mapM {f : ε → δ} {step : α → Except ε β} {items : List α} :
    (items.mapM step).mapError f = items.mapM fun item => (step item).mapError f := by
  induction items with
  | nil => rfl
  | cons item items ih =>
      simp only [List.mapM_cons, mapError_bind, ih]
      rfl

/-- Steps that agree on all items agree together. -/
theorem forM_congr {step other : α → Except ε PUnit} {items : List α}
    (same : ∀ item ∈ items, step item = other item) : items.forM step = items.forM other := by
  rw [List.forM_eq_forM]
  induction items with
  | nil => rfl
  | cons item items ih =>
      rcases List.forall_mem_cons.mp same with ⟨first, others⟩
      rw [List.forM_cons, List.forM_cons, first, ih others]

/-- Steps for all items succeed exactly when every one does. -/
theorem forM_eq_ok_iff {step : α → Except ε PUnit} {items : List α} {result : PUnit} :
    items.forM step = .ok result ↔ ∀ item ∈ items, step item = .ok ⟨⟩ := by
  rw [List.forM_eq_forM]
  induction items with
  | nil => simp [pure, Except.pure]
  | cons item items ih =>
      rw [List.forM_cons, bind_eq_ok_iff, List.forall_mem_cons]
      constructor
      · rintro ⟨_, first, others⟩
        exact ⟨first, ih.mp others⟩
      · rintro ⟨first, others⟩
        exact ⟨_, first, ih.mpr others⟩

/-- Steps for all items fail with the error of the first that fails. -/
theorem forM_eq_error_iff {step : α → Except ε PUnit} {items : List α} {error : ε} :
    items.forM step = .error error ↔
      ∃ before item after, items = before ++ item :: after ∧ step item = .error error ∧
        ∀ earlier ∈ before, step earlier = .ok ⟨⟩ := by
  rw [List.forM_eq_forM]
  induction items with
  | nil => simp [pure, Except.pure]
  | cons first items ih =>
      rw [List.forM_cons, bind_eq_error_iff, ih]
      constructor
      · rintro (failed | ⟨_, succeeds, before, item, after, rfl, failed, succeed⟩)
        · exact ⟨[], first, items, rfl, failed, fun _ member => absurd member List.not_mem_nil⟩
        · exact ⟨first :: before, item, after, rfl, failed,
            List.forall_mem_cons.mpr ⟨succeeds, succeed⟩⟩
      · rintro ⟨before, item, after, split, failed, succeed⟩
        cases before with
        | nil =>
            cases split
            exact .inl failed
        | cons earlier before =>
            cases split
            rcases List.forall_mem_cons.mp succeed with ⟨succeeds, succeed⟩
            exact .inr ⟨_, succeeds, before, item, after, rfl, failed, succeed⟩

/-- Mapping all items gives the results of its steps. -/
theorem mapM_eq_ok_iff {step : α → Except ε β} {items : List α} {results : List β} :
    items.mapM step = .ok results ↔
      List.Forall₂ (fun item result => step item = .ok result) items results := by
  induction items generalizing results with
  | nil =>
      rw [List.mapM_nil, List.forall₂_nil_left_iff]
      constructor
      · intro same
        cases same
        rfl
      · rintro rfl
        rfl
  | cons item items ih =>
      rw [List.mapM_cons, bind_eq_ok_iff, List.forall₂_cons_left_iff]
      constructor
      · rintro ⟨first, isFirst, more⟩
        rcases bind_eq_ok_iff.mp more with ⟨others, areOthers, same⟩
        cases same
        exact ⟨first, others, isFirst, ih.mp areOthers, rfl⟩
      · rintro ⟨first, others, isFirst, areOthers, rfl⟩
        exact ⟨first, isFirst, bind_eq_ok_iff.mpr ⟨others, ih.mpr areOthers, rfl⟩⟩

theorem exists_of_mapM_eq_ok {step : α → Except ε β} {items : List α} {results : List β}
    (mapped : items.mapM step = .ok results) :
    ∀ item ∈ items, ∃ result, step item = .ok result := by
  have related := mapM_eq_ok_iff.mp mapped
  induction related with
  | nil => exact List.forall_mem_nil _
  | @cons item result items results isResult others ih =>
      exact List.forall_mem_cons.mpr ⟨⟨result, isResult⟩, ih (mapM_eq_ok_iff.mpr others)⟩

/-- Mapping all items fails with the error of the first step that fails. -/
theorem mapM_eq_error_iff {step : α → Except ε β} {items : List α} {error : ε} :
    items.mapM step = .error error ↔
      ∃ before item after, items = before ++ item :: after ∧ step item = .error error ∧
        ∀ earlier ∈ before, ∃ result, step earlier = .ok result := by
  induction items with
  | nil => simp [pure, Except.pure]
  | cons first items ih =>
      rw [List.mapM_cons, bind_eq_error_iff]
      constructor
      · rintro (failed | ⟨result, isResult, more⟩)
        · exact ⟨[], first, items, rfl, failed, List.forall_mem_nil _⟩
        · rcases bind_eq_error_iff.mp more with failed | ⟨_, _, impossible⟩
          · rcases ih.mp failed with ⟨before, item, after, rfl, failed, succeed⟩
            exact ⟨first :: before, item, after, rfl, failed,
              List.forall_mem_cons.mpr ⟨⟨result, isResult⟩, succeed⟩⟩
          · cases impossible
      · rintro ⟨before, item, after, split, failed, succeed⟩
        cases before with
        | nil =>
            cases split
            exact .inl failed
        | cons earlier before =>
            cases split
            rcases List.forall_mem_cons.mp succeed with ⟨⟨result, isResult⟩, succeed⟩
            exact .inr ⟨result, isResult, bind_eq_error_iff.mpr
              (.inl (ih.mpr ⟨before, item, after, rfl, failed, succeed⟩))⟩

theorem exists_mem_of_mapM_eq_error {step : α → Except ε β} {items : List α} {error : ε}
    (failed : items.mapM step = .error error) : ∃ item ∈ items, step item = .error error := by
  rcases mapM_eq_error_iff.mp failed with ⟨before, item, after, rfl, failed, _⟩
  exact ⟨item, by simp, failed⟩

end Except
