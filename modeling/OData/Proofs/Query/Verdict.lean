import OData.Proofs.Query.Checking
import OData.Proofs.Query.Reading
import OData.Query.Check

/-!
# The verdict on a query

From option texts to a query that a model agrees with, or to the error of the
first fault.  A fault of a text goes before every fault of what the texts say,
and among faults of one kind the order of `Part.all` decides.
-/

namespace OData.Query

variable {maxNesting : Nat} {model : Model} {limits : Limits} {options : Options} {query : Query}

/-- A query that was read does not ask for no results. -/
theorem Holds.top_ne_zero (holds : Holds maxNesting options query) : query.top ≠ some 0 :=
  ne_zero_of_readTop holds.top

/-- Both phases in sequence, without what they tell. -/
theorem outcome_readAndValidate :
    (readAndValidate maxNesting model limits options).outcome =
      (read maxNesting options).outcome.mapError .reading >>= fun query =>
        ((query.validate model limits).outcome.mapError .checking).map fun _ => query := by
  simp only [readAndValidate, Logged.outcome_bind, Logged.outcome_mapError, Logged.outcome_pure]
  rfl

/-- A query comes out exactly if it was read and passed. -/
theorem readAndValidate_eq_ok_iff :
    (readAndValidate maxNesting model limits options).outcome = .ok query ↔
      Holds maxNesting options query ∧ (query.validate model limits).outcome = .ok () := by
  rw [outcome_readAndValidate, Except.bind_eq_ok_iff]
  constructor
  · rintro ⟨_, isRead, mapped⟩
    rcases Except.map_eq_ok_iff.mp mapped with ⟨_, passed, rfl⟩
    exact ⟨read_eq_ok_iff.mp (Except.mapError_eq_ok_iff.mp isRead),
      Except.mapError_eq_ok_iff.mp passed⟩
  · rintro ⟨holds, passed⟩
    exact ⟨query, Except.mapError_eq_ok_iff.mpr (read_eq_ok_iff.mpr holds),
      Except.map_eq_ok_iff.mpr ⟨(), Except.mapError_eq_ok_iff.mpr passed, rfl⟩⟩

/-- A syntax error comes out exactly if reading gives it. -/
theorem readAndValidate_eq_reading_iff {error : SyntaxError} :
    (readAndValidate maxNesting model limits options).outcome = .error (.reading error) ↔
      (read maxNesting options).outcome = .error error := by
  rw [outcome_readAndValidate, Except.bind_eq_error_iff]
  constructor
  · rintro (refused | ⟨_, _, refused⟩)
    · rcases Except.mapError_eq_error_iff.mp refused with ⟨_, refused, ⟨⟩⟩
      exact refused
    · rcases Except.mapError_eq_error_iff.mp (Except.map_eq_error_iff.mp refused) with ⟨_, _, ⟨⟩⟩
  · intro refused
    exact .inl (Except.mapError_eq_error_iff.mpr ⟨error, refused, rfl⟩)

/-- A validation error comes out exactly if checking gives it for the query
that was read. -/
theorem readAndValidate_eq_checking_iff {error : ValidationError} :
    (readAndValidate maxNesting model limits options).outcome = .error (.checking error) ↔
      ∃ query, Holds maxNesting options query ∧
        (query.validate model limits).outcome = .error error := by
  rw [outcome_readAndValidate, Except.bind_eq_error_iff]
  constructor
  · rintro (refused | ⟨query, isRead, refused⟩)
    · rcases Except.mapError_eq_error_iff.mp refused with ⟨_, _, ⟨⟩⟩
    · rcases Except.mapError_eq_error_iff.mp (Except.map_eq_error_iff.mp refused) with
        ⟨_, refused, ⟨⟩⟩
      exact ⟨query, read_eq_ok_iff.mp (Except.mapError_eq_ok_iff.mp isRead), refused⟩
  · rintro ⟨query, holds, refused⟩
    exact .inr ⟨query, Except.mapError_eq_ok_iff.mpr (read_eq_ok_iff.mpr holds),
      Except.map_eq_error_iff.mpr (Except.mapError_eq_error_iff.mpr ⟨error, refused, rfl⟩)⟩

/-- A query comes out exactly if it holds what all readers give and meets every
condition.  Otherwise the first option whose text cannot be read decides the
error, and if there is none, the first that does not meet its condition.  A
query for no results is refused by its reader, so the check against that never
fails. -/
theorem verdict_of_readAndValidate (maxNesting : Nat) (model : Model) (limits : Limits)
    (options : Options) :
    let outcome := (readAndValidate maxNesting model limits options).outcome
    (∀ query, outcome = .ok query ↔
      Holds maxNesting options query ∧ ∀ part, query.Meets model limits part) ∧
    (∀ part error, (outcome = .error (.reading error) ∧ error.part = part) ↔
      part.IsFirst (fun part => ∃ error, readPart maxNesting options part = .error error) ∧
        readPart maxNesting options part = .error error) ∧
    (∀ part, (∃ error, outcome = .error (.checking error) ∧ error.part = part) ↔
      ∃ query, Holds maxNesting options query ∧
        part.IsFirst fun part => ¬ query.Meets model limits part) ∧
    ∀ error, outcome = .error (.checking error) →
      error.cause ≠ .zeroTop ∧
        (error.part = .top → error.message ≠ "Top must be a positive integer") := by
  intro outcome
  constructor
  · intro query
    rw [readAndValidate_eq_ok_iff]
    exact and_congr_right fun holds => validate_eq_ok_iff holds.top_ne_zero
  constructor
  · intro part error
    rw [readAndValidate_eq_reading_iff, read_eq_error_iff]
    constructor
    · rintro ⟨⟨_, first, failed⟩, rfl⟩
      rcases part_of_readPart failed with rfl
      exact ⟨first, failed⟩
    · rintro ⟨first, failed⟩
      exact ⟨⟨part, first, failed⟩, part_of_readPart failed⟩
  constructor
  · intro part
    constructor
    · rintro ⟨error, refused, rfl⟩
      rcases readAndValidate_eq_checking_iff.mp refused with ⟨query, holds, refused⟩
      exact ⟨query, holds, ((validate_eq_error_iff holds.top_ne_zero).mp refused).1⟩
    · rintro ⟨query, holds, first⟩
      have violated := first.holds
      rcases (exists_error_iff_not_meets holds.top_ne_zero).mpr violated with ⟨error, refused⟩
      rcases (fault_of_checkPart holds.top_ne_zero refused).1 with rfl
      exact ⟨error, readAndValidate_eq_checking_iff.mpr
        ⟨query, holds, (validate_eq_error_iff holds.top_ne_zero).mpr ⟨first, refused⟩⟩, rfl⟩
  · intro error refused
    rcases readAndValidate_eq_checking_iff.mp refused with ⟨query, holds, refused⟩
    have checked := ((validate_eq_error_iff holds.top_ne_zero).mp refused).2
    have fault := (fault_of_checkPart holds.top_ne_zero checked).2
    refine ⟨fault.ne_zeroTop, fun ofTop => ?_⟩
    rw [ofTop] at fault
    rcases fault.exists_maxTop with ⟨max, _, tooLarge⟩
    rw [ValidationError.message, tooLarge]
    exact message_topTooLarge_ne max

end OData.Query
