import OData.Proofs.Part
import OData.Proofs.Typing.Fault
import OData.Query.Validation

/-!
# What checking a query refuses

Each option of a query has a condition to meet.  A query passes exactly if it
meets all of them; otherwise the error names the first option that does not
meet its condition.  The conditions are those for a query that was read: it
never asks for no results at all.
-/

namespace OData.Query

open ValidationError (Cause)

/-- Whether a model knows the type of a property. -/
def Knows (model : Model) (path : Path) : Prop :=
  ∃ ty, model.propertyType path = .ok ty

/-- The condition on one option of a query. -/
def Meets (model : Model) (limits : Limits) (query : Query) : Part → Prop
  | .filter => ∀ filter, query.filter = some filter → filter.inferType model = .ok .boolean
  | .orderBy => ∀ term ∈ query.orderBy, Knows model term.path
  | .top => ∀ top max, query.top = some top → limits.maxTop = some max → top ≤ max
  | .skip => True
  | .select => ∀ path, .property path ∈ query.select → Knows model path
  | .expand => ∀ path ∈ query.expand,
      (∀ max, limits.maxExpandDepth = some max → path.segments.length ≤ max) ∧ Knows model path

/-- Check one option. -/
def checkPart (model : Model) (limits : Limits) (query : Query) :
    Part → Except ValidationError Unit
  | .filter => (checkFilter model query.filter).outcome
  | .orderBy => checkOrderBy model query.orderBy
  | .top => checkTop limits query.top
  | .skip => .ok ()
  | .select => checkSelect model query.select
  | .expand => checkExpand model limits query.expand

variable {model : Model} {limits : Limits} {query : Query}

/-- Checking a query checks its options one after the other. -/
theorem outcome_validate :
    (query.validate model limits).outcome = Part.all.forM (checkPart model limits query) := by
  simp only [validate, checkOptions, Logged.outcome_conclude, Logged.outcome_bind,
    Logged.outcome_tell, Logged.outcome_ofExcept]
  rfl

/-! ## Success -/

theorem checkPath_eq_ok_iff {part : Part} {path : Path} :
    checkPath model part path = .ok () ↔ Knows model path := by
  unfold checkPath Knows
  cases model.propertyType path with
  | error error => simp
  | ok ty => simp

theorem outcome_checkFilter (filter : Expr) :
    (checkFilter model (some filter)).outcome = filter.inferType model >>= fun ty =>
      if ty = .boolean then .ok () else .error ⟨.filter, .notBoolean⟩ := by
  simp only [checkFilter, Logged.outcome_bind, Logged.outcome_ofExcept, Logged.outcome_tell]
  congr 1
  funext ty
  by_cases isBoolean : ty = .boolean
  · simp [isBoolean, bind, Except.bind]
  · simp [isBoolean, bind, Except.bind]

theorem outcome_checkFilter_eq_ok_iff {filter : Option Expr} :
    (checkFilter model filter).outcome = .ok () ↔
      ∀ expr, filter = some expr → expr.inferType model = .ok .boolean := by
  cases filter with
  | none => simp [checkFilter]
  | some filter =>
      rw [outcome_checkFilter, Except.bind_eq_ok_iff]
      constructor
      · rintro ⟨ty, inferred, passed⟩ _ ⟨⟩
        split at passed
        · next isBoolean => rw [inferred, isBoolean]
        · cases passed
      · intro isBoolean
        exact ⟨_, isBoolean filter rfl, if_pos rfl⟩

theorem checkTop_eq_ok_iff {top : Option Nat} (nonzero : top ≠ some 0) :
    checkTop limits top = .ok () ↔
      ∀ number max, top = some number → limits.maxTop = some max → number ≤ max := by
  cases top with
  | none => simp [checkTop]
  | some number =>
      have positive : number ≠ 0 := fun isZero => nonzero (congrArg some isZero)
      cases limit : limits.maxTop with
      | none => simp [checkTop, positive, limit]
      | some max => simp [checkTop, positive, limit]

theorem checkSelectTerm_eq_ok_iff {term : SelectTerm} :
    checkSelectTerm model term = .ok () ↔ ∀ path, term = .property path → Knows model path := by
  cases term with
  | wildcard => simp [checkSelectTerm]
  | property path => simp [checkSelectTerm, checkPath_eq_ok_iff]

theorem exceededDepth?_eq_some_iff {path : Path} {max : Nat} :
    exceededDepth? limits path = some max ↔
      limits.maxExpandDepth = some max ∧ max < path.segments.length := by
  rw [exceededDepth?, Option.filter_eq_some_iff, decide_eq_true_iff, Path.depth]

theorem checkExpandTerm_eq_ok_iff {path : Path} :
    checkExpandTerm model limits path = .ok () ↔
      (∀ max, limits.maxExpandDepth = some max → path.segments.length ≤ max) ∧
        Knows model path := by
  unfold checkExpandTerm
  split
  · next max exceeds =>
      rcases exceededDepth?_eq_some_iff.mp exceeds with ⟨limit, exceeded⟩
      constructor
      · rintro ⟨⟩
      · rintro ⟨within, _⟩
        exact absurd (within max limit) (Nat.not_le_of_lt exceeded)
  · next within =>
      rw [checkPath_eq_ok_iff]
      constructor
      · intro known
        refine ⟨fun max limit => Nat.le_of_not_lt fun exceeded => ?_, known⟩
        rw [exceededDepth?_eq_some_iff.mpr ⟨limit, exceeded⟩] at within
        cases within
      · exact And.right

/-- An option passes exactly if it meets its condition. -/
theorem checkPart_eq_ok_iff (nonzero : query.top ≠ some 0) {part : Part} :
    checkPart model limits query part = .ok () ↔ query.Meets model limits part := by
  cases part with
  | filter => exact outcome_checkFilter_eq_ok_iff
  | orderBy =>
      simp only [checkPart, checkOrderBy, Meets, Except.forM_eq_ok_iff, checkPath_eq_ok_iff]
  | top => exact checkTop_eq_ok_iff nonzero
  | skip => simp [checkPart, Meets]
  | select =>
      simp only [checkPart, checkSelect, Meets, Except.forM_eq_ok_iff, checkSelectTerm_eq_ok_iff]
      constructor
      · intro known path member
        exact known _ member path rfl
      · rintro known _ member path rfl
        exact known path member
  | expand =>
      simp only [checkPart, checkExpand, Meets, Except.forM_eq_ok_iff, checkExpandTerm_eq_ok_iff]

/-! ## Failure -/

/-- The causes for which an option of a query that was read is refused. -/
inductive IsFaultOf (limits : Limits) : Part → Cause → Prop
  | typeFault {cause : Cause} (fault : Expr.IsTypeFault cause) : IsFaultOf limits .filter cause
  | notBoolean : IsFaultOf limits .filter .notBoolean
  | lookup {part : Part} (named : part ∈ [Part.orderBy, .select, .expand])
      (error : LookupError) : IsFaultOf limits part (.lookup error)
  | topTooLarge {max : Nat} (limit : limits.maxTop = some max) :
      IsFaultOf limits .top (.topTooLarge max)
  | expansionTooDeep {path : Path} {max : Nat} (limit : limits.maxExpandDepth = some max)
      (exceeded : max < path.segments.length) : IsFaultOf limits .expand (.expansionTooDeep path max)

/-- A query that was read is never refused for asking for no results. -/
theorem IsFaultOf.ne_zeroTop {part : Part} {cause : Cause} (fault : IsFaultOf limits part cause) :
    cause ≠ .zeroTop := by
  rintro rfl
  cases fault with
  | typeFault fault => cases fault

/-- The only fault of the number of results is that it exceeds its limit. -/
theorem IsFaultOf.exists_maxTop {cause : Cause} (fault : IsFaultOf limits .top cause) :
    ∃ max, limits.maxTop = some max ∧ cause = .topTooLarge max := by
  cases fault with
  | lookup named => simp at named
  | topTooLarge limit => exact ⟨_, limit, rfl⟩

/-- The two refusals of a number of results differ in their wording. -/
theorem message_topTooLarge_ne (max : Nat) :
    (Cause.topTooLarge max).message ≠ Cause.zeroTop.message := by
  show "Top must not exceed " ++ toString max ≠ "Top must be a positive integer"
  intro same
  have letters := congrArg String.toList same
  rw [String.toList_append] at letters
  simp at letters

variable {error : ValidationError}

theorem fault_of_checkPath {part : Part} {path : Path}
    (named : part ∈ [Part.orderBy, .select, .expand])
    (refused : checkPath model part path = .error error) :
    error.part = part ∧ IsFaultOf limits part error.cause := by
  unfold checkPath at refused
  split at refused
  · cases refused
  · cases refused
    exact ⟨rfl, .lookup named _⟩

theorem fault_of_checkFilter {filter : Option Expr}
    (refused : (checkFilter model filter).outcome = .error error) :
    error.part = .filter ∧ IsFaultOf limits .filter error.cause := by
  cases filter with
  | none => cases refused
  | some filter =>
      rw [outcome_checkFilter, Except.bind_eq_error_iff] at refused
      rcases refused with untyped | ⟨ty, _, refused⟩
      · rcases Expr.isTypeFault_of_inferType untyped with ⟨names, fault⟩
        exact ⟨names, .typeFault fault⟩
      · split at refused
        · cases refused
        · cases refused
          exact ⟨rfl, .notBoolean⟩

theorem fault_of_checkTop {top : Option Nat} (nonzero : top ≠ some 0)
    (refused : checkTop limits top = .error error) :
    error.part = .top ∧ IsFaultOf limits .top error.cause := by
  unfold checkTop at refused
  split at refused
  · cases refused
  · split at refused
    · next isZero => exact absurd (congrArg some isZero) nonzero
    · split at refused
      · cases refused
      · next limit =>
          split at refused
          · cases refused
            exact ⟨rfl, .topTooLarge limit⟩
          · cases refused

theorem fault_of_checkSelectTerm {term : SelectTerm}
    (refused : checkSelectTerm model term = .error error) :
    error.part = .select ∧ IsFaultOf limits .select error.cause := by
  cases term with
  | wildcard => cases refused
  | property path => exact fault_of_checkPath (by decide) refused

theorem fault_of_checkExpandTerm {path : Path}
    (refused : checkExpandTerm model limits path = .error error) :
    error.part = .expand ∧ IsFaultOf limits .expand error.cause := by
  unfold checkExpandTerm at refused
  split at refused
  · next exceeds =>
      rcases exceededDepth?_eq_some_iff.mp exceeds with ⟨limit, exceeded⟩
      cases refused
      exact ⟨rfl, .expansionTooDeep limit exceeded⟩
  · exact fault_of_checkPath (by decide) refused

/-- The error of a check names the option that is checked, and is a fault of
that option. -/
theorem fault_of_checkPart (nonzero : query.top ≠ some 0) {part : Part}
    (refused : checkPart model limits query part = .error error) :
    error.part = part ∧ IsFaultOf limits part error.cause := by
  cases part with
  | filter => exact fault_of_checkFilter refused
  | orderBy =>
      rcases Except.forM_eq_error_iff.mp refused with ⟨_, term, _, _, refused, _⟩
      exact fault_of_checkPath (by decide) refused
  | top => exact fault_of_checkTop nonzero refused
  | skip => cases refused
  | select =>
      rcases Except.forM_eq_error_iff.mp refused with ⟨_, term, _, _, refused, _⟩
      exact fault_of_checkSelectTerm refused
  | expand =>
      rcases Except.forM_eq_error_iff.mp refused with ⟨_, path, _, _, refused, _⟩
      exact fault_of_checkExpandTerm refused

/-! ## Whole queries -/

/-- A query that was read passes exactly if every option meets its
condition. -/
theorem validate_eq_ok_iff (nonzero : query.top ≠ some 0) :
    (query.validate model limits).outcome = .ok () ↔
      ∀ part, query.Meets model limits part := by
  rw [outcome_validate, Part.forM_all_eq_ok_iff]
  exact forall_congr' fun part => checkPart_eq_ok_iff nonzero

theorem exists_error_iff_not_meets (nonzero : query.top ≠ some 0) {part : Part} :
    (∃ error, checkPart model limits query part = .error error) ↔
      ¬ query.Meets model limits part := by
  rw [← checkPart_eq_ok_iff nonzero, Part.eq_ok_iff_not_exists_error, Classical.not_not]

/-- A query that was read is refused for a fault of the first option that does
not meet its condition. -/
theorem validate_eq_error_iff (nonzero : query.top ≠ some 0) :
    (query.validate model limits).outcome = .error error ↔
      error.part.IsFirst (fun part => ¬ query.Meets model limits part) ∧
        checkPart model limits query error.part = .error error := by
  have sameFirst : ∀ part : Part,
      part.IsFirst (fun part => ∃ error, checkPart model limits query part = .error error) ↔
        part.IsFirst fun part => ¬ query.Meets model limits part :=
    fun _ => Part.IsFirst.congr fun _ => exists_error_iff_not_meets nonzero
  rw [outcome_validate, Part.forM_all_eq_error_iff]
  constructor
  · rintro ⟨part, first, refused⟩
    rcases (fault_of_checkPart nonzero refused).1 with rfl
    exact ⟨(sameFirst _).mp first, refused⟩
  · rintro ⟨first, refused⟩
    exact ⟨error.part, (sameFirst _).mpr first, refused⟩

end OData.Query
