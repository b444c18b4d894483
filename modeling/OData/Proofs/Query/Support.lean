import OData.Proofs.Expr.Occurrence
import OData.Proofs.Query.Checking
import OData.Proofs.Typing.Inference
import OData.Schema.Basic

/-!
# What a filter that passes consists of

A type is given to an expression only if it is given to everything in it.  So
a filter that passes holds no arithmetic and no unknown name at any depth, and
every truth value in it is computed: no connective takes a bare property or
literal.
-/

namespace OData.Expr

variable {model : Model}

/-! ## Types of what occurs -/

theorem HaveTypes.exists_hasType {args : List Expr} {types : List Ty}
    (haveTypes : HaveTypes model args types) : ∀ arg ∈ args, ∃ ty, HasType model arg ty := by
  induction args generalizing types with
  | nil => exact List.forall_mem_nil _
  | cons arg args ih =>
      cases haveTypes with
      | cons first rest => exact List.forall_mem_cons.mpr ⟨⟨_, first⟩, ih rest⟩

/-- What occurs in an expression with a type has a type. -/
theorem HasType.exists_of_occurs {expr inner : Expr} {ty : Ty} (hasType : HasType model expr ty)
    (occurs : Occurs inner expr) : ∃ innerTy, HasType model inner innerTy := by
  induction occurs generalizing ty with
  | self => exact ⟨ty, hasType⟩
  | left _ ih =>
      cases hasType with
      | logical _ hasLeft _ => exact ih hasLeft
      | comparison _ _ hasLeft _ _ => exact ih hasLeft
      | equality _ _ hasLeft _ _ => exact ih hasLeft
  | right _ ih =>
      cases hasType with
      | logical _ _ hasRight => exact ih hasRight
      | comparison _ _ _ hasRight _ => exact ih hasRight
      | equality _ _ _ hasRight _ => exact ih hasRight
  | operand _ ih =>
      cases hasType with
      | not hasOperand => exact ih hasOperand
  | arg member _ ih =>
      cases hasType with
      | call haveArgs _ =>
          rcases haveArgs.exists_hasType _ member with ⟨argTy, hasArg⟩
          exact ih hasArg

/-! ## Bare operands -/

/-- Whether an expression is nothing but a property or a literal. -/
def IsBare : Expr → Prop
  | property _ | literal _ => True
  | _ => False

/-- No property and no literal has the type of a computed truth value. -/
theorem HasType.not_isBare {expr : Expr} (hasType : HasType model expr .boolean) :
    ¬ expr.IsBare := by
  intro bare
  cases expr with
  | binary => exact bare
  | unary => exact bare
  | call => exact bare
  | property path =>
      cases hasType with
      | property _ noTruth => exact noTruth rfl
  | literal value => cases hasType

/-! ## Supported filters -/

/-- What a filter has to be for a service to handle it: the operators in it are
connectives and comparisons, its model answers for every name in it, and its
truth values are computed. -/
structure IsSupported (model : Model) (filter : Expr) : Prop where
  not_arithmetic : ∀ op left right, op ∈ [.add, .sub, .mul, .div, .mod] →
    ¬ Occurs (binary op left right) filter
  not_negation : ∀ operand, ¬ Occurs (unary .neg operand) filter
  known : ∀ path, Occurs (property path) filter → ∃ ty, model.propertyType path = .ok ty
  /-- Every function takes the types that are inferred for its arguments. -/
  accepted : ∀ name args, Occurs (call name args) filter → ∃ types ty,
    List.Forall₂ (fun arg ty => arg.inferType model = .ok ty) args types ∧
      model.resultType name types = .ok ty
  single : ∀ op left path, op ∈ [.eq, .ne, .gt, .ge, .lt, .le] →
    Occurs (binary op left (property path)) filter → ¬ model.isCollection path
  computed : ¬ filter.IsBare
  computed_logical : ∀ op left right, op ∈ [.and, .or] →
    Occurs (binary op left right) filter → ¬ left.IsBare ∧ ¬ right.IsBare
  computed_not : ∀ operand, Occurs (unary .not operand) filter → ¬ operand.IsBare

theorem HaveTypes.forall₂_inferType {args : List Expr} {types : List Ty}
    (haveTypes : HaveTypes model args types) :
    List.Forall₂ (fun arg ty => arg.inferType model = .ok ty) args types := by
  induction args generalizing types with
  | nil =>
      cases haveTypes
      exact .nil
  | cons arg args ih =>
      cases haveTypes with
      | cons first rest => exact .cons ((inferType_eq_ok_iff arg _).mpr first) (ih rest)

/-- A filter is supported if it is a computed truth value. -/
theorem HasType.isSupported {filter : Expr} (hasType : HasType model filter .boolean) :
    IsSupported model filter := by
  -- What occurs in the filter has a type; the rule that gives it says the rest.
  constructor
  · intro op left right isArithmetic occurs
    rcases hasType.exists_of_occurs occurs with ⟨ty, typed⟩
    exact not_hasType_arithmetic (BinaryOperator.family_eq_arithmetic_iff.mpr isArithmetic) typed
  · intro operand occurs
    rcases hasType.exists_of_occurs occurs with ⟨ty, typed⟩
    cases typed
  · intro path occurs
    rcases hasType.exists_of_occurs occurs with ⟨ty, typed⟩
    rcases hasType_property_iff.mp typed with ⟨schemaTy, known, _⟩
    exact ⟨schemaTy, known⟩
  · intro name args occurs
    rcases hasType.exists_of_occurs occurs with ⟨ty, typed⟩
    cases typed with
    | call haveArgs known => exact ⟨_, _, haveArgs.forall₂_inferType, known⟩
  · intro op left path isComparison occurs
    rcases hasType.exists_of_occurs occurs with ⟨ty, typed⟩
    have family := BinaryOperator.family_eq_comparison_iff.mpr isComparison
    exact ((hasType_comparison_iff family).mp typed).1
  · exact hasType.not_isBare
  · intro op left right isLogical occurs
    rcases hasType.exists_of_occurs occurs with ⟨ty, typed⟩
    have family := BinaryOperator.family_eq_logical_iff.mpr isLogical
    rcases (hasType_logical_iff family).mp typed with ⟨hasLeft, hasRight, _⟩
    exact ⟨hasLeft.not_isBare, hasRight.not_isBare⟩
  · intro operand occurs
    rcases hasType.exists_of_occurs occurs with ⟨ty, typed⟩
    cases typed with
    | not hasOperand => exact hasOperand.not_isBare

end OData.Expr

namespace OData.Query

/-- The filter of a query that passes is a computed truth value. -/
theorem inferType_of_validate {model : Model} {limits : Limits} {query : Query} {filter : Expr}
    (passed : (query.validate model limits).outcome = .ok ())
    (isFilter : query.filter = some filter) : filter.inferType model = .ok .boolean := by
  rw [outcome_validate, Part.forM_all_eq_ok_iff] at passed
  exact outcome_checkFilter_eq_ok_iff.mp (passed .filter) filter isFilter

/-- If a type is inferred for an expression, one is inferred for everything in
it.  So under any limits, the filter of a query that passes is supported. -/
theorem isSupported_of_validate (model : Model) :
    (∀ (expr : Expr) (ty : Ty), expr.inferType model = .ok ty →
      ∀ inner, Expr.Occurs inner expr → ∃ innerTy, inner.inferType model = .ok innerTy) ∧
    ∀ (limits : Limits) (query : Query) (filter : Expr),
      (query.validate model limits).outcome = .ok () → query.filter = some filter →
        filter.IsSupported model := by
  constructor
  · intro expr ty inferred inner occurs
    rcases ((Expr.inferType_eq_ok_iff expr ty).mp inferred).exists_of_occurs occurs with
      ⟨innerTy, hasType⟩
    exact ⟨innerTy, (Expr.inferType_eq_ok_iff inner innerTy).mpr hasType⟩
  · intro limits query filter passed isFilter
    have inferred := inferType_of_validate passed isFilter
    exact ((Expr.inferType_eq_ok_iff filter .boolean).mp inferred).isSupported

theorem isSupported_call_under_not :
    let model := (({} : Schema).addStandard.addProperty "user.name" .string).toModel
    let name : Path := ⟨["user", "name"], by decide, by decide⟩
    let filter : Expr := .binary .and
      (.unary .not (.call "contains" [.property name, .literal (.string "a")]))
      (.binary .ne (.call "length" [.property name]) (.literal .null))
    let query : Query := { Query.empty with filter := some filter }
    (query.validate model {}).outcome = .ok () ∧ filter.IsSupported model := by
  intro model name filter query
  have passed : (query.validate model {}).outcome = .ok () := rfl
  exact ⟨passed, (isSupported_of_validate model).2 {} query filter passed rfl⟩

end OData.Query
