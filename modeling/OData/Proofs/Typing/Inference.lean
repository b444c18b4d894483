import OData.Proofs.Outcome
import OData.Typing.Judgment

/-!
# Inference follows the typing rules

`infer` gives an expression the type that the rules give it and fails on every
other expression.  The proof is by recursion on the expression: success of
each step is taken apart into types of the operands, which are the premises of
the one rule that can apply.
-/

namespace OData.Expr

variable {model : Model}

theorem requireBoolean_eq_ok_iff {ty : Ty} : requireBoolean ty = .ok () ↔ ty = .boolean := by
  unfold requireBoolean
  split <;> simp [*]

/-- Two types are comparable if one is `null` and the operator tests for
equality, or if they are the same type other than `null`. -/
theorem comparable_iff {op : BinaryOperator} {left right : Ty} :
    comparable op left right ↔
      (left = .null ∨ right = .null) ∧ (op = .eq ∨ op = .ne) ∨ left = right ∧ left ≠ .null := by
  unfold comparable
  split
  · next null =>
      constructor
      · intro isEquality
        exact .inl ⟨null, by simpa using isEquality⟩
      · rintro (⟨_, isEquality⟩ | ⟨rfl, notNull⟩)
        · simpa using isEquality
        · exact absurd null (by simpa using notNull)
  · next noNull =>
      constructor
      · intro same
        exact .inr ⟨by simpa using same, fun isNull => noNull (.inl isNull)⟩
      · rintro (⟨null, _⟩ | ⟨same, _⟩)
        · exact absurd null noNull
        · simpa using same

theorem family_of_isEquality {op : BinaryOperator} (isEquality : op = .eq ∨ op = .ne) :
    op.family = .comparison := by
  rcases isEquality with rfl | rfl <;> rfl

/-! ## Properties and literals -/

/-- A property has a type if the model knows one, and has that type unless it
holds a truth value. -/
theorem hasType_property_iff {path : Path} {ty : Ty} :
    HasType model (property path) ty ↔
      ∃ schemaTy, model.propertyType path = .ok schemaTy ∧ schemaTy.ofProperty = ty := by
  constructor
  · intro hasType
    cases hasType with
    | truthProperty known => exact ⟨.boolean, known, rfl⟩
    | property known noTruth =>
        refine ⟨ty, known, ?_⟩
        cases ty with
        | boolean => exact absurd rfl noTruth
        | _ => rfl
  · rintro ⟨schemaTy, known, rfl⟩
    cases schemaTy with
    | boolean => exact .truthProperty known
    | number => exact .property known nofun
    | string => exact .property known nofun
    | booleanLiteral => exact .property known nofun
    | null => exact .property known nofun

theorem hasType_literal_iff {value : Literal} {ty : Ty} :
    HasType model (literal value) ty ↔ ty = value.ty := by
  constructor
  · intro hasType
    cases hasType <;> rfl
  · rintro rfl
    cases value with
    | string value => exact .string value
    | number value => exact .number value
    | boolean value => exact .boolean value
    | null => exact .null

/-! ## Operators -/

section Operators

variable {op : BinaryOperator} {left right : Expr} {ty : Ty}

/-- A connective is typed if both operands are truth values. -/
theorem infer_logical_eq_ok_iff (family : op.family = .logical) :
    infer model (binary op left right) = .ok ty ↔
      infer model left = .ok .boolean ∧ infer model right = .ok .boolean ∧ ty = .boolean := by
  simp only [infer, family, Except.bind_eq_ok_iff]
  constructor
  · rintro ⟨leftTy, inferLeft, ⟨⟩, leftBoolean, rightTy, inferRight, ⟨⟩, rightBoolean, result⟩
    rw [requireBoolean_eq_ok_iff] at leftBoolean rightBoolean
    subst leftBoolean rightBoolean
    cases result
    exact ⟨inferLeft, inferRight, rfl⟩
  · rintro ⟨inferLeft, inferRight, rfl⟩
    exact ⟨_, inferLeft, (), rfl, _, inferRight, (), rfl, rfl⟩

/-- A comparison is typed if its right operand is no bare collection and the
types of its operands are comparable. -/
theorem infer_comparison_eq_ok_iff (family : op.family = .comparison) :
    infer model (binary op left right) = .ok ty ↔
      ¬ isCollection model right ∧ ∃ leftTy rightTy, infer model left = .ok leftTy ∧
        infer model right = .ok rightTy ∧ comparable op leftTy rightTy ∧ ty = .boolean := by
  simp only [infer, family]
  split
  · next collection => simp [collection]
  · next single =>
      simp only [Except.bind_eq_ok_iff]
      constructor
      · rintro ⟨leftTy, inferLeft, rightTy, inferRight, result⟩
        split at result
        · next isComparable =>
            cases result
            exact ⟨single, leftTy, rightTy, inferLeft, inferRight, isComparable, rfl⟩
        · cases result
      · rintro ⟨_, leftTy, rightTy, inferLeft, inferRight, isComparable, rfl⟩
        exact ⟨leftTy, inferLeft, rightTy, inferRight, if_pos isComparable⟩

theorem infer_arithmetic_ne_ok (family : op.family = .arithmetic) :
    infer model (binary op left right) ≠ .ok ty := by
  simp [infer, family]

theorem infer_not_eq_ok_iff {operand : Expr} :
    infer model (unary .not operand) = .ok ty ↔
      infer model operand = .ok .boolean ∧ ty = .boolean := by
  simp only [infer, Except.bind_eq_ok_iff]
  constructor
  · rintro ⟨operandTy, inferOperand, ⟨⟩, isBoolean, result⟩
    rw [requireBoolean_eq_ok_iff] at isBoolean
    subst isBoolean
    cases result
    exact ⟨inferOperand, rfl⟩
  · rintro ⟨inferOperand, rfl⟩
    exact ⟨_, inferOperand, (), rfl, rfl⟩

/-! The rules for the operators of a family, taken together. -/

theorem hasType_logical_iff (family : op.family = .logical) :
    HasType model (binary op left right) ty ↔
      HasType model left .boolean ∧ HasType model right .boolean ∧ ty = .boolean := by
  constructor
  · intro hasType
    cases hasType with
    | logical _ hasLeft hasRight => exact ⟨hasLeft, hasRight, rfl⟩
    | comparison isComparison =>
        rw [BinaryOperator.family_eq_comparison_iff.mpr isComparison] at family
        cases family
    | equality isEquality =>
        rw [family_of_isEquality isEquality] at family
        cases family
  · rintro ⟨hasLeft, hasRight, rfl⟩
    exact .logical (BinaryOperator.family_eq_logical_iff.mp family) hasLeft hasRight

theorem hasType_comparison_iff (family : op.family = .comparison) :
    HasType model (binary op left right) ty ↔
      ¬ isCollection model right ∧ ∃ leftTy rightTy, HasType model left leftTy ∧
        HasType model right rightTy ∧ comparable op leftTy rightTy ∧ ty = .boolean := by
  constructor
  · intro hasType
    cases hasType with
    | logical isLogical =>
        rw [BinaryOperator.family_eq_logical_iff.mpr isLogical] at family
        cases family
    | comparison _ single hasLeft hasRight notNull =>
        exact ⟨single, _, _, hasLeft, hasRight, comparable_iff.mpr (.inr ⟨rfl, notNull⟩), rfl⟩
    | equality isEquality single hasLeft hasRight null =>
        exact ⟨single, _, _, hasLeft, hasRight, comparable_iff.mpr (.inl ⟨null, isEquality⟩), rfl⟩
  · rintro ⟨single, leftTy, rightTy, hasLeft, hasRight, isComparable, rfl⟩
    rcases comparable_iff.mp isComparable with ⟨null, isEquality⟩ | ⟨rfl, notNull⟩
    · exact .equality isEquality single hasLeft hasRight null
    · exact .comparison (BinaryOperator.family_eq_comparison_iff.mp family) single hasLeft
        hasRight notNull

theorem not_hasType_arithmetic (family : op.family = .arithmetic) :
    ¬ HasType model (binary op left right) ty := by
  intro hasType
  cases hasType with
  | logical isLogical =>
      rw [BinaryOperator.family_eq_logical_iff.mpr isLogical] at family
      cases family
  | comparison isComparison =>
      rw [BinaryOperator.family_eq_comparison_iff.mpr isComparison] at family
      cases family
  | equality isEquality =>
      rw [family_of_isEquality isEquality] at family
      cases family

end Operators

/-! ## Expressions -/

mutual

/-- Inference finds the types that the rules give, and no others. -/
theorem infer_eq_ok_iff (expr : Expr) (ty : Ty) :
    infer model expr = .ok ty ↔ HasType model expr ty := by
  cases expr with
  | binary op left right =>
      have typeLeft := infer_eq_ok_iff left
      have typeRight := infer_eq_ok_iff right
      cases family : op.family with
      | logical =>
          rw [infer_logical_eq_ok_iff family, hasType_logical_iff family, typeLeft, typeRight]
      | comparison =>
          rw [infer_comparison_eq_ok_iff family, hasType_comparison_iff family]
          simp only [typeLeft, typeRight]
      | arithmetic =>
          constructor
          · intro inferred
            exact absurd inferred (infer_arithmetic_ne_ok family)
          · intro hasType
            exact absurd hasType (not_hasType_arithmetic family)
  | unary op operand =>
      have typeOperand := infer_eq_ok_iff operand
      cases op with
      | not =>
          rw [infer_not_eq_ok_iff, typeOperand]
          constructor
          · rintro ⟨hasOperand, rfl⟩
            exact .not hasOperand
          · intro hasType
            cases hasType with
            | not hasOperand => exact ⟨hasOperand, rfl⟩
      | neg =>
          constructor
          · intro impossible
            cases impossible
          · intro hasType
            cases hasType
  | call name args =>
      have typeArgs := inferAll_eq_ok_iff args
      simp only [infer, Except.bind_eq_ok_iff, Except.mapError_eq_ok_iff, typeArgs]
      constructor
      · rintro ⟨types, haveArgs, known⟩
        exact .call haveArgs known
      · intro hasType
        cases hasType with
        | call haveArgs known => exact ⟨_, haveArgs, known⟩
  | property path =>
      rw [infer, Except.mapError_eq_ok_iff, Except.map_eq_ok_iff, hasType_property_iff]
  | literal value =>
      rw [infer, Except.ok.injEq, hasType_literal_iff, eq_comm]

/-- Arguments are typed place by place. -/
theorem inferAll_eq_ok_iff (args : List Expr) (types : List Ty) :
    inferAll model args = .ok types ↔ HaveTypes model args types := by
  cases args with
  | nil =>
      constructor
      · intro inferred
        cases inferred
        exact .nil
      · intro haveTypes
        cases haveTypes
        rfl
  | cons arg args =>
      have typeFirst := infer_eq_ok_iff arg
      have typeRest := inferAll_eq_ok_iff args
      simp only [inferAll, Except.bind_eq_ok_iff, typeFirst, typeRest]
      constructor
      · rintro ⟨ty, first, others, rest, result⟩
        cases result
        exact .cons first rest
      · intro haveTypes
        cases haveTypes with
        | cons first rest => exact ⟨_, first, _, rest, rfl⟩

end

theorem inferType_eq_ok_iff (expr : Expr) (ty : Ty) :
    inferType model expr = .ok ty ↔ HasType model expr ty := by
  rw [inferType, Except.mapError_eq_ok_iff, infer_eq_ok_iff]

/-- The type of an expression is the one that the rules give it.  An
expression without a type is refused as a filter. -/
theorem inferType_eq_ok_iff_hasType (model : Model) (expr : Expr) :
    (∀ ty, inferType model expr = .ok ty ↔ HasType model expr ty) ∧
      ((∃ cause, inferType model expr = .error ⟨.filter, cause⟩) ↔
        ∀ ty, ¬ HasType model expr ty) := by
  constructor
  · exact inferType_eq_ok_iff expr
  constructor
  · rintro ⟨cause, refused⟩ ty hasType
    rw [← inferType_eq_ok_iff, refused] at hasType
    cases hasType
  · intro untyped
    cases inferred : infer model expr with
    | ok ty => exact absurd ((infer_eq_ok_iff expr ty).mp inferred) (untyped ty)
    | error cause => exact ⟨cause, congrArg (Except.mapError _) inferred⟩

end OData.Expr
