import OData.Proofs.Query.Support
import OData.Proofs.Typing.Inference

/-!
# The sides of a comparison

Which operand of a comparison stands on which side matters only for bare
collections, which are refused on the right.  Otherwise the types of the
operands decide, and they decide alike both ways round: `null` compares with
everything, but only for being equal or not, and a property that holds a truth
value compares with the constants `true` and `false` but with no computed truth
value.
-/

namespace OData.Expr

open ValidationError (Cause)

variable {model : Model} {op : BinaryOperator} {left right : Expr}

/-! ## The types of the operands -/

theorem comparable_symm {leftTy rightTy : Ty} (isComparable : comparable op leftTy rightTy) :
    comparable op rightTy leftTy := by
  rw [comparable_iff] at isComparable ⊢
  rcases isComparable with ⟨null, isEquality⟩ | ⟨rfl, notNull⟩
  · exact .inl ⟨null.symm, isEquality⟩
  · exact .inr ⟨rfl, notNull⟩

/-- Without a bare collection on the right, a comparison is decided by the types
of its operands. -/
theorem inferType_comparison_of_ok (family : op.family = .comparison)
    (single : ¬ isCollection model right) {leftTy rightTy : Ty}
    (inferLeft : inferType model left = .ok leftTy)
    (inferRight : inferType model right = .ok rightTy) :
    inferType model (binary op left right) =
      if comparable op leftTy rightTy then .ok .boolean
      else .error ⟨.filter, .notComparable leftTy op rightTy⟩ := by
  have leftOk := Except.mapError_eq_ok_iff.mp inferLeft
  have rightOk := Except.mapError_eq_ok_iff.mp inferRight
  simp only [inferType, infer, family, if_neg single, leftOk, rightOk, bind, Except.bind]
  split <;> rfl

theorem inferType_comparison_of_isCollection (family : op.family = .comparison)
    (collection : isCollection model right) :
    inferType model (binary op left right) = .error ⟨.filter, .collectionOperand⟩ := by
  simp only [inferType, infer, family, if_pos collection]
  rfl

/-- A comparison that has a type keeps it if its operands change sides, unless
this brings a bare collection to the right. -/
theorem exists_inferType_swap (family : op.family = .comparison)
    (single : ¬ isCollection model left)
    (inferred : ∃ ty, inferType model (binary op left right) = .ok ty) :
    ∃ ty, inferType model (binary op right left) = .ok ty := by
  rcases inferred with ⟨ty, inferred⟩
  rw [inferType, Except.mapError_eq_ok_iff, infer_comparison_eq_ok_iff family] at inferred
  rcases inferred with ⟨_, leftTy, rightTy, inferLeft, inferRight, isComparable, rfl⟩
  refine ⟨.boolean, Except.mapError_eq_ok_iff.mpr ?_⟩
  exact (infer_comparison_eq_ok_iff family).mpr
    ⟨single, rightTy, leftTy, inferRight, inferLeft, comparable_symm isComparable, rfl⟩

theorem not_isCollection_literal (model : Model) (value : Literal) :
    ¬ isCollection model (literal value) :=
  Bool.false_ne_true

/-! ## Null -/

theorem comparable_null_right (op : BinaryOperator) (ty : Ty) :
    comparable op ty .null = decide (op = .eq ∨ op = .ne) :=
  if_pos (.inr rfl)

theorem comparable_null_left (op : BinaryOperator) (ty : Ty) :
    comparable op .null ty = decide (op = .eq ∨ op = .ne) :=
  if_pos (.inl rfl)

/-- Whether an expression compares with `null` depends on the operator only. -/
theorem inferType_comparison_null (family : op.family = .comparison) {expr : Expr} {ty : Ty}
    (inferred : inferType model expr = .ok ty) (single : ¬ isCollection model expr) :
    inferType model (binary op expr (literal .null)) =
        (if op = .eq ∨ op = .ne then .ok .boolean
          else .error ⟨.filter, .notComparable ty op .null⟩) ∧
      inferType model (binary op (literal .null) expr) =
        if op = .eq ∨ op = .ne then .ok .boolean
        else .error ⟨.filter, .notComparable .null op ty⟩ := by
  have inferNull : inferType model (literal .null) = .ok .null := rfl
  have singleNull := not_isCollection_literal model .null
  rw [inferType_comparison_of_ok family singleNull inferred inferNull,
    inferType_comparison_of_ok family single inferNull inferred, comparable_null_right,
    comparable_null_left]
  simp only [decide_eq_true_eq, and_self]

/-! ## Truth values -/

/-- A property that holds a truth value has the type of the constants. -/
theorem inferType_property_of_boolean {path : Path}
    (known : model.propertyType path = .ok .boolean) :
    inferType model (property path) = .ok .booleanLiteral := by
  simp only [inferType, infer, known]
  rfl

/-- A computed truth value is no bare collection. -/
theorem not_isCollection_of_boolean {expr : Expr} (inferred : inferType model expr = .ok .boolean) :
    ¬ isCollection model expr := by
  have computed := ((inferType_eq_ok_iff expr .boolean).mp inferred).not_isBare
  cases expr with
  | property path => exact absurd trivial computed
  | binary => exact Bool.false_ne_true
  | unary => exact Bool.false_ne_true
  | call => exact Bool.false_ne_true
  | literal => exact Bool.false_ne_true

/-! ## All comparisons -/

/-- What the sides of a comparison mean in a model. -/
structure ComparesEvenly (model : Model) : Prop where
  swap : ∀ op left right, op ∈ [.eq, .ne, .gt, .ge, .lt, .le] →
    ¬ isCollection model left → ¬ isCollection model right →
      ((∃ ty, inferType model (binary op left right) = .ok ty) ↔
        ∃ ty, inferType model (binary op right left) = .ok ty)
  /-- No collection stands alone on the right, whatever is on the left. -/
  collection : ∀ op left right, op ∈ [.eq, .ne, .gt, .ge, .lt, .le] → isCollection model right →
    inferType model (binary op left right) = .error ⟨.filter, .collectionOperand⟩
  null_equality : ∀ op expr ty, op ∈ [.eq, .ne] →
    inferType model expr = .ok ty → ¬ isCollection model expr →
      inferType model (binary op expr (literal .null)) = .ok .boolean ∧
        inferType model (binary op (literal .null) expr) = .ok .boolean
  null_order : ∀ op expr ty, op ∈ [.gt, .ge, .lt, .le] →
    inferType model expr = .ok ty → ¬ isCollection model expr →
      inferType model (binary op expr (literal .null)) =
        .error ⟨.filter, .notComparable ty op .null⟩ ∧
      inferType model (binary op (literal .null) expr) =
        .error ⟨.filter, .notComparable .null op ty⟩
  /-- A property that holds a truth value compares with no computed one. -/
  truth_computed : ∀ op path expr, op ∈ [.eq, .ne, .gt, .ge, .lt, .le] →
    model.propertyType path = .ok .boolean → ¬ model.isCollection path →
    inferType model expr = .ok .boolean →
      inferType model (binary op (property path) expr) =
        .error ⟨.filter, .notComparable .booleanLiteral op .boolean⟩ ∧
      inferType model (binary op expr (property path)) =
        .error ⟨.filter, .notComparable .boolean op .booleanLiteral⟩
  truth_constant : ∀ op path value, op ∈ [.eq, .ne, .gt, .ge, .lt, .le] →
    model.propertyType path = .ok .boolean → ¬ model.isCollection path →
      inferType model (binary op (property path) (literal (.boolean value))) = .ok .boolean

/-- Only bare collections tell the sides of a comparison apart. -/
theorem comparesEvenly (model : Model) : ComparesEvenly model where
  swap op left right isComparison singleLeft singleRight := by
    have family := BinaryOperator.family_eq_comparison_iff.mpr isComparison
    exact ⟨exists_inferType_swap family singleLeft, exists_inferType_swap family singleRight⟩
  collection _ _ _ isComparison collection :=
    inferType_comparison_of_isCollection
      (BinaryOperator.family_eq_comparison_iff.mpr isComparison) collection
  null_equality op expr ty isEquality inferred single := by
    have isEquality : op = .eq ∨ op = .ne := by simpa using isEquality
    have both := inferType_comparison_null (family_of_isEquality isEquality) inferred single
    rwa [if_pos isEquality, if_pos isEquality] at both
  null_order op expr ty isOrder inferred single := by
    have noEquality : op.family = .comparison ∧ ¬ (op = .eq ∨ op = .ne) := by
      revert op
      decide
    have both := inferType_comparison_null noEquality.1 inferred single
    rwa [if_neg noEquality.2, if_neg noEquality.2] at both
  truth_computed op path expr isComparison known single inferred := by
    have family := BinaryOperator.family_eq_comparison_iff.mpr isComparison
    have inferPath := inferType_property_of_boolean known
    have singlePath : ¬ isCollection model (property path) := single
    have singleExpr := not_isCollection_of_boolean inferred
    exact ⟨inferType_comparison_of_ok family singleExpr inferPath inferred,
      inferType_comparison_of_ok family singlePath inferred inferPath⟩
  truth_constant op path value isComparison known single := by
    have family := BinaryOperator.family_eq_comparison_iff.mpr isComparison
    have inferPath := inferType_property_of_boolean known
    have inferValue : inferType model (literal (.boolean value)) = .ok .booleanLiteral := rfl
    have singleValue := not_isCollection_literal model (.boolean value)
    exact inferType_comparison_of_ok family singleValue inferPath inferValue

theorem comparesEvenly_with_collection_and_truth :
    let model : Model :=
      { propertyType := fun path => .ok (if path.segments = ["active"] then .boolean else .string)
        isCollection := fun path => path.segments = ["tags"]
        resultType := fun _ _ => .ok .boolean }
    let active : Path := ⟨["active"], by decide, by decide⟩
    let name := property ⟨["name"], by decide, by decide⟩
    let tags := property ⟨["tags"], by decide, by decide⟩
    let text := literal (.string "a")
    let computed := call "f" [text]
    (∃ ty, inferType model (binary .lt name text) = .ok ty) ∧
      (∃ ty, inferType model (binary .lt text name) = .ok ty) ∧
      inferType model (binary .eq tags text) = .ok .boolean ∧
      inferType model (binary .eq text tags) = .error ⟨.filter, .collectionOperand⟩ ∧
      inferType model (binary .ne (literal .null) computed) = .ok .boolean ∧
      inferType model (binary .ge computed (literal .null)) =
        .error ⟨.filter, .notComparable .boolean .ge .null⟩ ∧
      inferType model (binary .ne computed (property active)) =
        .error ⟨.filter, .notComparable .boolean .ne .booleanLiteral⟩ ∧
      inferType model (binary .gt (property active) (literal (.boolean true))) = .ok .boolean := by
  intro model active name tags text computed
  have evenly := comparesEvenly model
  have isTyped : ∃ ty, inferType model (binary .lt name text) = .ok ty := ⟨.boolean, rfl⟩
  have isComputed : inferType model computed = .ok .boolean := rfl
  have single : ¬ model.isCollection active := by decide
  exact ⟨isTyped, (evenly.swap .lt name text (by decide) (by decide) (by decide)).mp isTyped, rfl,
    evenly.collection .eq text tags (by decide) rfl,
    (evenly.null_equality .ne computed .boolean (by decide) isComputed (by decide)).2,
    (evenly.null_order .ge computed .boolean (by decide) isComputed (by decide)).1,
    (evenly.truth_computed .ne active computed (by decide) rfl single isComputed).2,
    evenly.truth_constant .gt active true (by decide) rfl single⟩

end OData.Expr
