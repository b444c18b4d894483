import OData.Proofs.Outcome
import OData.Typing.Inference

/-!
# Why an expression has no type

Inference refuses an expression for what is in the expression or for what the
model does not know.  It never gives a cause that belongs to another check.
-/

namespace OData.Expr

open ValidationError (Cause)

/-- The causes that lie in an expression or in what its model knows. -/
inductive IsTypeFault : Cause → Prop
  | logicalOperand : IsTypeFault .logicalOperand
  | arithmetic : IsTypeFault .arithmetic
  | collectionOperand : IsTypeFault .collectionOperand
  | notComparable (left : Ty) (op : BinaryOperator) (right : Ty) :
      IsTypeFault (.notComparable left op right)
  | lookup (error : LookupError) : IsTypeFault (.lookup error)

variable {model : Model} {cause : Cause}

theorem isTypeFault_of_requireBoolean {ty : Ty} (refused : requireBoolean ty = .error cause) :
    IsTypeFault cause := by
  unfold requireBoolean at refused
  split at refused
  · cases refused
  · cases refused
    exact .logicalOperand

/-- A looked-up answer is refused with the model's own error. -/
theorem isTypeFault_of_lookup {α : Type} {answer : Except LookupError α}
    (refused : answer.mapError Cause.lookup = .error cause) : IsTypeFault cause := by
  rcases Except.mapError_eq_error_iff.mp refused with ⟨error, _, rfl⟩
  exact .lookup error

mutual

/-- An expression is refused for a type fault. -/
theorem isTypeFault_of_infer (expr : Expr) (refused : infer model expr = .error cause) :
    IsTypeFault cause := by
  cases expr with
  | binary op left right =>
      unfold infer at refused
      split at refused
      · rcases Except.bind_eq_error_iff.mp refused with ofLeft | ⟨leftTy, _, refused⟩
        · exact isTypeFault_of_infer left ofLeft
        rcases Except.bind_eq_error_iff.mp refused with ofLeft | ⟨_, _, refused⟩
        · exact isTypeFault_of_requireBoolean ofLeft
        rcases Except.bind_eq_error_iff.mp refused with ofRight | ⟨rightTy, _, refused⟩
        · exact isTypeFault_of_infer right ofRight
        rcases Except.bind_eq_error_iff.mp refused with ofRight | ⟨_, _, impossible⟩
        · exact isTypeFault_of_requireBoolean ofRight
        · cases impossible
      · split at refused
        · cases refused
          exact .collectionOperand
        rcases Except.bind_eq_error_iff.mp refused with ofLeft | ⟨leftTy, _, refused⟩
        · exact isTypeFault_of_infer left ofLeft
        rcases Except.bind_eq_error_iff.mp refused with ofRight | ⟨rightTy, _, refused⟩
        · exact isTypeFault_of_infer right ofRight
        split at refused
        · cases refused
        · cases refused
          exact .notComparable leftTy op rightTy
      · cases refused
        exact .arithmetic
  | unary op operand =>
      cases op with
      | not =>
          unfold infer at refused
          rcases Except.bind_eq_error_iff.mp refused with ofOperand | ⟨ty, _, refused⟩
          · exact isTypeFault_of_infer operand ofOperand
          rcases Except.bind_eq_error_iff.mp refused with ofOperand | ⟨_, _, impossible⟩
          · exact isTypeFault_of_requireBoolean ofOperand
          · cases impossible
      | neg =>
          unfold infer at refused
          cases refused
          exact .arithmetic
  | call name args =>
      unfold infer at refused
      rcases Except.bind_eq_error_iff.mp refused with ofArgs | ⟨types, _, refused⟩
      · exact isTypeFault_of_inferAll args ofArgs
      · exact isTypeFault_of_lookup refused
  | property path =>
      unfold infer at refused
      exact isTypeFault_of_lookup refused
  | literal value =>
      unfold infer at refused
      cases refused

/-- Arguments are refused for a type fault. -/
theorem isTypeFault_of_inferAll (args : List Expr)
    (refused : inferAll model args = .error cause) : IsTypeFault cause := by
  cases args with
  | nil =>
      unfold inferAll at refused
      cases refused
  | cons arg args =>
      unfold inferAll at refused
      rcases Except.bind_eq_error_iff.mp refused with ofFirst | ⟨ty, _, refused⟩
      · exact isTypeFault_of_infer arg ofFirst
      rcases Except.bind_eq_error_iff.mp refused with ofRest | ⟨types, _, impossible⟩
      · exact isTypeFault_of_inferAll args ofRest
      · cases impossible

end

/-- A filter without a type is refused as a filter, for a type fault. -/
theorem isTypeFault_of_inferType {expr : Expr} {error : ValidationError}
    (refused : inferType model expr = .error error) :
    error.part = .filter ∧ IsTypeFault error.cause := by
  rcases Except.mapError_eq_error_iff.mp refused with ⟨cause, ofExpr, rfl⟩
  exact ⟨rfl, isTypeFault_of_infer expr ofExpr⟩

end OData.Expr
