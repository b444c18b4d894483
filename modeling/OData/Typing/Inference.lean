import OData.Error.Validation
import OData.Expr.Basic

/-!
# Type inference

`infer` gives an expression its type in a model, from the operands up and from
the left to the right, and stops at the first fault.  Arithmetic has no type.
A comparison takes two operands of one type; `null` also compares with
everything, but only for being equal or not.  A collection cannot stand alone
to the right of a comparison, which is found before its operands are typed.
-/

namespace OData.Expr

open ValidationError (Cause)

/-- Whether values of two types can be compared by an operator. -/
def comparable (op : BinaryOperator) (left right : Ty) : Bool :=
  if left = .null ∨ right = .null then op = .eq ∨ op = .ne else left = right

/-- Whether an expression is nothing but a property that is a collection. -/
def isCollection (model : Model) : Expr → Bool
  | property path => model.isCollection path
  | _ => false

/-- Refuse every operand of a connective that is no truth value. -/
def requireBoolean (ty : Ty) : Except Cause Unit :=
  if ty = .boolean then .ok () else .error .logicalOperand

mutual

/-- The type of an expression. -/
def infer (model : Model) : Expr → Except Cause Ty
  | binary op left right =>
      match op.family with
      | .logical => do
          requireBoolean (← infer model left)
          requireBoolean (← infer model right)
          return .boolean
      | .comparison =>
          if isCollection model right then
            .error .collectionOperand
          else do
            let leftTy ← infer model left
            let rightTy ← infer model right
            if comparable op leftTy rightTy then
              return .boolean
            else
              .error (.notComparable leftTy op rightTy)
      | .arithmetic => .error .arithmetic
  | unary .not operand => do
      requireBoolean (← infer model operand)
      return .boolean
  | unary .neg _ => .error .arithmetic
  | call name args => do
      let types ← inferAll model args
      (model.resultType name types).mapError .lookup
  | property path =>
      ((model.propertyType path).map Ty.ofProperty).mapError .lookup
  | literal value => .ok value.ty

/-- The types of several expressions. -/
def inferAll (model : Model) : List Expr → Except Cause (List Ty)
  | [] => .ok []
  | arg :: args => do
      let ty ← infer model arg
      let types ← inferAll model args
      return ty :: types

end

/-- The type of a filter. -/
def inferType (model : Model) (expr : Expr) : Except ValidationError Ty :=
  (infer model expr).mapError fun cause => ⟨.filter, cause⟩

end OData.Expr
