import OData.Typing.Inference

/-!
# Typing rules

When an expression has a type in a model, said apart from how types are
inferred.  A property that holds a truth value has the type of the constants,
every other property the type that the model gives it.  Arithmetic has no rule,
so no expression with arithmetic in an operand or an argument has a type.
-/

namespace OData.Expr

mutual

/-- The types of an expression. -/
inductive HasType (model : Model) : Expr → Ty → Prop
  | string (value : String) : HasType model (literal (.string value)) .string
  | number (value : Decimal) : HasType model (literal (.number value)) .number
  | boolean (value : Bool) : HasType model (literal (.boolean value)) .booleanLiteral
  | null : HasType model (literal .null) .null
  | truthProperty {path : Path} (known : model.propertyType path = .ok .boolean) :
      HasType model (property path) .booleanLiteral
  | property {path : Path} {ty : Ty} (known : model.propertyType path = .ok ty)
      (noTruth : ty ≠ .boolean) : HasType model (property path) ty
  | logical {op : BinaryOperator} {left right : Expr} (isLogical : op ∈ [.and, .or])
      (hasLeft : HasType model left .boolean) (hasRight : HasType model right .boolean) :
      HasType model (binary op left right) .boolean
  | not {operand : Expr} (hasOperand : HasType model operand .boolean) :
      HasType model (unary .not operand) .boolean
  | comparison {op : BinaryOperator} {left right : Expr} {ty : Ty}
      (isComparison : op ∈ [.eq, .ne, .gt, .ge, .lt, .le])
      (single : ¬ isCollection model right)
      (hasLeft : HasType model left ty) (hasRight : HasType model right ty)
      (notNull : ty ≠ .null) :
      HasType model (binary op left right) .boolean
  | equality {op : BinaryOperator} {left right : Expr} {leftTy rightTy : Ty}
      (isEquality : op = .eq ∨ op = .ne) (single : ¬ isCollection model right)
      (hasLeft : HasType model left leftTy) (hasRight : HasType model right rightTy)
      (null : leftTy = .null ∨ rightTy = .null) :
      HasType model (binary op left right) .boolean
  | call {name : String} {args : List Expr} {types : List Ty} {ty : Ty}
      (haveArgs : HaveTypes model args types)
      (known : model.resultType name types = .ok ty) :
      HasType model (call name args) ty

/-- The types of several expressions, place by place. -/
inductive HaveTypes (model : Model) : List Expr → List Ty → Prop
  | nil : HaveTypes model [] []
  | cons {arg : Expr} {args : List Expr} {ty : Ty} {types : List Ty}
      (first : HasType model arg ty) (rest : HaveTypes model args types) :
      HaveTypes model (arg :: args) (ty :: types)

end

end OData.Expr
