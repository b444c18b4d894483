import OData.Expr.Basic

/-!
# What stands in an expression

An expression occurs in another if it is that expression, or occurs in one of
its operands or arguments.  What passes from every expression to its operands
and arguments therefore holds of all that occurs in it, at any depth.
-/

namespace OData.Expr

/-- Whether an expression stands somewhere in another. -/
inductive Occurs (inner : Expr) : Expr → Prop
  | self : Occurs inner inner
  | left {op : BinaryOperator} {left right : Expr} (inLeft : Occurs inner left) :
      Occurs inner (binary op left right)
  | right {op : BinaryOperator} {left right : Expr} (inRight : Occurs inner right) :
      Occurs inner (binary op left right)
  | operand {op : UnaryOperator} {operand : Expr} (inOperand : Occurs inner operand) :
      Occurs inner (unary op operand)
  | arg {name : String} {args : List Expr} {arg : Expr} (member : arg ∈ args)
      (inArg : Occurs inner arg) : Occurs inner (call name args)

end OData.Expr
