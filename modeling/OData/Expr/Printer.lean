import OData.Expr.Basic

/-!
# Writing expressions

`write` gives an expression the form of a query.  Every binary operation
stands in parentheses and so does every operand of a prefix operator, so the
text does not depend on how strongly operators bind.
-/

namespace OData.Expr

mutual

/-- The expression as a query writes it. -/
def write : Expr → String
  | binary op left right => "(" ++ left.write ++ " " ++ op.word ++ " " ++ right.write ++ ")"
  | unary op operand => op.sign ++ "(" ++ operand.write ++ ")"
  | call name args => name ++ "(" ++ writeArgs args ++ ")"
  | property path => path.written
  | literal value => value.written

/-- Arguments with a comma and a space between any two. -/
def writeArgs : List Expr → String
  | [] => ""
  | [arg] => arg.write
  | arg :: args => arg.write ++ ", " ++ writeArgs args

end

instance : ToString Expr :=
  ⟨write⟩

end OData.Expr
