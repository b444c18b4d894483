import OData.Literal
import OData.Operator
import OData.Path

/-!
# Filter expressions

The tree of a filter.  `depth` measures its nesting; `same` compares two trees
node by node with literals compared by value, so `1.0` and `1.00` are the same
constant.
-/

namespace OData

/-- A filter expression. -/
inductive Expr
  | binary (op : BinaryOperator) (left right : Expr)
  | unary (op : UnaryOperator) (operand : Expr)
  | call (name : String) (args : List Expr)
  | property (path : Path)
  | literal (value : Literal)

namespace Expr

/-- What serialized expressions call the node at the root. -/
def typeName : Expr → String
  | binary op _ _ => op.word
  | unary op _ => op.word
  | call _ _ => "function"
  | property _ => "property"
  | literal _ => "literal"

/-! ## Nesting -/

mutual

/-- The number of nodes on the longest way down from the root. -/
def depth : Expr → Nat
  | binary _ left right => 1 + max left.depth right.depth
  | unary _ operand => 1 + operand.depth
  | call _ args => 1 + maxDepth args
  | property _ => 1
  | literal _ => 1

/-- The depth of the deepest of several expressions, or zero. -/
def maxDepth : List Expr → Nat
  | [] => 0
  | arg :: args => max arg.depth (maxDepth args)

end

theorem depth_pos (expr : Expr) : 0 < expr.depth := by
  cases expr <;> simp only [depth] <;> omega

/-! ## Comparing -/

mutual

/-- Whether two trees agree in every node, with literals compared by value. -/
def same : Expr → Expr → Bool
  | binary op left right, binary op' left' right' =>
      op == op' && left.same left' && right.same right'
  | unary op operand, unary op' operand' => op == op' && operand.same operand'
  | call name args, call name' args' => name == name' && sameAll args args'
  | property path, property path' => path == path'
  | literal value, literal value' => value.same value'
  | _, _ => false

/-- Whether two lists of trees agree place by place. -/
def sameAll : List Expr → List Expr → Bool
  | [], [] => true
  | arg :: args, arg' :: args' => arg.same arg' && sameAll args args'
  | _, _ => false

end

end Expr

end OData
