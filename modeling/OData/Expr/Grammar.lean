import OData.Expr.Reader

/-!
# The grammar of expressions

Which lists of kinds are expressions, said apart from how they are read.  A
phrase is a list of kinds with the tree that it stands for and the nesting
that it needs; `Derives` tells the phrases of each precedence rank.  A chain
folds to the left, parentheses leave no node, and a comparison has one
operator at most.

The nesting of a phrase is what a reader has to have in its budget: operands
beside one another need no more than the deepest of them, but the operand
after the n-th operator of a chain stands n levels deeper.
-/

namespace OData.Expr

open Token (Kind)

/-- Precedence ranks, the weakest first. -/
inductive Rank
  | disjunction
  | conjunction
  | comparison
  | sum
  | product
  | prefixed
  | operand
deriving DecidableEq, Repr

/-- For a rank of chains its operators and the rank of its operands. -/
def Rank.chain? : Rank → Option (List BinaryOperator × Rank)
  | disjunction => some ([.or], conjunction)
  | conjunction => some ([.and], comparison)
  | sum => some ([.add, .sub], product)
  | product => some ([.mul, .div, .mod], prefixed)
  | comparison | prefixed | operand => none

/-- A list of kinds, its tree and the nesting that it needs. -/
structure Phrase where
  kinds : List Kind
  expr : Expr
  nesting : Nat

/-- The nesting of a chain with operands of these nestings. -/
def chainNesting : List Nat → Nat
  | [] => 0
  | [nesting] => nesting
  | nesting :: nestings => max nesting (chainNesting nestings + 1)

/-- The largest nesting, or zero. -/
def largestNesting : List Nat → Nat
  | [] => 0
  | nesting :: nestings => max nesting (largestNesting nestings)

namespace Phrase

/-- A phrase followed by more operands, each after its operator. -/
def chain (first : Phrase) (others : List (BinaryOperator × Phrase)) : Phrase where
  kinds := first.kinds ++ others.flatMap fun other => .operator other.1 :: other.2.kinds
  expr := others.foldl (fun left other => .binary other.1 left other.2.expr) first.expr
  nesting := chainNesting (first.nesting :: others.map fun other => other.2.nesting)

/-- Two phrases with a comparison between them. -/
def compare (left : Phrase) (op : BinaryOperator) (right : Phrase) : Phrase where
  kinds := left.kinds ++ .operator op :: right.kinds
  expr := .binary op left.expr right.expr
  nesting := max left.nesting right.nesting

/-- A phrase after a prefix operator. -/
def prefixed (kind : Kind) (op : UnaryOperator) (inner : Phrase) : Phrase where
  kinds := kind :: inner.kinds
  expr := .unary op inner.expr
  nesting := inner.nesting + 1

/-- A phrase in parentheses. -/
def parenthesized (inner : Phrase) : Phrase where
  kinds := .leftParen :: inner.kinds ++ [.rightParen]
  expr := inner.expr
  nesting := inner.nesting + 1

/-- A call with these arguments. -/
def call (name : String) (args : List Phrase) : Phrase where
  kinds :=
    .path name :: .leftParen :: [Kind.comma].intercalate (args.map kinds) ++ [.rightParen]
  expr := .call name (args.map expr)
  nesting := largestNesting (args.map nesting) + 1

end Phrase

/-- The phrases of a rank. -/
inductive Derives : Rank → Phrase → Prop
  | chain {rank operands : Rank} {ops : List BinaryOperator} {first : Phrase}
      {others : List (BinaryOperator × Phrase)}
      (isChain : rank.chain? = some (ops, operands))
      (operators : ∀ other ∈ others, other.1 ∈ ops)
      (start : Derives operands first)
      (rest : ∀ other ∈ others, Derives operands other.2) :
      Derives rank (first.chain others)
  | uncompared {phrase : Phrase} (sum : Derives .sum phrase) : Derives .comparison phrase
  | compared {left right : Phrase} {op : BinaryOperator} (isComparison : op.isComparison)
      (leftSum : Derives .sum left) (rightSum : Derives .sum right) :
      Derives .comparison (left.compare op right)
  | bare {phrase : Phrase} (operand : Derives .operand phrase) : Derives .prefixed phrase
  | prefixed {kind : Kind} {op : UnaryOperator} {inner : Phrase}
      (isPrefix : prefixOperator? kind = some op) (prefixed : Derives .prefixed inner) :
      Derives .prefixed (inner.prefixed kind op)
  | parenthesized {inner : Phrase} (any : Derives .disjunction inner) :
      Derives .operand inner.parenthesized
  | call {name : String} {args : List Phrase} (isSimple : '/' ∉ name.toList)
      (any : ∀ arg ∈ args, Derives .disjunction arg) :
      Derives .operand (.call name args)
  | property {text : String} {path : Path} (isPath : Path.read? text = some path) :
      Derives .operand ⟨[.path text], .property path, 0⟩
  | literal (value : Literal) :
      Derives .operand ⟨[.literal value], .literal value, 0⟩

/-- Whether a list of kinds is an expression with this tree. -/
def Denotes (kinds : List Kind) (expr : Expr) : Prop :=
  ∃ nesting, Derives .disjunction ⟨kinds, expr, nesting⟩

end OData.Expr
