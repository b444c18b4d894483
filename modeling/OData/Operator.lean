/-!
# Operators

The operators of filter expressions, each with the word that queries and
serialized expressions use for it.  Binary operators form three families.
-/

namespace OData

/-- Operators between two operands. -/
inductive BinaryOperator
  | add
  | sub
  | mul
  | div
  | mod
  | and
  | or
  | eq
  | ne
  | gt
  | ge
  | lt
  | le
deriving DecidableEq, Repr

/-- What the operators of a family do: join truth values, compare two values,
or compute a number. -/
inductive OperatorFamily
  | logical
  | comparison
  | arithmetic
deriving DecidableEq, Repr

namespace BinaryOperator

/-- All binary operators. -/
def all : List BinaryOperator :=
  [add, sub, mul, div, mod, and, or, eq, ne, gt, ge, lt, le]

/-- The word for an operator. -/
def word : BinaryOperator → String
  | add => "add"
  | sub => "sub"
  | mul => "mul"
  | div => "div"
  | mod => "mod"
  | and => "and"
  | or => "or"
  | eq => "eq"
  | ne => "ne"
  | gt => "gt"
  | ge => "ge"
  | lt => "lt"
  | le => "le"

/-- The operator with this word. -/
def ofWord? (text : String) : Option BinaryOperator :=
  all.find? fun op => op.word == text

/-- The family of an operator. -/
def family : BinaryOperator → OperatorFamily
  | and | or => .logical
  | eq | ne | gt | ge | lt | le => .comparison
  | add | sub | mul | div | mod => .arithmetic

/-- Whether this is one of the six comparisons. -/
def isComparison (op : BinaryOperator) : Bool :=
  op.family == .comparison

/-- Whether this is one of the two connectives. -/
def isLogical (op : BinaryOperator) : Bool :=
  op.family == .logical

/-- Whether this computes a number. -/
def isArithmetic (op : BinaryOperator) : Bool :=
  op.family == .arithmetic

instance : ToString BinaryOperator :=
  ⟨word⟩

@[simp]
theorem ofWord?_word (op : BinaryOperator) : ofWord? op.word = some op := by
  cases op <;> decide

theorem family_eq_logical_iff {op : BinaryOperator} :
    op.family = .logical ↔ op ∈ [.and, .or] := by
  cases op <;> decide

theorem family_eq_comparison_iff {op : BinaryOperator} :
    op.family = .comparison ↔ op ∈ [.eq, .ne, .gt, .ge, .lt, .le] := by
  cases op <;> decide

theorem family_eq_arithmetic_iff {op : BinaryOperator} :
    op.family = .arithmetic ↔ op ∈ [.add, .sub, .mul, .div, .mod] := by
  cases op <;> decide

end BinaryOperator

/-- Operators in front of one operand: logical and arithmetic negation. -/
inductive UnaryOperator
  | not
  | neg
deriving DecidableEq, Repr

namespace UnaryOperator

/-- The word for an operator. -/
def word : UnaryOperator → String
  | not => "not"
  | neg => "neg"

/-- How a query writes the operator. -/
def sign : UnaryOperator → String
  | not => "not "
  | neg => "-"

/-- The operator with this word. -/
def ofWord? (text : String) : Option UnaryOperator :=
  [not, neg].find? fun op => op.word == text

instance : ToString UnaryOperator :=
  ⟨word⟩

end UnaryOperator

end OData
