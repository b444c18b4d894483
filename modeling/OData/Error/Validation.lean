import OData.Operator
import OData.Part
import OData.Typing.Model

/-!
# Validation errors

A query that follows the grammar can still contradict the model it is checked
against, or exceed a limit.  As for syntax errors, an error names its cause
and `Cause.message` gives the wording.
-/

namespace OData

namespace ValidationError

/-- Why a query was refused. -/
inductive Cause
  | logicalOperand
  | arithmetic
  | collectionOperand
  | notComparable (left : Ty) (op : BinaryOperator) (right : Ty)
  | lookup (error : LookupError)
  | notBoolean
  | zeroTop
  | topTooLarge (max : Nat)
  | expansionTooDeep (path : Path) (max : Nat)
  | custom (message : String)
deriving DecidableEq

/-- The wording of a cause. -/
def Cause.message : Cause → String
  | logicalOperand => "Logical expression operand is not a boolean"
  | arithmetic => "Arithmetic expressions not supported"
  | collectionOperand =>
      "Cannot have property within array as the right operand of a comparison"
  | notComparable left op right =>
      s!"Cannot compare {left.name} {op.word} {right.name}"
  | lookup error => error.message
  | notBoolean => "Expression does not resolve to a boolean"
  | zeroTop => "Top must be a positive integer"
  | topTooLarge max => s!"Top must not exceed {max}"
  | expansionTooDeep path max =>
      s!"Expansion '{path.canonical}' exceeds the maximum depth of {max}"
  | custom message => message

end ValidationError

/-- A query contradicts the model or exceeds a limit. -/
structure ValidationError where
  part : Part
  cause : ValidationError.Cause
deriving DecidableEq

namespace ValidationError

/-- What went wrong, without the option. -/
def message (error : ValidationError) : String :=
  error.cause.message

/-- The full text of an error. -/
def description (error : ValidationError) : String :=
  s!"Invalid {error.part} setting: {error.message}"

end ValidationError

end OData
