import OData.Part
import OData.Token.Basic

/-!
# Syntax errors

The text of an option does not follow the grammar of that option.  An error
names its cause; `Cause.message` gives the wording.  Errors of the integer
options carry no offset, all others point at a byte of the text.
-/

namespace OData

namespace SyntaxError

/-- Why a text was refused. -/
inductive Cause
  | unexpectedCharacter (c : Char)
  | missingSegment
  | unterminatedString
  | malformedNumber (text : String)
  | unexpectedEnd
  | notAnOperand (found : Token.Kind)
  | expected (wanted found : Token.Kind)
  | leftover (found : Token.Kind)
  | chainedComparison
  | nestedTooDeeply
  | invalidFunctionName (name : String)
  | invalidPath (text : String)
  | invalidOrdering (term : String)
  | invalidSelection (term : String)
  | invalidExpansion (term : String)
  | notAnInteger (text : String)
  | zeroTop
  | custom (message : String)
deriving DecidableEq

/-- The wording of a cause. -/
def Cause.message : Cause → String
  | unexpectedCharacter c => s!"unexpected character '{c}'"
  | missingSegment => "expected a path segment after '/'"
  | unterminatedString => "unterminated string literal"
  | malformedNumber text => s!"malformed number '{text}'"
  | unexpectedEnd => "unexpected end of input"
  | notAnOperand found => s!"expected an operand, found {found.description}"
  | expected wanted found =>
      s!"expected {wanted.description}, found {found.description}"
  | leftover found => s!"unexpected {found.description} after complete expression"
  | chainedComparison =>
      "chained comparison operators are not allowed without parentheses"
  | nestedTooDeeply => "expression nested too deeply"
  | invalidFunctionName name => s!"invalid function name '{name}'"
  | invalidPath text => s!"invalid property path '{text}'"
  | invalidOrdering term => s!"invalid ordering '{term}'"
  | invalidSelection term => s!"invalid selection '{term}'"
  | invalidExpansion term => s!"invalid expansion '{term}'"
  | notAnInteger text => s!"'{text}' is not a non-negative integer"
  | zeroTop => "top must be a positive integer"
  | custom message => message

end SyntaxError

/-- The text of an option does not follow its grammar.  The offset counts
bytes of that text. -/
structure SyntaxError where
  part : Part
  offset : Option Nat
  cause : SyntaxError.Cause
deriving DecidableEq

namespace SyntaxError

/-- What went wrong, without the option. -/
def message (error : SyntaxError) : String :=
  error.cause.message

/-- The full text of an error. -/
def description (error : SyntaxError) : String :=
  s!"Unable to parse {error.part} setting: {error.message}"

end SyntaxError

end OData
