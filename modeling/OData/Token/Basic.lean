import OData.Literal
import OData.Operator

/-!
# Tokens of filter expressions

A token has a kind, the text it was read from and the place of that text in
the source, in bytes.  Every token list ends with a token of kind `endOfInput`
whose text is empty.
-/

namespace OData

namespace Token

/-- What a token stands for. -/
inductive Kind
  | operator (op : BinaryOperator)
  | not
  | minus
  | path (text : String)
  | literal (value : Literal)
  | leftParen
  | rightParen
  | comma
  | endOfInput
deriving DecidableEq

namespace Kind

/-- The kind of a reserved word.  Reserved words are lowercase. -/
def ofWord? (word : String) : Option Kind :=
  match word with
  | "not" => some .not
  | "true" => some (.literal (.boolean true))
  | "false" => some (.literal (.boolean false))
  | "null" => some (.literal .null)
  | _ => (BinaryOperator.ofWord? word).map .operator

/-- Whether this is an operator that is written as a word. -/
def isKeyword : Kind → Bool
  | operator _ | not => true
  | _ => false

/-- Whether this is a constant. -/
def isLiteral : Kind → Bool
  | literal _ => true
  | _ => false

/-- Whether an operand can end here.  A minus after such a token is not the
sign of a number. -/
def endsOperand : Kind → Bool
  | literal _ | path _ | rightParen => true
  | _ => false

/-- How messages name a token of this kind. -/
def description : Kind → String
  | operator op => s!"'{op.word}'"
  | not => "'not'"
  | minus => "'-'"
  | path text => s!"identifier '{text}'"
  | literal (.string _) => "string literal"
  | literal (.number _) => "number literal"
  | literal (.boolean _) => "boolean literal"
  | literal .null => "'null'"
  | leftParen => "'('"
  | rightParen => "')'"
  | comma => "','"
  | endOfInput => "end of input"

end Kind

end Token

/-- A token with its text and the bytes of the source that it covers. -/
structure Token where
  kind : Token.Kind
  text : String
  start : Nat
  stop : Nat
deriving DecidableEq

end OData
