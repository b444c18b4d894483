import OData.Decimal.Double
import OData.Query.Basic

/-!
# Serialized queries

A query as a document of nested objects.  Every node of an expression is an
object whose `type` tells what the other fields are.  A number that is an
integer of 64 bits stays an integer, whatever its fraction digits; any other
becomes a double, which the document holds by its bits.
-/

namespace OData

/-- A value in a serialized query. -/
inductive Document
  | null
  | boolean (value : Bool)
  | integer (value : Int)
  | double (bits : UInt64)
  | string (value : String)
  | array (items : List Document)
  | object (fields : List (String × Document))

/-- Whether an integer is one of 64 bits in two's complement. -/
def fitsInt64 (n : Int) : Bool :=
  -9223372036854775808 ≤ n && n ≤ 9223372036854775807

/-- A number as an integer if it is one of 64 bits, otherwise as a double. -/
def Decimal.document (d : Decimal) : Document :=
  match d.toInt?.filter fitsInt64 with
  | some n => .integer n
  | none => .double d.toDouble.toBits

/-- The value of a literal. -/
def Literal.document : Literal → Document
  | string value => .string value
  | number value => value.document
  | boolean value => .boolean value
  | null => .null

/-- A path by its canonical name. -/
def Path.document (path : Path) : Document :=
  .string path.canonical

namespace Expr

mutual

/-- The object for an expression. -/
def document : Expr → Document
  | binary op left right =>
      .object [("type", .string op.word), ("left", left.document), ("right", right.document)]
  | unary op operand =>
      .object [("type", .string op.word), ("child", operand.document)]
  | call name args =>
      .object [("type", .string "function"), ("function", .string name),
        ("params", .array (documents args))]
  | property path => .object [("type", .string "property"), ("value", path.document)]
  | literal value => .object [("type", .string "literal"), ("value", value.document)]

/-- The objects for several expressions. -/
def documents : List Expr → List Document
  | [] => []
  | arg :: args => arg.document :: documents args

end

end Expr

/-- The object for a term to order by. -/
def OrderTerm.document (term : OrderTerm) : Document :=
  .object [("property", term.path.document), ("direction", .string term.direction.word)]

/-- A term to select by its name. -/
def SelectTerm.document (term : SelectTerm) : Document :=
  .string term.name

/-- A number that may be absent. -/
def Document.ofNat? : Option Nat → Document
  | some n => .integer n
  | none => .null

/-- The object for a query. -/
def Query.document (query : Query) : Document :=
  .object [
    ("filter", (query.filter.map Expr.document).getD .null),
    ("orderby", .array (query.orderBy.map OrderTerm.document)),
    ("top", .ofNat? query.top),
    ("skip", .ofNat? query.skip),
    ("select", .array (query.select.map SelectTerm.document)),
    ("expand", .array (query.expand.map Path.document))]

end OData
