import OData.Decimal.Numeral
import OData.Text.Quoted

/-!
# Literals

The constants of filter expressions and the text that queries write for them.
-/

namespace OData

/-- A constant of a filter expression. -/
inductive Literal
  | string (value : String)
  | number (value : Decimal)
  | boolean (value : Bool)
  | null
deriving DecidableEq

namespace Literal

/-- The text of a literal in a query. -/
def written : Literal → String
  | string value => String.ofList (Text.quote value.toList)
  | number value => toString value
  | boolean value => if value then "true" else "false"
  | null => "null"

/-- Whether two literals are the same constant.  Numbers are compared by
value, however many fraction digits they are written with. -/
def same : Literal → Literal → Bool
  | string left, string right => left == right
  | number left, number right => left.same right
  | boolean left, boolean right => left == right
  | null, null => true
  | _, _ => false

@[simp]
theorem same_refl (literal : Literal) : literal.same literal = true := by
  cases literal <;> simp [same]

end Literal

end OData
