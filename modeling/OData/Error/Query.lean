import OData.Error.Syntax
import OData.Error.Validation

/-!
# Query errors

Reading and checking a query in one go fails with an error of either phase.
-/

namespace OData

/-- An error of reading or of checking a query. -/
inductive QueryError
  | reading (error : SyntaxError)
  | checking (error : ValidationError)
deriving DecidableEq

namespace QueryError

/-- The option that an error is about. -/
def part : QueryError → Part
  | reading error => error.part
  | checking error => error.part

/-- Whether a text did not follow its grammar. -/
def isReading : QueryError → Bool
  | reading _ => true
  | checking _ => false

/-- Whether a query contradicted the model or exceeded a limit. -/
def isChecking : QueryError → Bool
  | reading _ => false
  | checking _ => true

/-- The full text of an error. -/
def description : QueryError → String
  | reading error => error.description
  | checking error => error.description

end QueryError

end OData
