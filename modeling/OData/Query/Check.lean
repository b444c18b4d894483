import OData.Error.Query
import OData.Query.Reader
import OData.Query.Validation

/-!
# Reading and checking

The whole way from option texts to a query that a model agrees with.  Nothing
is checked before everything is read.
-/

namespace OData.Query

/-- Read a query and check it. -/
def readAndValidate (maxNesting : Nat) (model : Model) (limits : Limits)
    (options : Options) : Logged QueryError Query := do
  let query ← (read maxNesting options).mapError .reading
  (query.validate model limits).mapError .checking
  return query

end OData.Query
