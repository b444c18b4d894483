import OData.Path
import OData.Typing.Ty

/-!
# Data models

A model says what the names in a query mean: the type of a property, whether
it is a collection, and the type of the result of a function for given types
of arguments.  Queries are checked against any model; a `Schema` is one that
is built by registering names.
-/

namespace OData

/-- Why a model has no answer. -/
inductive LookupError
  | unknownProperty (path : Path)
  | unknownFunction (name : String)
  | noOverload (name : String) (args : List Ty)
  | custom (message : String)
deriving DecidableEq

/-- The wording of a missing answer. -/
def LookupError.message : LookupError → String
  | unknownProperty path => s!"Unknown property '{path.canonical}'"
  | unknownFunction name => s!"Unknown function '{name}'"
  | noOverload name args =>
      let types := ", ".intercalate (args.map Ty.name)
      s!"No overload of '{name}' accepts ({types})"
  | custom message => message

/-- What the names in a query mean. -/
structure Model where
  propertyType : Path → Except LookupError Ty
  isCollection : Path → Bool := fun _ => false
  resultType : String → List Ty → Except LookupError Ty

end OData
