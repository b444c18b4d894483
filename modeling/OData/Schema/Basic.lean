import OData.Schema.Standard
import OData.Typing.Model

/-!
# Schemas

A schema is a model that is built by registering names.  Properties are known
by their dotted names, whichever way they were registered; a later type for a
name replaces an earlier one, while a name once registered as a collection
stays one.  Functions keep every signature, and the first that accepts the
arguments of a call decides.
-/

namespace OData

/-- Registered names.  Properties stand with the latest first, functions in
the order of their registration. -/
structure Schema where
  properties : List (String × Ty) := []
  collections : List String := []
  functions : List (String × Signature) := []

namespace Schema

/-- A path with dots for slashes. -/
def dotted (path : String) : String :=
  String.ofList (path.toList.map fun c => if c = '/' then '.' else c)

/-! ## Registering -/

/-- Register a property, written with slashes or dots. -/
def addProperty (schema : Schema) (path : String) (ty : Ty) : Schema :=
  { schema with properties := (dotted path, ty) :: schema.properties }

/-- Register a property that is a collection of values of a type. -/
def addCollection (schema : Schema) (path : String) (ty : Ty) : Schema :=
  { schema.addProperty path ty with
    collections := dotted path :: schema.collections }

/-- Register a signature of a function. -/
def addFunction (schema : Schema) (name : String) (signature : Signature) : Schema :=
  { schema with functions := schema.functions ++ [(name, signature)] }

/-- Register the standard functions. -/
def addStandard (schema : Schema) : Schema :=
  { schema with functions := schema.functions ++ Standard.functions }

/-! ## Answering -/

/-- The type of a property. -/
def propertyType (schema : Schema) (path : Path) : Except LookupError Ty :=
  match schema.properties.lookup path.canonical with
  | some ty => .ok ty
  | none => .error (.unknownProperty path)

/-- Whether a property is a collection. -/
def isCollection (schema : Schema) (path : Path) : Bool :=
  schema.collections.contains path.canonical

/-- The signatures of a function, the earliest first. -/
def signatures (schema : Schema) (name : String) : List Signature :=
  (schema.functions.filter fun entry => entry.1 == name).map Prod.snd

/-- The type of the result of a call. -/
def resultType (schema : Schema) (name : String) (args : List Ty) :
    Except LookupError Ty :=
  match schema.signatures name with
  | [] => .error (.unknownFunction name)
  | overloads =>
      match overloads.find? (·.accepts args) with
      | some signature => .ok signature.result
      | none => .error (.noOverload name args)

/-- The schema as a model. -/
def toModel (schema : Schema) : Model where
  propertyType := schema.propertyType
  isCollection := schema.isCollection
  resultType := schema.resultType

end Schema

end OData
