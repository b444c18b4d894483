import OData.Literal

/-!
# Types

The types of filter expressions.  Truth values have two: `boolean` is the type
of comparisons and connectives, `booleanLiteral` that of the constants `true`
and `false` and of properties that hold a truth value.  Only a `boolean` can
be an operand of a connective, and each compares only with its own kind.
-/

namespace OData

/-- The type of a filter expression. -/
inductive Ty
  | number
  | string
  | boolean
  | booleanLiteral
  | null
deriving DecidableEq, Repr

namespace Ty

/-- All types. -/
def all : List Ty :=
  [number, string, boolean, booleanLiteral, null]

/-- The name of a type. -/
def name : Ty → String
  | number => "number"
  | string => "string"
  | boolean => "boolean"
  | booleanLiteral => "boolean_literal"
  | null => "null"

/-- The type with this name. -/
def ofName? (text : String) : Option Ty :=
  all.find? fun ty => ty.name == text

instance : ToString Ty :=
  ⟨name⟩

/-- The type of a property in an expression, given its type in the schema. -/
def ofProperty : Ty → Ty
  | boolean => booleanLiteral
  | ty => ty

end Ty

/-- The type of a constant. -/
def Literal.ty : Literal → Ty
  | string _ => .string
  | number _ => .number
  | boolean _ => .booleanLiteral
  | null => .null

end OData
