import OData.Typing.Ty

/-!
# Standard functions

The functions every service has, with the types that they take and give.
-/

namespace OData

/-- One way to call a function: the types of its arguments and of its
result. -/
structure Signature where
  params : List Ty
  result : Ty
deriving DecidableEq, Repr

namespace Signature

/-- Whether a call with arguments of these types is meant. -/
def accepts (signature : Signature) (args : List Ty) : Bool :=
  signature.params = args

end Signature

namespace Standard

/-- The names of the standard functions. -/
def names : List String :=
  ["contains", "startswith", "endswith", "substringof", "length", "indexof",
    "tolower", "toupper", "trim", "concat", "substring", "round", "floor",
    "ceiling"]

/-- The signatures of a standard function. -/
def signatures? (name : String) : Option (List Signature) :=
  match name with
  | "contains" | "startswith" | "endswith" | "substringof" =>
      some [⟨[.string, .string], .boolean⟩]
  | "length" => some [⟨[.string], .number⟩]
  | "indexof" => some [⟨[.string, .string], .number⟩]
  | "tolower" | "toupper" | "trim" => some [⟨[.string], .string⟩]
  | "concat" => some [⟨[.string, .string], .string⟩]
  | "substring" =>
      some [⟨[.string, .number], .string⟩, ⟨[.string, .number, .number], .string⟩]
  | "round" | "floor" | "ceiling" => some [⟨[.number], .number⟩]
  | _ => none

/-- Every standard function with each of its signatures. -/
def functions : List (String × Signature) :=
  names.flatMap fun name => ((signatures? name).getD []).map fun signature => (name, signature)

end Standard

end OData
