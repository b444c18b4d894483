/-!
# Query options

A query has six options.  The order of `Part.all` is the order in which they
are read and checked everywhere, so it decides which of several faults is
reported.
-/

namespace OData

/-- One of the six options of a query. -/
inductive Part
  | filter
  | orderBy
  | top
  | skip
  | select
  | expand
deriving DecidableEq, Repr

namespace Part

/-- All options, in the order in which they are read and checked. -/
def all : List Part :=
  [filter, orderBy, top, skip, select, expand]

/-- The name of an option without its dollar sign. -/
def name : Part → String
  | filter => "filter"
  | orderBy => "orderby"
  | top => "top"
  | skip => "skip"
  | select => "select"
  | expand => "expand"

/-- The key of an option in a query string. -/
def key (part : Part) : String :=
  "$" ++ part.name

/-- The option with this key.  Keys are compared exactly. -/
def ofKey? (text : String) : Option Part :=
  all.find? fun part => part.key == text

/-- The option with this name. -/
def ofName? (text : String) : Option Part :=
  all.find? fun part => part.name == text

instance : ToString Part :=
  ⟨name⟩

theorem mem_all (part : Part) : part ∈ all := by
  cases part <;> decide

@[simp]
theorem ofKey?_key (part : Part) : ofKey? part.key = some part := by
  cases part <;> decide

end Part

end OData
