import OData.Expr.Basic

/-!
# Queries

A query holds what its six options say.  An option that was not given, or was
given blank, is absent: no filter, no number, an empty list.
-/

namespace OData

/-- Which way results are ordered by a property. -/
inductive Direction
  | asc
  | desc
deriving DecidableEq, Repr, Inhabited

namespace Direction

/-- The word for a direction. -/
def word : Direction → String
  | asc => "asc"
  | desc => "desc"

/-- The direction with this word. -/
def ofWord? (text : String) : Option Direction :=
  [asc, desc].find? fun direction => direction.word == text

instance : ToString Direction :=
  ⟨word⟩

end Direction

/-- A property to order by. -/
structure OrderTerm where
  path : Path
  direction : Direction
deriving DecidableEq

/-- What to return: all properties, or one. -/
inductive SelectTerm
  | wildcard
  | property (path : Path)
deriving DecidableEq

namespace SelectTerm

/-- The name of a term: a star, or the canonical name of its property. -/
def name : SelectTerm → String
  | wildcard => "*"
  | property path => path.canonical

instance : ToString SelectTerm :=
  ⟨name⟩

end SelectTerm

/-- What the options of a query say. -/
structure Query where
  filter : Option Expr
  orderBy : List OrderTerm
  top : Option Nat
  skip : Option Nat
  select : List SelectTerm
  expand : List Path

namespace Query

/-- Whether two filters are both absent, or agree with literals compared by
value. -/
def sameFilter : Option Expr → Option Expr → Bool
  | some left, some right => left.same right
  | none, none => true
  | _, _ => false

/-- Whether two queries are equal, with the literals of filters compared by
value. -/
def same (left right : Query) : Bool :=
  sameFilter left.filter right.filter && left.orderBy == right.orderBy &&
    left.top == right.top && left.skip == right.skip && left.select == right.select &&
    left.expand == right.expand

/-- Whether every option is absent. -/
def isEmpty (query : Query) : Bool :=
  query.filter.isNone && query.orderBy.isEmpty && query.top.isNone &&
    query.skip.isNone && query.select.isEmpty && query.expand.isEmpty

/-- The query without any option. -/
def empty : Query :=
  ⟨none, [], none, none, [], []⟩

@[simp]
theorem isEmpty_empty : empty.isEmpty = true :=
  rfl

theorem isEmpty_iff {query : Query} : query.isEmpty = true ↔ query = empty := by
  rcases query with ⟨filter, orderBy, top, skip, select, expand⟩
  simp [isEmpty, empty, and_assoc]

end Query

end OData
