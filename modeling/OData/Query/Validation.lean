import OData.Logged
import OData.Query.Basic
import OData.Typing.Inference

/-!
# Checking queries

A query is checked against a model and limits, option by option in the order of
`Part.all`.  The filter has to be a truth value, every property has to be
known, and the numbers and expansions have to stay within the limits.  The
first fault decides the error.
-/

namespace OData

/-- Limits on queries.  A limit that is not given does not restrict. -/
structure Limits where
  maxTop : Option Nat := none
  maxExpandDepth : Option Nat := none
deriving DecidableEq

namespace Query

/-- Refuse a property that the model does not know. -/
def checkPath (model : Model) (part : Part) (path : Path) : Except ValidationError Unit :=
  match model.propertyType path with
  | .ok _ => .ok ()
  | .error error => .error ⟨part, .lookup error⟩

/-- Check a filter.  Its type is told even if it is refused for it. -/
def checkFilter (model : Model) : Option Expr → Logged ValidationError Unit
  | none => pure ()
  | some filter => do
      let ty ← Logged.ofExcept (filter.inferType model)
      Logged.tell (.inferredType ty)
      if ty = .boolean then
        pure ()
      else
        Logged.ofExcept (.error ⟨.filter, .notBoolean⟩)

/-- Check the terms to order by. -/
def checkOrderBy (model : Model) (terms : List OrderTerm) : Except ValidationError Unit :=
  terms.forM fun term => checkPath model .orderBy term.path

/-- Check how many results to return. -/
def checkTop (limits : Limits) : Option Nat → Except ValidationError Unit
  | none => .ok ()
  | some top =>
      if top = 0 then
        .error ⟨.top, .zeroTop⟩
      else
        match limits.maxTop with
        | none => .ok ()
        | some max => if max < top then .error ⟨.top, .topTooLarge max⟩ else .ok ()

/-- Check a term to select.  A star selects what there is. -/
def checkSelectTerm (model : Model) : SelectTerm → Except ValidationError Unit
  | .wildcard => .ok ()
  | .property path => checkPath model .select path

/-- Check the terms to select. -/
def checkSelect (model : Model) (terms : List SelectTerm) : Except ValidationError Unit :=
  terms.forM (checkSelectTerm model)

/-- The depth that is allowed, if an expansion goes deeper. -/
def exceededDepth? (limits : Limits) (path : Path) : Option Nat :=
  limits.maxExpandDepth.filter (· < path.depth)

/-- Check a path to expand, its depth before its name. -/
def checkExpandTerm (model : Model) (limits : Limits) (path : Path) :
    Except ValidationError Unit :=
  match exceededDepth? limits path with
  | some max => .error ⟨.expand, .expansionTooDeep path max⟩
  | none => checkPath model .expand path

/-- Check the paths to expand. -/
def checkExpand (model : Model) (limits : Limits) (paths : List Path) :
    Except ValidationError Unit :=
  paths.forM (checkExpandTerm model limits)

/-- Check the options one after the other. -/
def checkOptions (model : Model) (limits : Limits) (query : Query) :
    Logged ValidationError Unit := do
  checkFilter model query.filter
  Logged.tell (.checkedOption .filter)
  Logged.ofExcept (checkOrderBy model query.orderBy)
  Logged.tell (.checkedOption .orderBy)
  Logged.ofExcept (checkTop limits query.top)
  Logged.tell .checkedPaging
  Logged.ofExcept (checkSelect model query.select)
  Logged.tell (.checkedOption .select)
  Logged.ofExcept (checkExpand model limits query.expand)
  Logged.tell (.checkedOption .expand)

/-- Check a query and tell of a failure. -/
def validate (model : Model) (limits : Limits) (query : Query) :
    Logged ValidationError Unit :=
  (checkOptions model limits query).conclude fun
    | .ok _ => []
    | .error error => [.failedCheck error.part error.message]

end Query

end OData
