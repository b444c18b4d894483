import OData.Proofs.Query.Checking
import OData.Proofs.Schema.Registration
import OData.Proofs.Typing.Agreement

/-!
# What a query mentions

The verdict on a query depends on what its model says of the properties that
the query mentions and of the functions that it calls, and on nothing else in
the model.  So it stays the same under every registration of other names.
-/

namespace OData

namespace Query

/-- Whether a query mentions a property, in its filter or in one of its
lists. -/
inductive Mentions (query : Query) (path : Path) : Prop
  | filter {filter : Expr} (isFilter : query.filter = some filter)
      (occurs : Expr.Occurs (.property path) filter)
  | orderBy {term : OrderTerm} (member : term ∈ query.orderBy) (isPath : term.path = path)
  | select (member : .property path ∈ query.select)
  | expand (member : path ∈ query.expand)

/-- Whether the filter of a query calls a function. -/
def Calls (query : Query) (name : String) : Prop :=
  ∃ filter args, query.filter = some filter ∧ Expr.Occurs (.call name args) filter

/-- Whether two models say the same of everything that a query mentions. -/
structure Agree (model other : Model) (query : Query) : Prop where
  properties : ∀ path, query.Mentions path → model.SameProperty other path
  functions : ∀ name, query.Calls name → model.SameFunction other name

variable {model other : Model} {limits : Limits} {query : Query}

/-! ## Agreement of single checks -/

theorem Agree.filter {filter : Expr} (agree : Agree model other query)
    (isFilter : query.filter = some filter) : Expr.Agree model other filter where
  properties path occurs := agree.properties path (.filter isFilter occurs)
  functions name args occurs := agree.functions name ⟨filter, args, isFilter, occurs⟩

/-- A property is refused in the words of its model. -/
theorem told_checkPath (model : Model) (part : Part) (path : Path) :
    (checkPath model part path).mapError ValidationError.told =
      (((model.propertyType path).mapError LookupError.message).mapError (part, ·)).map
        fun _ => () := by
  unfold checkPath
  cases model.propertyType path with
  | error error => rfl
  | ok ty => rfl

theorem told_checkPath_congr {path : Path} (same : model.SameProperty other path) (part : Part) :
    (checkPath model part path).mapError ValidationError.told =
      (checkPath other part path).mapError ValidationError.told := by
  rw [told_checkPath, told_checkPath, same.propertyType]

theorem Agree.checkFilter (agree : Agree model other query) :
    (Query.checkFilter model query.filter).outcome.mapError ValidationError.told =
      (Query.checkFilter other query.filter).outcome.mapError ValidationError.told := by
  cases isFilter : query.filter with
  | none => rfl
  | some filter =>
      have inferred := (agree.filter isFilter).inferType
      rw [outcome_checkFilter, outcome_checkFilter, Except.mapError_bind, Except.mapError_bind,
        inferred]

theorem Agree.checkOrderBy (agree : Agree model other query) :
    (Query.checkOrderBy model query.orderBy).mapError ValidationError.told =
      (Query.checkOrderBy other query.orderBy).mapError ValidationError.told := by
  rw [Query.checkOrderBy, Query.checkOrderBy, Except.mapError_forM, Except.mapError_forM]
  apply Except.forM_congr
  intro term member
  exact told_checkPath_congr (agree.properties _ (.orderBy member rfl)) .orderBy

theorem Agree.checkSelect (agree : Agree model other query) :
    (Query.checkSelect model query.select).mapError ValidationError.told =
      (Query.checkSelect other query.select).mapError ValidationError.told := by
  rw [Query.checkSelect, Query.checkSelect, Except.mapError_forM, Except.mapError_forM]
  apply Except.forM_congr
  intro term member
  cases term with
  | wildcard => rfl
  | property path => exact told_checkPath_congr (agree.properties path (.select member)) .select

theorem Agree.checkExpand (agree : Agree model other query) :
    (Query.checkExpand model limits query.expand).mapError ValidationError.told =
      (Query.checkExpand other limits query.expand).mapError ValidationError.told := by
  rw [Query.checkExpand, Query.checkExpand, Except.mapError_forM, Except.mapError_forM]
  apply Except.forM_congr
  intro path member
  unfold checkExpandTerm
  cases exceededDepth? limits path with
  | some max => rfl
  | none => exact told_checkPath_congr (agree.properties path (.expand member)) .expand

/-- Every option gets the same verdict. -/
theorem Agree.checkPart (agree : Agree model other query) (part : Part) :
    (Query.checkPart model limits query part).mapError ValidationError.told =
      (Query.checkPart other limits query part).mapError ValidationError.told := by
  cases part with
  | filter => exact agree.checkFilter
  | orderBy => exact agree.checkOrderBy
  | top => rfl
  | skip => rfl
  | select => exact agree.checkSelect
  | expand => exact agree.checkExpand

/-! ## Whole queries -/

theorem Agree.validate (agree : Agree model other query) (limits : Limits) :
    (query.validate model limits).outcome.mapError ValidationError.told =
      (query.validate other limits).outcome.mapError ValidationError.told := by
  rw [outcome_validate, outcome_validate, Except.mapError_forM, Except.mapError_forM]
  apply Except.forM_congr
  intro part _
  exact agree.checkPart part

/-- Whether a registration is of nothing that a query mentions. -/
def IsUnmentioned (query : Query) (registration : Registration) : Prop :=
  (∀ path, query.Mentions path → ¬ registration.IsOfProperty path) ∧
    ∀ name, query.Calls name → ¬ registration.IsOfFunction name

/-- Registrations of other names change nothing that a query mentions. -/
theorem agree_registerAll {schema : Schema} {registrations : List Registration}
    (unmentioned : ∀ registration ∈ registrations, query.IsUnmentioned registration) :
    Agree (schema.registerAll registrations).toModel schema.toModel query where
  properties path mentions := by
    have others : ∀ registration ∈ registrations, ¬ registration.IsOfProperty path :=
      fun registration member => (unmentioned registration member).1 path mentions
    exact ⟨congrArg _ (Schema.propertyType_registerAll others),
      Schema.isCollection_registerAll others⟩
  functions name calls types := by
    have others : ∀ registration ∈ registrations, ¬ registration.IsOfFunction name :=
      fun registration member => (unmentioned registration member).2 name calls
    exact congrArg _ (Schema.resultType_registerAll others types)

/-- Models that agree on what a query mentions give it the same verdict, in the
same words, and its filter the same type.  Under a schema no registration of
anything else changes the verdict. -/
theorem told_validate_of_agree (query : Query) :
    (∀ model other : Model, Agree model other query →
      (∀ limits, (query.validate model limits).outcome.mapError ValidationError.told =
        (query.validate other limits).outcome.mapError ValidationError.told) ∧
      ∀ filter, query.filter = some filter →
        (filter.inferType model).mapError ValidationError.told =
          (filter.inferType other).mapError ValidationError.told) ∧
    ∀ (schema : Schema) (registrations : List Registration),
      (∀ registration ∈ registrations, query.IsUnmentioned registration) →
      ∀ limits,
        (query.validate (schema.registerAll registrations).toModel limits).outcome.mapError
            ValidationError.told =
          (query.validate schema.toModel limits).outcome.mapError ValidationError.told := by
  constructor
  · intro model other agree
    exact ⟨agree.validate, fun filter isFilter => (agree.filter isFilter).inferType⟩
  · intro schema registrations unmentioned limits
    exact (agree_registerAll unmentioned).validate limits

theorem told_validate_among_similar_names :
    let name : Path := ⟨["user", "name"], by decide, by decide⟩
    let query : Query := { Query.empty with
      filter := some (.binary .eq (.property name) (.literal .null)),
      orderBy := [⟨name, .asc⟩] }
    let schema := ({} : Schema).addProperty "user/name" .string
    let registrations : List Registration :=
      [.property "user/name/first" .number, .collection "User.name" .string, .standard]
    (∀ registration ∈ registrations, query.IsUnmentioned registration) ∧
      (query.validate (schema.registerAll registrations).toModel {}).outcome.mapError
          ValidationError.told =
        (query.validate schema.toModel {}).outcome.mapError ValidationError.told := by
  intro name query schema registrations
  have onlyName : ∀ path, query.Mentions path → path = name := by
    rintro path (⟨⟨⟩, occurs⟩ | ⟨member, rfl⟩ | member | member)
    · cases occurs with
      | left inLeft => cases inLeft; rfl
      | right inRight => cases inRight
    · cases List.mem_singleton.mp member
      rfl
    · cases member
    · cases member
  have noCalls : ∀ other, ¬ query.Calls other := by
    rintro other ⟨_, args, ⟨⟩, occurs⟩
    cases occurs with
    | left inLeft => cases inLeft
    | right inRight => cases inRight
  have first : Schema.dotted "user/name/first" ≠ name.canonical := by decide
  have second : Schema.dotted "User.name" ≠ name.canonical := by decide
  have others : ∀ registration ∈ registrations, ¬ registration.IsOfProperty name :=
    List.forall_mem_cons.mpr ⟨first, List.forall_mem_cons.mpr ⟨second,
      List.forall_mem_singleton.mpr not_false⟩⟩
  have unmentioned : ∀ registration ∈ registrations, query.IsUnmentioned registration := by
    intro registration member
    refine ⟨fun path mentions => ?_, fun other calls => absurd calls (noCalls other)⟩
    rw [onlyName path mentions]
    exact others registration member
  exact ⟨unmentioned, (told_validate_of_agree query).2 schema registrations unmentioned {}⟩

end Query

end OData
