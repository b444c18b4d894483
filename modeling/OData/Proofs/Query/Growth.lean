import OData.Proofs.Query.Support
import OData.Proofs.Schema.History
import OData.Proofs.Typing.Extension

/-!
# Growing schemas

A schema grows by new signatures and by properties whose names are still free.
No such registration changes an answer that was given: a property with an
answer has a name that is not free, and a new signature stands behind those
that decided before.  So the grown schema extends the one it came from, and a
query that passed under the one passes under the other.
-/

namespace OData

namespace Schema

/-- Whether a registration is of a function, or of a property whose name is
free. -/
def IsFresh (schema : Schema) : Registration → Prop
  | .property name _ | .collection name _ => schema.properties.lookup (dotted name) = none
  | .function _ _ | .standard => True

/-- Whether a schema comes from another by fresh registrations. -/
inductive Grows (schema : Schema) : Schema → Prop
  | refl : Grows schema schema
  | register {grown : Schema} {registration : Registration} (grows : Grows schema grown)
      (fresh : grown.IsFresh registration) : Grows schema (grown.register registration)

variable {schema grown : Schema} {registration : Registration} {path : Path} {ty : Ty}

/-- No fresh registration is of a property with a type. -/
theorem IsFresh.not_isOfProperty (fresh : schema.IsFresh registration)
    (known : schema.propertyType path = .ok ty) : ¬ registration.IsOfProperty path := by
  intro isOf
  have free : schema.properties.lookup path.canonical = none := by
    cases registration with
    | property name => exact isOf ▸ fresh
    | collection name => exact isOf ▸ fresh
    | function => exact absurd isOf id
    | standard => exact absurd isOf id
  rw [propertyType, free] at known
  cases known

/-- A fresh registration keeps every answer. -/
theorem extends_register (fresh : schema.IsFresh registration) :
    (schema.register registration).toModel.Extends schema.toModel where
  propertyType _ _ known := (propertyType_register (fresh.not_isOfProperty known)).trans known
  isCollection _ _ known := isCollection_register (fresh.not_isOfProperty known)
  resultType _ _ _ known := resultType_registerAll_of_eq_ok known [registration]

/-- So does growing by any number of them. -/
theorem Grows.extends (grows : Grows schema grown) : grown.toModel.Extends schema.toModel := by
  induction grows with
  | refl => exact .refl _
  | register _ fresh ih => exact (extends_register fresh).trans ih

end Schema

namespace Query

variable {larger model : Model} {limits : Limits} {query : Query}

theorem Knows.extend {path : Path} (known : Knows model path) (extension : larger.Extends model) :
    Knows larger path := by
  rcases known with ⟨ty, typed⟩
  exact ⟨ty, extension.propertyType path ty typed⟩

theorem inferType_of_extends (extension : larger.Extends model) {expr : Expr} {ty : Ty}
    (inferred : expr.inferType model = .ok ty) : expr.inferType larger = .ok ty := by
  rw [Expr.inferType_eq_ok_iff] at inferred ⊢
  exact inferred.extend extension

/-- An option that meets its condition meets it in every extension. -/
theorem Meets.extend {part : Part} (meets : query.Meets model limits part)
    (extension : larger.Extends model) : query.Meets larger limits part := by
  cases part with
  | filter => exact fun filter isFilter => inferType_of_extends extension (meets filter isFilter)
  | orderBy => exact fun term member => (meets term member).extend extension
  | top => exact meets
  | skip => exact meets
  | select => exact fun path member => (meets path member).extend extension
  | expand =>
      exact fun path member => ⟨(meets path member).1, (meets path member).2.extend extension⟩

theorem top_ne_zero_of_validate (passed : (query.validate model limits).outcome = .ok ()) :
    query.top ≠ some 0 := by
  intro isZero
  rw [outcome_validate, Part.forM_all_eq_ok_iff] at passed
  have checked := passed .top
  rw [checkPart, isZero] at checked
  cases checked

/-- A query that passes under a model passes under every extension. -/
theorem validate_of_extends (extension : larger.Extends model)
    (passed : (query.validate model limits).outcome = .ok ()) :
    (query.validate larger limits).outcome = .ok () := by
  have nonzero := top_ne_zero_of_validate passed
  rw [validate_eq_ok_iff nonzero] at passed ⊢
  exact fun part => (passed part).extend extension

/-- A query that passes under a schema passes under every schema that it grows
to, and every part of its filter keeps its type. -/
theorem validate_of_grows {schema grown : Schema} (grows : schema.Grows grown) (limits : Limits)
    (query : Query) (passed : (query.validate schema.toModel limits).outcome = .ok ()) :
    (query.validate grown.toModel limits).outcome = .ok () ∧
      ∀ filter, query.filter = some filter → ∀ inner, Expr.Occurs inner filter →
        ∃ ty, inner.inferType schema.toModel = .ok ty ∧ inner.inferType grown.toModel = .ok ty := by
  refine ⟨validate_of_extends grows.extends passed, ?_⟩
  intro filter isFilter inner occurs
  have isBoolean := inferType_of_validate passed isFilter
  rw [Expr.inferType_eq_ok_iff] at isBoolean
  rcases isBoolean.exists_of_occurs occurs with ⟨ty, hasType⟩
  have inferred := (Expr.inferType_eq_ok_iff inner ty).mpr hasType
  exact ⟨ty, inferred, inferType_of_extends grows.extends inferred⟩

theorem validate_of_grows_by_overload_and_collection :
    let schema := ({} : Schema).addStandard.addProperty "user.name" .string
    let grown := (schema.addFunction "length" ⟨[.string], .null⟩).addCollection "user/tags" .string
    let length : Expr := .call "length" [.property ⟨["user", "name"], by decide, by decide⟩]
    let query : Query := { Query.empty with
      filter := some (.unary .not (.binary .gt length length)) }
    schema.Grows grown ∧ (query.validate schema.toModel {}).outcome = .ok () ∧
      (query.validate grown.toModel {}).outcome = .ok () ∧
      Expr.Occurs length (.unary .not (.binary .gt length length)) ∧
      ∃ ty, length.inferType schema.toModel = .ok ty ∧ length.inferType grown.toModel = .ok ty := by
  intro schema grown length query
  let overload : Registration := .function "length" ⟨[.string], .null⟩
  let collection : Registration := .collection "user/tags" .string
  have free : (schema.register overload).IsFresh collection := rfl
  have overloaded : schema.Grows (schema.register overload) := .register .refl trivial
  have grows : schema.Grows grown := .register overloaded free
  have passed : (query.validate schema.toModel {}).outcome = .ok () := rfl
  have occurs : Expr.Occurs length (.unary .not (.binary .gt length length)) :=
    .operand (.left .self)
  have stays := validate_of_grows grows {} query passed
  exact ⟨grows, passed, stays.1, occurs, stays.2 _ rfl length occurs⟩

end Query

end OData
