import OData.Proofs.Schema.History

/-!
# Marks of collections

Registering a collection marks the name of the property, and no registration
takes a mark back.  So the type of a property is that of its last registration,
but its mark tells of all of them: a property is a collection from the first
time that it is registered as one.  The mark is that of the last registration
too unless a collection was registered again as a single value.
-/

namespace OData

namespace Registration

/-- Whether a registration is of a collection. -/
def IsCollection : Registration → Prop
  | collection _ _ => True
  | property _ _ | function _ _ | standard => False

end Registration

namespace Schema

variable {schema : Schema} {registration : Registration} {registrations : List Registration}
  {path : Path}

/-- A registration adds the mark of its own collection. -/
theorem isCollection_register_iff :
    (schema.register registration).isCollection path ↔
      schema.isCollection path ∨
        registration.IsOfProperty path ∧ registration.IsCollection := by
  cases registration with
  | property => simp [register, addProperty, isCollection, Registration.IsCollection]
  | collection text ty =>
      simp only [register, addCollection, isCollection, List.contains_cons, Bool.or_eq_true,
        beq_iff_eq, Registration.IsOfProperty, Registration.IsCollection, and_true]
      rw [or_comm, eq_comm (a := path.canonical)]
  | function => simp [register, addFunction, isCollection, Registration.IsCollection]
  | standard => simp [register, addStandard, isCollection, Registration.IsCollection]

/-- A history keeps the marks there are and adds those of its collections. -/
theorem isCollection_registerAll_iff :
    (schema.registerAll registrations).isCollection path ↔
      schema.isCollection path ∨
        ∃ registration ∈ registrations,
          registration.IsOfProperty path ∧ registration.IsCollection := by
  induction registrations generalizing schema with
  | nil => simp [registerAll]
  | cons registration registrations ih =>
      rw [registerAll, List.foldl_cons, ← registerAll, ih, isCollection_register_iff, or_assoc]
      simp only [List.mem_cons, exists_eq_or_imp]

/-- Whether the mark of a property is that of its last registration. -/
def IsMarkedByLast (registrations : List Registration) (path : Path) : Prop :=
  (({} : Schema).registerAll registrations).isCollection path ↔
    ∃ registration, IsLast (Registration.IsOfProperty path) registrations registration ∧
      registration.IsCollection

/-- Whether a collection was registered again, in the end as a single value. -/
def IsReplaced (registrations : List Registration) (path : Path) : Prop :=
  ∃ last, IsLast (Registration.IsOfProperty path) registrations last ∧ ¬ last.IsCollection ∧
    ∃ registration ∈ registrations, registration.IsOfProperty path ∧ registration.IsCollection

/-- The mark of a property is that of its last registration exactly if the
property is not a collection that was replaced. -/
theorem isMarkedByLast_iff_not_isReplaced (registrations : List Registration) (path : Path) :
    IsMarkedByLast registrations path ↔ ¬ IsReplaced registrations path := by
  have marked : (({} : Schema).registerAll registrations).isCollection path ↔
      ∃ registration ∈ registrations,
        registration.IsOfProperty path ∧ registration.IsCollection := by
    rw [isCollection_registerAll_iff]
    simp [isCollection]
  rw [IsMarkedByLast, marked]
  constructor
  · rintro markedByLast ⟨last, isLast, notCollection, someCollection⟩
    rcases markedByLast.mp someCollection with ⟨other, otherLast, otherCollection⟩
    rw [isLast.unique otherLast] at notCollection
    exact notCollection otherCollection
  · intro notReplaced
    constructor
    · rintro ⟨registration, member, isOf, isCollection⟩
      rcases exists_isLast_of_mem member isOf with ⟨last, isLast⟩
      have lastCollection : last.IsCollection := Classical.byContradiction fun notCollection =>
        notReplaced ⟨last, isLast, notCollection, registration, member, isOf, isCollection⟩
      exact ⟨last, isLast, lastCollection⟩
    · rintro ⟨last, isLast, isCollection⟩
      exact ⟨last, isLast.mem, isLast.holds, isCollection⟩

/-- A collection that is registered again as a single value, here in the other
spelling of its name, takes the new type and keeps its mark. -/
theorem not_isMarkedByLast_of_single_value :
    let tags : Path := ⟨["user", "tags"], by decide, by decide⟩
    let registrations : List Registration :=
      [.collection "user/tags" .number, .property "user.tags" .string]
    let schema := ({} : Schema).registerAll registrations
    schema.propertyType tags = .ok .string ∧ schema.isCollection tags ∧
      ¬ IsMarkedByLast registrations tags := by
  intro tags registrations schema
  have marked : schema.isCollection tags := by decide
  refine ⟨rfl, marked, fun markedByLast => ?_⟩
  rcases markedByLast.mp marked with ⟨last, isLast, isCollection⟩
  have single : IsLast (Registration.IsOfProperty tags) registrations
      (.property "user.tags" .string) :=
    ⟨[.collection "user/tags" .number], [], rfl, rfl, List.forall_mem_nil _⟩
  rw [isLast.unique single] at isCollection
  exact isCollection

end Schema

end OData
