import OData.Proofs.Last
import OData.Proofs.Path
import OData.Proofs.Schema.Registration

/-!
# What a schema answers, told from its history

A schema that was built from nothing says of a property what the last
registration of the property says, and of a call what the first registered
signature that accepts the arguments says.  The two rules are opposite: a new
type for a property replaces the old one, while a new signature of a function
only adds to those before it.

A registration is of a property if its name, cut at every slash and every dot,
gives the segments of the property.  That is another way to say that both have
the same dotted name, so no registration is of two properties.
-/

namespace OData

namespace Schema

/-! ## Names of properties -/

/-- The segments of a name, with slashes or dots between them. -/
def segmentsOf (name : String) : List String :=
  (name.toList.splitOnP fun c => c = '/' || c = '.').map String.ofList

theorem toList_dotted (name : String) :
    (dotted name).toList = name.toList.map fun c => if c = '/' then '.' else c := by
  rw [dotted, String.toList_ofList]

/-- Dots for slashes make every cut a cut at a dot. -/
theorem splitOn_map_dot (text : List Char) :
    (text.map fun c => if c = '/' then '.' else c).splitOn '.' =
      text.splitOnP fun c => c = '/' || c = '.' := by
  induction text with
  | nil => rfl
  | cons c text ih =>
      rw [List.map_cons, List.splitOn_cons_eq_if_modifyHead, List.splitOnP_cons_eq_if_modifyHead, ih]
      by_cases slash : c = '/'
      · simp [slash]
      · simp [slash]

theorem splitOn_dotted (name : String) :
    (dotted name).toList.splitOn '.' = name.toList.splitOnP fun c => c = '/' || c = '.' := by
  rw [toList_dotted, splitOn_map_dot]

/-- A name is registered as a path exactly if it has the segments of the
path. -/
theorem dotted_eq_canonical_iff {name : String} {path : Path} :
    dotted name = path.canonical ↔ segmentsOf name = path.segments := by
  -- No segment has a dot in it, so cutting the dotted name of the path finds its segments.
  have notAlphanum : ¬ '.'.isAlphanum := by decide
  rw [segmentsOf, ← splitOn_dotted]
  constructor
  · intro same
    rw [same, Path.canonical, Path.splitOn_joined path notAlphanum, Path.map_ofList_toList]
  · intro segments
    rw [← String.toList_inj, Path.canonical, Path.toList_joined, ← segments, List.map_map,
      Function.comp_def]
    simp only [String.toList_ofList, List.map_id']
    exact (List.intercalate_splitOn '.').symm

end Schema

namespace Registration

/-- Whether a registration is of a name with the segments of a path. -/
def Names (path : Path) : Registration → Prop
  | property name _ | collection name _ => Schema.segmentsOf name = path.segments
  | function _ _ | standard => False

instance (path : Path) : DecidablePred (Names path)
  | property name _ | collection name _ =>
      inferInstanceAs (Decidable (Schema.segmentsOf name = path.segments))
  | function _ _ | standard => inferInstanceAs (Decidable False)

/-- The type that a registration of a property gives to it. -/
def ty? : Registration → Option Ty
  | property _ ty | collection _ ty => some ty
  | function _ _ | standard => none

variable {registration : Registration} {path : Path}

theorem names_iff_isOfProperty : registration.Names path ↔ registration.IsOfProperty path := by
  cases registration with
  | property => exact Schema.dotted_eq_canonical_iff.symm
  | collection => exact Schema.dotted_eq_canonical_iff.symm
  | function => exact Iff.rfl
  | standard => exact Iff.rfl

theorem Names.exists_ty (names : registration.Names path) : ∃ ty, registration.ty? = some ty := by
  cases registration with
  | property name ty => exact ⟨ty, rfl⟩
  | collection name ty => exact ⟨ty, rfl⟩
  | function => exact absurd names id
  | standard => exact absurd names id

end Registration

namespace Schema

variable {schema : Schema} {registration : Registration} {registrations : List Registration}
  {path : Path} {name : String} {args : List Ty} {ty : Ty} {error : LookupError}

/-! ## Types of properties -/

/-- A registration of a property gives it its type. -/
theorem propertyType_register_of_names (names : registration.Names path)
    (given : registration.ty? = some ty) (schema : Schema) :
    (schema.register registration).propertyType path = .ok ty := by
  have sameName := Registration.names_iff_isOfProperty.mp names
  cases registration with
  | property text other =>
      cases given
      change dotted text = path.canonical at sameName
      simp only [register, addProperty, propertyType, sameName, List.lookup_cons_self]
  | collection text other =>
      cases given
      change dotted text = path.canonical at sameName
      simp only [register, addCollection, addProperty, propertyType, sameName,
        List.lookup_cons_self]
  | function => exact absurd names id
  | standard => exact absurd names id

/-- The last registration of a property decides its type. -/
theorem propertyType_of_isLast
    (last : IsLast (Registration.Names path) registrations registration)
    (given : registration.ty? = some ty) (schema : Schema) :
    (schema.registerAll registrations).propertyType path = .ok ty := by
  have keeps : ∀ (schema : Schema) (other : Registration), ¬ other.Names path →
      (schema.register other).propertyType path = schema.propertyType path :=
    fun schema other notNamed =>
      propertyType_register fun isOf => notNamed (Registration.names_iff_isOfProperty.mpr isOf)
  exact view_foldl_of_isLast (fun schema => schema.propertyType path) keeps
    (propertyType_register_of_names last.holds given) last schema

theorem propertyType_of_forall_not
    (unnamed : ∀ registration ∈ registrations, ¬ registration.Names path) :
    (({} : Schema).registerAll registrations).propertyType path =
      .error (.unknownProperty path) := by
  apply propertyType_registerAll
  intro registration member isOf
  exact unnamed registration member (Registration.names_iff_isOfProperty.mpr isOf)

/-- Either a property was registered and has the type that was given last, or
it was not and is unknown. -/
theorem propertyType_cases (registrations : List Registration) (path : Path) :
    (∃ registration ty, IsLast (Registration.Names path) registrations registration ∧
        registration.ty? = some ty ∧
        (({} : Schema).registerAll registrations).propertyType path = .ok ty) ∨
      (∀ registration ∈ registrations, ¬ registration.Names path) ∧
        (({} : Schema).registerAll registrations).propertyType path =
          .error (.unknownProperty path) := by
  by_cases named : ∃ registration ∈ registrations, registration.Names path
  · rcases named with ⟨registration, member, names⟩
    rcases exists_isLast_of_mem member names with ⟨last, isLast⟩
    rcases isLast.holds.exists_ty with ⟨ty, given⟩
    exact .inl ⟨last, ty, isLast, given, propertyType_of_isLast isLast given {}⟩
  · have unnamed : ∀ registration ∈ registrations, ¬ registration.Names path :=
      fun registration member names => named ⟨registration, member, names⟩
    exact .inr ⟨unnamed, propertyType_of_forall_not unnamed⟩

/-! ## Results of calls -/

theorem accepts_iff {signature : Signature} : signature.accepts args ↔ signature.params = args := by
  simp [Signature.accepts]

/-- The signature that decides a call takes the types of its arguments. -/
theorem params_of_find? {signatures : List Signature} {signature : Signature}
    (found : signatures.find? (·.accepts args) = some signature) : signature.params = args := by
  have isAccepted := List.find?_some found
  exact accepts_iff.mp isAccepted

/-- The first signature that accepts the arguments of a call gives the type of
its result. -/
theorem resultType_eq_ok_iff :
    schema.resultType name args = .ok ty ↔
      ∃ before after, schema.signatures name = before ++ ⟨args, ty⟩ :: after ∧
        ∀ earlier ∈ before, earlier.params ≠ args := by
  have first : (∃ before after, schema.signatures name = before ++ ⟨args, ty⟩ :: after ∧
      ∀ earlier ∈ before, earlier.params ≠ args) ↔
        (schema.signatures name).find? (·.accepts args) = some ⟨args, ty⟩ := by
    simp [List.find?_eq_some_iff_append, Signature.accepts]
  rw [first, resultType]
  cases schema.signatures name with
  | nil => simp
  | cons signature others =>
      dsimp only
      cases found : (signature :: others).find? (·.accepts args) with
      | none => simp
      | some accepted =>
          rcases accepted with ⟨params, result⟩
          have sameArgs : params = args := params_of_find? found
          simp [sameArgs]

/-- A call without a result is one of an unknown function, or one that no
signature of a known function accepts. -/
theorem resultType_eq_error_iff :
    schema.resultType name args = .error error ↔
      (schema.signatures name ≠ [] ∧
          (∀ signature ∈ schema.signatures name, signature.params ≠ args) ∧
          error = .noOverload name args) ∨
        schema.signatures name = [] ∧ error = .unknownFunction name := by
  rw [resultType]
  cases schema.signatures name with
  | nil => simp [eq_comm]
  | cons signature others =>
      dsimp only
      cases found : (signature :: others).find? (·.accepts args) with
      | none =>
          have noneAccepts : ∀ other ∈ signature :: others, other.params ≠ args :=
            fun other member isAccepted =>
              List.find?_eq_none.mp found other member (accepts_iff.mpr isAccepted)
          constructor
          · rintro ⟨⟩
            exact .inl ⟨List.cons_ne_nil _ _, noneAccepts, rfl⟩
          · rintro (⟨_, _, rfl⟩ | ⟨impossible, _⟩)
            · rfl
            · cases impossible
      | some accepted =>
          constructor
          · rintro ⟨⟩
          · rintro (⟨_, noneAccepts, _⟩ | ⟨impossible, _⟩)
            · exact absurd (params_of_find? found)
                (noneAccepts accepted (List.mem_of_find?_eq_some found))
            · cases impossible

/-- The signatures of a function are those that its registrations add, in
their order. -/
theorem signatures_registerAll (schema : Schema) (registrations : List Registration)
    (name : String) :
    (schema.registerAll registrations).signatures name =
      schema.signatures name ++ registrations.flatMap (·.overloads name) := by
  induction registrations generalizing schema with
  | nil => exact (List.append_nil _).symm
  | cons registration registrations ih =>
      rw [registerAll, List.foldl_cons, ← registerAll, ih, signatures_register, List.append_assoc,
        List.flatMap_cons]

theorem flatMap_overloads_eq_nil_iff {registrations : List Registration} :
    registrations.flatMap (·.overloads name) = [] ↔
      ∀ registration ∈ registrations, ¬ registration.IsOfFunction name := by
  simp only [List.flatMap_eq_nil_iff, Registration.overloads_eq_nil_iff]

/-- A call with a result keeps it whatever is registered later. -/
theorem resultType_registerAll_of_eq_ok (known : schema.resultType name args = .ok ty)
    (registrations : List Registration) :
    (schema.registerAll registrations).resultType name args = .ok ty := by
  rcases resultType_eq_ok_iff.mp known with ⟨before, after, listed, first⟩
  refine resultType_eq_ok_iff.mpr
    ⟨before, after ++ registrations.flatMap (·.overloads name), ?_, first⟩
  rw [signatures_registerAll, listed, List.append_assoc, List.cons_append]

/-! ## Answers from a history -/

/-- Whether a schema answers as a history of registrations tells. -/
structure Answers (schema : Schema) (registrations : List Registration) : Prop where
  /-- A property has the type that its last registration gave to it. -/
  typed : ∀ path ty, schema.propertyType path = .ok ty ↔
    ∃ registration, IsLast (Registration.Names path) registrations registration ∧
      registration.ty? = some ty
  /-- A property that was never registered is unknown. -/
  untyped : ∀ path error, schema.propertyType path = .error error ↔
    (∀ registration ∈ registrations, ¬ registration.Names path) ∧ error = .unknownProperty path
  /-- The first signature of a function that has these parameters decides. -/
  accepted : ∀ name args ty, schema.resultType name args = .ok ty ↔
    ∃ before after, registrations.flatMap (·.overloads name) = before ++ ⟨args, ty⟩ :: after ∧
      ∀ earlier ∈ before, earlier.params ≠ args
  /-- A function that was registered has no such signature, or it was never
  registered. -/
  refused : ∀ name args error, schema.resultType name args = .error error ↔
    ((∃ registration ∈ registrations, registration.IsOfFunction name) ∧
        (∀ signature ∈ registrations.flatMap (·.overloads name), signature.params ≠ args) ∧
        error = .noOverload name args) ∨
      (∀ registration ∈ registrations, ¬ registration.IsOfFunction name) ∧
        error = .unknownFunction name

theorem answers_of_registrations (registrations : List Registration) :
    (({} : Schema).registerAll registrations).Answers registrations := by
  have listed : ∀ name, (({} : Schema).registerAll registrations).signatures name =
      registrations.flatMap (·.overloads name) := signatures_registerAll {} registrations
  constructor
  · intro path ty
    constructor
    · intro known
      rcases propertyType_cases registrations path with ⟨last, given, isLast, gives, typed⟩ | ⟨_, no⟩
      · cases known.symm.trans typed
        exact ⟨last, isLast, gives⟩
      · cases known.symm.trans no
    · rintro ⟨last, isLast, gives⟩
      exact propertyType_of_isLast isLast gives {}
  · intro path error
    constructor
    · intro unknown
      rcases propertyType_cases registrations path with ⟨_, _, _, _, typed⟩ | ⟨unnamed, no⟩
      · cases unknown.symm.trans typed
      · cases unknown.symm.trans no
        exact ⟨unnamed, rfl⟩
    · rintro ⟨unnamed, rfl⟩
      exact propertyType_of_forall_not unnamed
  · intro name args ty
    rw [resultType_eq_ok_iff, listed]
  · intro name args error
    have known : (∃ registration ∈ registrations, registration.IsOfFunction name) ↔
        registrations.flatMap (·.overloads name) ≠ [] := by
      rw [Ne, flatMap_overloads_eq_nil_iff]
      simp
    rw [resultType_eq_error_iff, listed, known, flatMap_overloads_eq_nil_iff]

/-- A schema answers as the history of its registrations tells.  No two paths
share an entry, and a call with a result keeps it whatever is registered
later. -/
theorem answers_registerAll (registrations : List Registration) :
    (({} : Schema).registerAll registrations).Answers registrations ∧
      (∀ path other : Path, path.canonical = other.canonical → path = other) ∧
      ∀ name args ty, (({} : Schema).registerAll registrations).resultType name args = .ok ty →
        ∀ later, (({} : Schema).registerAll (registrations ++ later)).resultType name args =
          .ok ty := by
  refine ⟨answers_of_registrations registrations, fun _ _ same => Path.canonical_injective same, ?_⟩
  intro name args ty known later
  rw [registerAll, List.foldl_append]
  exact resultType_registerAll_of_eq_ok known later

theorem answers_overridden_property_and_function :
    let path : Path := ⟨["user", "name"], by decide, by decide⟩
    let registrations : List Registration :=
      [.collection "user.name" .number, .function "length" ⟨[.string], .null⟩, .standard,
        .property "user/name" .string, .property "user/name/first" .null]
    let schema := ({} : Schema).registerAll registrations
    schema.propertyType path = .ok .string ∧
      schema.resultType "length" [.string] = .ok .null ∧
      (({} : Schema).registerAll (registrations ++ [.standard])).resultType "length" [.string] =
        .ok .null := by
  intro path registrations schema
  have answers := answers_registerAll registrations
  have last : IsLast (Registration.Names path) registrations (.property "user/name" .string) := by
    refine ⟨registrations.take 3, registrations.drop 4, rfl, by decide, ?_⟩
    exact List.forall_mem_singleton.mpr (by decide)
  have first : schema.resultType "length" [.string] = .ok .null :=
    (answers.1.accepted _ _ _).mpr
      ⟨[], [⟨[.string], .number⟩], by decide +kernel, List.forall_mem_nil _⟩
  exact ⟨(answers.1.typed path .string).mpr ⟨_, last, rfl⟩, first,
    answers.2.2 _ _ _ first [.standard]⟩

end Schema

end OData
