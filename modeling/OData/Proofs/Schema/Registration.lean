import OData.Proofs.Last
import OData.Schema.Basic

/-!
# Histories of registrations

A schema is known by what was registered, one name after the other.  What a
schema says of a name changes only with a registration of that name: of a
property under its dotted name, of a function under its own.
-/

namespace OData

/-- One step in building a schema. -/
inductive Registration
  | property (path : String) (ty : Ty)
  | collection (path : String) (ty : Ty)
  | function (name : String) (signature : Signature)
  | standard

namespace Registration

/-- Whether a registration is one of a property. -/
def IsOfProperty (path : Path) : Registration → Prop
  | property text _ | collection text _ => Schema.dotted text = path.canonical
  | function _ _ | standard => False

/-- Whether a registration adds signatures of a function. -/
def IsOfFunction (name : String) : Registration → Prop
  | property _ _ | collection _ _ => False
  | function other _ => other = name
  | standard => name ∈ Standard.names

/-- The signatures that a registration adds to those of a function. -/
def overloads (name : String) : Registration → List Signature
  | property _ _ | collection _ _ => []
  | function other signature => if other = name then [signature] else []
  | standard => (Standard.signatures? name).getD []

end Registration

/-! ## Standard functions -/

namespace Standard

theorem mem_names_of_mem_functions {entry : String × Signature} (member : entry ∈ functions) :
    entry.1 ∈ names := by
  rcases List.mem_flatMap.mp member with ⟨name, isName, paired⟩
  rcases List.mem_map.mp paired with ⟨signature, _, rfl⟩
  exact isName

/-- The functions with standard signatures are those that are listed. -/
theorem getD_signatures?_eq_nil_iff {name : String} :
    (signatures? name).getD [] = [] ↔ name ∉ names := by
  constructor
  · intro none isName
    have some : ∀ name ∈ names, (signatures? name).getD [] ≠ [] := by decide +kernel
    exact some name isName none
  · intro other
    unfold signatures?
    split <;> first | rfl | exact absurd (by decide) other

/-- A standard function is registered with its signatures in their order. -/
theorem filter_functions (name : String) :
    (functions.filter fun entry => entry.1 == name).map Prod.snd = (signatures? name).getD [] := by
  by_cases isName : name ∈ names
  · have each : ∀ name ∈ names, (functions.filter fun entry => entry.1 == name).map Prod.snd =
        (signatures? name).getD [] := by decide +kernel
    exact each name isName
  · rw [getD_signatures?_eq_nil_iff.mpr isName, List.map_eq_nil_iff, List.filter_eq_nil_iff]
    intro entry member same
    exact isName (beq_iff_eq.mp same ▸ mem_names_of_mem_functions member)

end Standard

/-- A registration adds signatures exactly to the functions that it is of. -/
theorem Registration.overloads_eq_nil_iff {registration : Registration} {name : String} :
    registration.overloads name = [] ↔ ¬ registration.IsOfFunction name := by
  cases registration with
  | property => exact iff_of_true rfl id
  | collection => exact iff_of_true rfl id
  | function other signature => simp [overloads, IsOfFunction]
  | standard => exact Standard.getD_signatures?_eq_nil_iff

namespace Schema

/-- The schema after one more registration. -/
def register (schema : Schema) : Registration → Schema
  | .property path ty => schema.addProperty path ty
  | .collection path ty => schema.addCollection path ty
  | .function name signature => schema.addFunction name signature
  | .standard => schema.addStandard

/-- The schema after more registrations, in their order. -/
def registerAll (schema : Schema) (registrations : List Registration) : Schema :=
  registrations.foldl register schema

variable {schema : Schema} {registration : Registration} {registrations : List Registration}
  {path : Path} {name : String}

/-! ## Properties -/

theorem lookup_cons_of_ne {properties : List (String × Ty)} {key other : String}
    (differ : other ≠ key) (ty : Ty) :
    ((other, ty) :: properties).lookup key = properties.lookup key := by
  rw [List.lookup_cons, beq_false_of_ne differ.symm]

/-- Another property keeps its type. -/
theorem propertyType_register (other : ¬ registration.IsOfProperty path) :
    (schema.register registration).propertyType path = schema.propertyType path := by
  cases registration with
  | property text ty =>
      simp only [register, addProperty, propertyType, lookup_cons_of_ne other]
  | collection text ty =>
      simp only [register, addCollection, addProperty, propertyType, lookup_cons_of_ne other]
  | function => rfl
  | standard => rfl

/-- Another property stays a collection or stays none. -/
theorem isCollection_register (other : ¬ registration.IsOfProperty path) :
    (schema.register registration).isCollection path = schema.isCollection path := by
  cases registration with
  | property => rfl
  | collection text ty =>
      have notCollected : (path.canonical == dotted text) = false :=
        beq_false_of_ne (Ne.symm other)
      simp only [register, addCollection, isCollection, List.contains_cons, notCollected,
        Bool.false_or]
  | function => rfl
  | standard => rfl

/-! ## Functions -/

theorem signatures_append (schema : Schema) (entries : List (String × Signature)) (name : String) :
    { schema with functions := schema.functions ++ entries }.signatures name =
      schema.signatures name ++
        (entries.filter fun entry => entry.1 == name).map Prod.snd := by
  simp only [signatures, List.filter_append, List.map_append]

/-- A registration adds its signatures of a function behind those before. -/
theorem signatures_register (schema : Schema) (registration : Registration) (name : String) :
    (schema.register registration).signatures name =
      schema.signatures name ++ registration.overloads name := by
  cases registration with
  | property => exact (List.append_nil _).symm
  | collection => exact (List.append_nil _).symm
  | function added signature =>
      rw [register, addFunction, signatures_append]
      by_cases same : added = name
      · simp [Registration.overloads, same]
      · simp [Registration.overloads, same]
  | standard =>
      rw [register, addStandard, signatures_append, Standard.filter_functions]
      rfl

/-- Another function keeps its results. -/
theorem resultType_register (other : ¬ registration.IsOfFunction name) (types : List Ty) :
    (schema.register registration).resultType name types = schema.resultType name types := by
  have none := Registration.overloads_eq_nil_iff.mpr other
  simp only [resultType, signatures_register, none, List.append_nil]

/-! ## Histories -/

/-- A history without a property keeps its type. -/
theorem propertyType_registerAll
    (others : ∀ registration ∈ registrations, ¬ registration.IsOfProperty path) :
    (schema.registerAll registrations).propertyType path = schema.propertyType path :=
  view_foldl_of_forall_not (fun schema => schema.propertyType path)
    (fun _ _ other => propertyType_register other) others schema

theorem isCollection_registerAll
    (others : ∀ registration ∈ registrations, ¬ registration.IsOfProperty path) :
    (schema.registerAll registrations).isCollection path = schema.isCollection path :=
  view_foldl_of_forall_not (fun schema => schema.isCollection path)
    (fun _ _ other => isCollection_register other) others schema

/-- A history without a function keeps its results. -/
theorem resultType_registerAll
    (others : ∀ registration ∈ registrations, ¬ registration.IsOfFunction name) (types : List Ty) :
    (schema.registerAll registrations).resultType name types = schema.resultType name types :=
  view_foldl_of_forall_not (fun schema => schema.resultType name types)
    (fun _ _ other => resultType_register other types) others schema

end Schema

end OData
