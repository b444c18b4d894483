import OData.Typing.Judgment

/-!
# Models that answer more

A model extends another if it keeps every answer that the other gives; where
the other has none it may answer anything.  An expression that has a type in a
model has it in every extension, since the typing rules ask only for names that
the model answers.
-/

namespace OData

/-- Whether a model keeps all answers of another. -/
structure Model.Extends (larger model : Model) : Prop where
  propertyType : ∀ path ty, model.propertyType path = .ok ty → larger.propertyType path = .ok ty
  isCollection : ∀ path ty, model.propertyType path = .ok ty →
    larger.isCollection path = model.isCollection path
  resultType : ∀ name types ty, model.resultType name types = .ok ty →
    larger.resultType name types = .ok ty

theorem Model.Extends.refl (model : Model) : model.Extends model where
  propertyType _ _ known := known
  isCollection _ _ _ := rfl
  resultType _ _ _ known := known

theorem Model.Extends.trans {largest larger model : Model} (second : largest.Extends larger)
    (first : larger.Extends model) : largest.Extends model where
  propertyType path ty known := second.propertyType path ty (first.propertyType path ty known)
  isCollection path ty known :=
    (second.isCollection path ty (first.propertyType path ty known)).trans
      (first.isCollection path ty known)
  resultType name types ty known :=
    second.resultType name types ty (first.resultType name types ty known)

namespace Expr

variable {larger model : Model}

/-- A property with a type stays a collection or stays none. -/
theorem HasType.isCollection_eq {expr : Expr} {ty : Ty} (hasType : HasType model expr ty)
    (extension : larger.Extends model) : isCollection larger expr = isCollection model expr := by
  cases expr with
  | property path =>
      cases hasType with
      | truthProperty known => exact extension.isCollection path _ known
      | property known _ => exact extension.isCollection path _ known
  | binary => rfl
  | unary => rfl
  | call => rfl
  | literal => rfl

mutual

/-- An expression keeps its type in every extension of its model. -/
theorem HasType.extend (extension : larger.Extends model) {expr : Expr} {ty : Ty}
    (hasType : HasType model expr ty) : HasType larger expr ty := by
  cases hasType with
  | string value => exact .string value
  | number value => exact .number value
  | boolean value => exact .boolean value
  | null => exact .null
  | truthProperty known => exact .truthProperty (extension.propertyType _ _ known)
  | property known noTruth => exact .property (extension.propertyType _ _ known) noTruth
  | logical isLogical hasLeft hasRight =>
      exact .logical isLogical (hasLeft.extend extension) (hasRight.extend extension)
  | not hasOperand => exact .not (hasOperand.extend extension)
  | comparison isComparison single hasLeft hasRight notNull =>
      rw [← hasRight.isCollection_eq extension] at single
      exact .comparison isComparison single (hasLeft.extend extension)
        (hasRight.extend extension) notNull
  | equality isEquality single hasLeft hasRight null =>
      rw [← hasRight.isCollection_eq extension] at single
      exact .equality isEquality single (hasLeft.extend extension)
        (hasRight.extend extension) null
  | call haveArgs known =>
      exact .call (haveArgs.extend extension) (extension.resultType _ _ _ known)

theorem HaveTypes.extend (extension : larger.Extends model) {args : List Expr} {types : List Ty}
    (haveTypes : HaveTypes model args types) : HaveTypes larger args types := by
  cases haveTypes with
  | nil => exact .nil
  | cons first rest => exact .cons (first.extend extension) (rest.extend extension)

end

end Expr

end OData
