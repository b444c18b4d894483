import OData.Proofs.Expr.Occurrence
import OData.Proofs.Outcome
import OData.Typing.Inference

/-!
# Models that agree on an expression

Inference asks a model only about the names in an expression.  Two models that
give the same answers there, errors in the same words included, lead to the
same type or to a refusal in the same words.
-/

namespace OData

/-- Whether two models say the same of a property: the same type, or the same
words for why there is none, and whether it is a collection. -/
structure Model.SameProperty (model other : Model) (path : Path) : Prop where
  propertyType : (model.propertyType path).mapError LookupError.message =
    (other.propertyType path).mapError LookupError.message
  isCollection : model.isCollection path = other.isCollection path

/-- Whether two models say the same of a function, whatever the types of its
arguments. -/
def Model.SameFunction (model other : Model) (name : String) : Prop :=
  ∀ types, (model.resultType name types).mapError LookupError.message =
    (other.resultType name types).mapError LookupError.message

/-- What is told of a validation error. -/
def ValidationError.told (error : ValidationError) : Part × String :=
  (error.part, error.message)

namespace Expr

open ValidationError (Cause)

variable {model other : Model}

/-- Whether two models say the same of every name in an expression. -/
structure Agree (model other : Model) (expr : Expr) : Prop where
  properties : ∀ path, Occurs (property path) expr → model.SameProperty other path
  functions : ∀ name args, Occurs (call name args) expr → model.SameFunction other name

/-- Agreement passes to what occurs in an expression. -/
theorem Agree.of_occurs {expr inner : Expr} (agree : Agree model other expr)
    (occurs : ∀ part, Occurs part inner → Occurs part expr) : Agree model other inner where
  properties path inInner := agree.properties path (occurs _ inInner)
  functions name args inInner := agree.functions name args (occurs _ inInner)

theorem Agree.isCollection {expr : Expr} (agree : Agree model other expr) :
    isCollection model expr = isCollection other expr := by
  cases expr with
  | property path => exact (agree.properties path .self).isCollection
  | binary => rfl
  | unary => rfl
  | call => rfl
  | literal => rfl

mutual

/-- Inference gives the same type, or refuses in the same words. -/
theorem Agree.infer (expr : Expr) (agree : Agree model other expr) :
    (Expr.infer model expr).mapError Cause.message =
      (Expr.infer other expr).mapError Cause.message := by
  cases expr with
  | binary op left right =>
      have agreeRight : Agree model other right := agree.of_occurs fun _ => .right
      have inferLeft := Agree.infer left (agree.of_occurs fun _ => .left)
      have inferRight := Agree.infer right agreeRight
      simp only [Expr.infer]
      cases op.family with
      | logical => simp only [Except.mapError_bind, inferLeft, inferRight]
      | comparison =>
          simp only [agreeRight.isCollection]
          split
          · rfl
          · simp only [Except.mapError_bind, inferLeft, inferRight]
      | arithmetic => rfl
  | unary op operand =>
      have inferOperand := Agree.infer operand (agree.of_occurs fun _ => .operand)
      cases op with
      | not => simp only [Expr.infer, Except.mapError_bind, inferOperand]
      | neg => rfl
  | call name args =>
      have inferArgs := Agree.inferAll args fun arg member =>
        agree.of_occurs fun _ => .arg member
      have result := agree.functions name args .self
      simp only [Expr.infer, Except.mapError_bind, inferArgs, Except.mapError_mapError]
      congr 1
      funext types
      exact result types
  | property path =>
      have sameType := (agree.properties path .self).propertyType
      simp only [Expr.infer, Except.mapError_mapError, Except.mapError_map]
      exact congrArg (Except.map Ty.ofProperty) sameType
  | literal value => rfl

theorem Agree.inferAll (args : List Expr) (agree : ∀ arg ∈ args, Agree model other arg) :
    (Expr.inferAll model args).mapError Cause.message =
      (Expr.inferAll other args).mapError Cause.message := by
  cases args with
  | nil => rfl
  | cons arg args =>
      rcases List.forall_mem_cons.mp agree with ⟨agreeFirst, agreeRest⟩
      have inferFirst := Agree.infer arg agreeFirst
      have inferRest := Agree.inferAll args agreeRest
      simp only [Expr.inferAll, Except.mapError_bind, inferFirst, inferRest]

end

theorem Agree.inferType {expr : Expr} (agree : Agree model other expr) :
    (Expr.inferType model expr).mapError ValidationError.told =
      (Expr.inferType other expr).mapError ValidationError.told := by
  have inferred := congrArg (Except.mapError (Part.filter, ·)) (agree.infer expr)
  simp only [Except.mapError_mapError] at inferred
  simp only [Expr.inferType, Except.mapError_mapError]
  exact inferred

end Expr

end OData
