import OData.Proofs.Outcome
import OData.Typing.Inference

/-!
# Expressions in the place of others

A context is an expression with a hole in the place of one of its operands or
arguments, at any depth.  Of what fills the hole, inference sees only the type,
or the refusal, and whether it is a bare collection.  So expressions of one
type, none of them a bare collection, can stand for one another everywhere: the
whole has the same type, or is refused for the same cause.
-/

namespace OData.Expr

/-- An expression with a hole. -/
inductive Context
  | hole
  | left (op : BinaryOperator) (context : Context) (right : Expr)
  | right (op : BinaryOperator) (left : Expr) (context : Context)
  | operand (op : UnaryOperator) (context : Context)
  | arg (name : String) (before : List Expr) (context : Context) (after : List Expr)

/-- The expression that has another one in the place of the hole. -/
def Context.fill : Context → Expr → Expr
  | hole, inner => inner
  | left op context other, inner => binary op (context.fill inner) other
  | right op other context, inner => binary op other (context.fill inner)
  | operand op context, inner => unary op (context.fill inner)
  | arg name before context after, inner => call name (before ++ context.fill inner :: after)

/-! ## What inference sees -/

variable {model : Model}

/-- Whether inference cannot tell two expressions apart: it gives them the same
type, or refuses both for one cause, and both or none are bare collections. -/
structure Alike (model : Model) (first second : Expr) : Prop where
  infer_eq : infer model first = infer model second
  isCollection_eq : isCollection model first = isCollection model second

theorem Alike.left {first second : Expr} (alike : Alike model first second) (op : BinaryOperator)
    (right : Expr) : Alike model (binary op first right) (binary op second right) where
  infer_eq := by simp only [infer, alike.infer_eq]
  isCollection_eq := rfl

theorem Alike.right {first second : Expr} (alike : Alike model first second) (op : BinaryOperator)
    (left : Expr) : Alike model (binary op left first) (binary op left second) where
  infer_eq := by simp only [infer, alike.infer_eq, alike.isCollection_eq]
  isCollection_eq := rfl

theorem Alike.operand {first second : Expr} (alike : Alike model first second)
    (op : UnaryOperator) : Alike model (unary op first) (unary op second) where
  infer_eq := by
    cases op with
    | not => simp only [infer, alike.infer_eq]
    | neg => rfl
  isCollection_eq := rfl

theorem Alike.inferAll_eq {first second : Expr} (alike : Alike model first second)
    (before after : List Expr) :
    inferAll model (before ++ first :: after) = inferAll model (before ++ second :: after) := by
  induction before with
  | nil => simp only [List.nil_append, inferAll, alike.infer_eq]
  | cons arg before ih => simp only [List.cons_append, inferAll, ih]

theorem Alike.arg {first second : Expr} (alike : Alike model first second) (name : String)
    (before after : List Expr) :
    Alike model (call name (before ++ first :: after)) (call name (before ++ second :: after)) where
  infer_eq := by simp only [infer, alike.inferAll_eq]
  isCollection_eq := rfl

/-- What cannot be told apart cannot be told apart in any context. -/
theorem Alike.fill {first second : Expr} (alike : Alike model first second) (context : Context) :
    Alike model (context.fill first) (context.fill second) := by
  induction context with
  | hole => exact alike
  | left op _ right ih => exact ih.left op right
  | right op left _ ih => exact ih.right op left
  | operand op _ ih => exact ih.operand op
  | arg name before _ after ih => exact ih.arg name before after

theorem inferType_eq_iff {first second : Expr} :
    inferType model first = inferType model second ↔ infer model first = infer model second := by
  unfold inferType
  cases infer model first <;> cases infer model second <;> simp [Except.mapError]

/-- To the right of a comparison with `null`, only a bare collection is refused. -/
theorem infer_null_eq {expr : Expr} {ty : Ty} (inferred : infer model expr = .ok ty) :
    infer model (binary .eq (literal .null) expr) =
      if isCollection model expr then .error .collectionOperand else .ok .boolean := by
  simp only [infer, BinaryOperator.family, inferred]
  rfl

/-- Expressions with types can stand for one another in all contexts exactly if
inference cannot tell them apart. -/
theorem forall_inferType_fill_eq_iff {first second : Expr} {firstTy secondTy : Ty}
    (inferFirst : infer model first = .ok firstTy)
    (inferSecond : infer model second = .ok secondTy) :
    (∀ context : Context,
      inferType model (context.fill first) = inferType model (context.fill second)) ↔
      Alike model first second := by
  constructor
  · intro same
    constructor
    · exact inferType_eq_iff.mp (same .hole)
    · have besideNull := inferType_eq_iff.mp (same (.right .eq (literal .null) .hole))
      simp only [Context.fill, infer_null_eq inferFirst, infer_null_eq inferSecond] at besideNull
      cases isFirst : isCollection model first <;> cases isSecond : isCollection model second <;>
        simp [isFirst, isSecond] at besideNull ⊢
  · intro alike context
    exact inferType_eq_iff.mpr (alike.fill context).infer_eq

/-- Expressions of one type, none of them a bare collection, can stand for one
another in all contexts. -/
theorem inferType_fill_eq (context : Context) {first second : Expr} {ty : Ty}
    (inferFirst : inferType model first = .ok ty) (inferSecond : inferType model second = .ok ty)
    (singleFirst : ¬ isCollection model first) (singleSecond : ¬ isCollection model second) :
    inferType model (context.fill first) = inferType model (context.fill second) := by
  have alike : Alike model first second := by
    constructor
    · exact inferType_eq_iff.mp (inferFirst.trans inferSecond.symm)
    · rw [Bool.eq_false_iff.mpr singleFirst, Bool.eq_false_iff.mpr singleSecond]
  have inferFirst := Except.mapError_eq_ok_iff.mp inferFirst
  have inferSecond := Except.mapError_eq_ok_iff.mp inferSecond
  exact (forall_inferType_fill_eq_iff inferFirst inferSecond).mpr alike context

theorem inferType_fill_eq_in_argument :
    let model : Model :=
      { propertyType := fun _ => .ok .number
        isCollection := fun path => path.segments = ["tags"]
        resultType := fun _ types =>
          if types = [.string, .boolean] then .ok .boolean else .error (.custom "refused") }
    let tags := Expr.property ⟨["tags"], by decide, by decide⟩
    let context : Context :=
      .arg "f" [literal (.string "x")] (.operand .not (.right .lt tags .hole)) []
    let property := Expr.property ⟨["a", "b"], by decide, by decide⟩
    let number := Expr.literal (.number ⟨15, 1, by decide, by decide⟩)
    inferType model property = .ok .number ∧ inferType model number = .ok .number ∧
      ¬ isCollection model property ∧ ¬ isCollection model number ∧
      inferType model (context.fill property) = inferType model (context.fill number) ∧
      inferType model (context.fill number) = .ok .boolean := by
  intro model tags context property number
  have inferProperty : inferType model property = .ok .number := rfl
  have inferNumber : inferType model number = .ok .number := rfl
  have singleProperty : ¬ isCollection model property := by decide
  have singleNumber : ¬ isCollection model number := by decide
  exact ⟨inferProperty, inferNumber, singleProperty, singleNumber,
    inferType_fill_eq context inferProperty inferNumber singleProperty singleNumber, rfl⟩

end OData.Expr
