import Mathlib.Data.List.Forall2
import OData.Document
import OData.Proofs.Expr.Occurrence
import OData.Proofs.Path

/-!
# What documents keep of queries

Two documents are the same value if they differ in the order of fields at most.
A query whose numbers are integers of 64 bits has the same document as another
query exactly if the two are equal: an object for an expression tells by its
fields and its type which expression it is for, and names, paths and integers
are found in it unchanged.  Other numbers become doubles, which several of them
share.
-/

namespace OData

namespace Document

/-! ## Equal documents -/

/-- Whether two documents are the same value.  Fields are looked up by their
names, so their order has no meaning. -/
inductive Same : Document → Document → Prop
  | null : Same null null
  | boolean (value : Bool) : Same (boolean value) (boolean value)
  | integer (value : Int) : Same (integer value) (integer value)
  | double (bits : UInt64) : Same (double bits) (double bits)
  | string (value : String) : Same (string value) (string value)
  | array {items items' : List Document} (same : List.Forall₂ Same items items') :
      Same (array items) (array items')
  | object {fields fields' : List (String × Document)}
      (same : ∀ name, Option.Rel Same (fields.lookup name) (fields'.lookup name)) :
      Same (object fields) (object fields')

/-- Whether a document is a number of either kind. -/
def isNumber : Document → Bool
  | integer _ | double _ => true
  | _ => false

mutual

theorem Same.refl (document : Document) : document.Same document :=
  match document with
  | null => .null
  | boolean value => .boolean value
  | integer value => .integer value
  | double bits => .double bits
  | string value => .string value
  | array items => .array (sameItems_refl items)
  | object fields => .object (sameField_refl fields)

theorem sameItems_refl (items : List Document) : List.Forall₂ Same items items :=
  match items with
  | [] => .nil
  | item :: items => .cons (Same.refl item) (sameItems_refl items)

theorem sameField_refl (fields : List (String × Document)) (name : String) :
    Option.Rel Same (fields.lookup name) (fields.lookup name) :=
  match fields with
  | [] => .none
  | (other, value) :: fields => by
      rw [List.lookup_cons]
      split
      · exact .some (Same.refl value)
      · exact sameField_refl fields name

end

theorem eq_of_same_string {value value' : String} (same : (string value).Same (string value')) :
    value = value' := by
  cases same
  rfl

theorem eq_of_same_integer {n : Int} {document : Document} (same : (integer n).Same document) :
    document = integer n := by
  cases same
  rfl

section Fields

variable {fields fields' : List (String × Document)} {value value' : Document}

/-- A field of an object has the same value in every object that is the same. -/
theorem Same.field (same : Same (.object fields) (.object fields')) (name : String)
    (isValue : fields.lookup name = some value) (isValue' : fields'.lookup name = some value') :
    value.Same value' := by
  cases same with
  | object same =>
      have rel := same name
      rw [isValue, isValue'] at rel
      cases rel with
      | some same => exact same

/-- The same objects have fields of the same names. -/
theorem Same.isSome_lookup (same : Same (.object fields) (.object fields')) (name : String) :
    (fields.lookup name).isSome = (fields'.lookup name).isSome := by
  cases same with
  | object same =>
      have rel := same name
      generalize fields.lookup name = value, fields'.lookup name = value' at rel
      cases rel with
      | none => rfl
      | some => rfl

end Fields

/-- Arrays of items that are told apart by their documents are told apart. -/
theorem eq_of_same_array {α : Type} {document : α → Document}
    (injective : ∀ item item', (document item).Same (document item') → item = item')
    {items items' : List α}
    (same : Same (.array (items.map document)) (.array (items'.map document))) :
    items = items' := by
  cases same with
  | array same =>
      rw [List.forall₂_map_left_iff, List.forall₂_map_right_iff] at same
      rw [← List.forall₂_eq_eq_eq]
      exact same.imp injective

end Document

/-! ## Numbers -/

namespace Decimal

variable {d : Decimal} {n : Int}

/-- Whether a decimal equals an integer, and that is one of 64 bits. -/
def IsInt64 (d : Decimal) (n : Int) : Prop :=
  d.coefficient = n * unit d.scale ∧ -9223372036854775808 ≤ n ∧ n ≤ 9223372036854775807

theorem filter_toInt?_eq_some_iff : d.toInt?.filter fitsInt64 = some n ↔ d.IsInt64 n := by
  rw [Option.filter_eq_some_iff, toInt?_eq_some_iff, IsInt64, fitsInt64, Bool.and_eq_true,
    decide_eq_true_iff, decide_eq_true_iff]

/-- A number stays an integer exactly if it is one of 64 bits, whatever its
scale. -/
theorem document_eq_integer_iff : d.document = .integer n ↔ d.IsInt64 n := by
  rw [← filter_toInt?_eq_some_iff, document]
  cases d.toInt?.filter fitsInt64 with
  | none => simp
  | some m => simp

/-- Every other number becomes the double for it. -/
theorem document_eq_double_iff {bits : UInt64} :
    d.document = .double bits ↔ (∀ n, ¬ d.IsInt64 n) ∧ bits = d.toDouble.toBits := by
  simp only [← filter_toInt?_eq_some_iff, document]
  cases d.toInt?.filter fitsInt64 with
  | none => simp [eq_comm]
  | some m => simp

/-- Only numbers are the same as a number. -/
theorem isNumber_of_same_document {document : Document} (same : document.Same d.document) :
    document.isNumber := by
  unfold Decimal.document at same
  split at same
  · cases same
    rfl
  · cases same
    rfl

/-- Decimals that equal one integer are equal. -/
theorem same_of_isInt64 {d' : Decimal} (isInt : d.IsInt64 n) (isInt' : d'.IsInt64 n) :
    d.same d' := by
  rw [same, beq_iff_eq, isInt.1, isInt'.1, Int.mul_right_comm]

/-- Equal decimals equal the same integers. -/
theorem IsInt64.of_same {d' : Decimal} (isInt : d.IsInt64 n) (agree : d.same d') :
    d'.IsInt64 n := by
  rw [same, beq_iff_eq, isInt.1, Int.mul_right_comm] at agree
  have unitPos : (0 : Int) < unit d.scale := Int.natCast_pos.mpr (unit_pos d.scale)
  exact ⟨(Int.eq_of_mul_eq_mul_right (Int.ne_of_gt unitPos) agree).symm, isInt.2⟩

end Decimal

/-! ## Names -/

theorem BinaryOperator.word_injective : Function.Injective BinaryOperator.word := by
  intro op op' sameWord
  have found := BinaryOperator.ofWord?_word op
  rw [sameWord, BinaryOperator.ofWord?_word] at found
  exact (Option.some.inj found).symm

theorem UnaryOperator.word_injective : Function.Injective UnaryOperator.word := by
  intro op op' sameWord
  cases op <;> cases op' <;> first | rfl | exact absurd sameWord (by decide)

theorem Direction.word_injective : Function.Injective Direction.word := by
  intro direction direction' sameWord
  cases direction <;> cases direction' <;> first | rfl | exact absurd sameWord (by decide)

/-- No path has the name of the star. -/
theorem Path.canonical_ne_star (path : Path) : path.canonical ≠ "*" := by
  intro isStar
  have split : (path.canonical).toList.splitOn '.' = path.segments.map String.toList :=
    path.splitOn_joined (by decide)
  rw [isStar] at split
  have star : ['*'] ∈ path.segments.map String.toList := by
    rw [← split]
    decide
  rcases List.mem_map.mp star with ⟨segment, isSegment, isStar⟩
  have notMember : '*' ∉ segment.toList := path.notMem_segment (by decide) isSegment
  rw [isStar] at notMember
  exact notMember (List.mem_singleton_self '*')

theorem SelectTerm.name_injective : Function.Injective SelectTerm.name := by
  intro term term' sameName
  cases term with
  | wildcard =>
      cases term' with
      | wildcard => rfl
      | property path => exact absurd sameName.symm path.canonical_ne_star
  | property path =>
      cases term' with
      | wildcard => exact absurd sameName path.canonical_ne_star
      | property path' => exact congrArg property (Path.canonical_injective sameName)

/-! ## Literals -/

namespace Literal

variable {left right : Literal}

/-- A literal is found in its document, if it is not a number that becomes a
double. -/
theorem same_of_document_same (integral : ∀ d, left = number d → ∃ n, d.IsInt64 n)
    (agree : left.document.Same right.document) : left.same right := by
  cases left with
  | string value =>
      cases right with
      | string value' => exact beq_iff_eq.mpr (Document.eq_of_same_string agree)
      | number d => cases d.isNumber_of_same_document agree
      | _ => cases agree
  | number d =>
      rcases integral d rfl with ⟨n, isInt⟩
      rw [document, Decimal.document_eq_integer_iff.mpr isInt] at agree
      have isInteger := Document.eq_of_same_integer agree
      cases right with
      | number d' =>
          exact Decimal.same_of_isInt64 isInt (Decimal.document_eq_integer_iff.mp isInteger)
      | _ => cases isInteger
  | boolean value =>
      cases right with
      | boolean value' =>
          cases agree
          exact beq_self_eq_true value
      | number d => cases d.isNumber_of_same_document agree
      | _ => cases agree
  | null =>
      cases right with
      | null => rfl
      | number d => cases d.isNumber_of_same_document agree
      | _ => cases agree

theorem document_eq_of_same (integral : ∀ d, left = number d → ∃ n, d.IsInt64 n)
    (agree : left.same right) : left.document = right.document := by
  cases left with
  | string value =>
      cases right with
      | string value' =>
          rw [same, beq_iff_eq] at agree
          rw [agree]
      | _ => cases agree
  | number d =>
      rcases integral d rfl with ⟨n, isInt⟩
      cases right with
      | number d' =>
          rw [document, document, Decimal.document_eq_integer_iff.mpr isInt,
            Decimal.document_eq_integer_iff.mpr (isInt.of_same agree)]
      | _ => cases agree
  | boolean value =>
      cases right with
      | boolean value' =>
          rw [same, beq_iff_eq] at agree
          rw [agree]
      | _ => cases agree
  | null =>
      cases right with
      | null => rfl
      | _ => cases agree

end Literal

/-! ## Expressions -/

namespace Expr

/-- Whether all numbers in an expression are integers of 64 bits. -/
def IsIntegral (expr : Expr) : Prop :=
  ∀ d, Occurs (literal (.number d)) expr → ∃ n, d.IsInt64 n

theorem IsIntegral.literal_number {value : Literal} (integral : (literal value).IsIntegral)
    (d : Decimal) (isNumber : value = .number d) : ∃ n, d.IsInt64 n := by
  subst isNumber
  exact integral d .self

theorem IsIntegral.arg {name : String} {args : List Expr} (integral : (call name args).IsIntegral) :
    ∀ arg ∈ args, arg.IsIntegral :=
  fun _ member d inArg => integral d (.arg member inArg)

mutual

/-- An expression with such numbers is found in its document. -/
theorem same_of_document_same {left right : Expr} (integral : left.IsIntegral)
    (agree : left.document.Same right.document) : left.same right := by
  -- Objects for expressions of different forms differ in their fields, except that properties and
  -- literals differ in their type.
  cases left with
  | binary op first second =>
      cases right with
      | binary op' first' second' =>
          have ops := Document.eq_of_same_string (agree.field "type" rfl rfl)
          have firsts := same_of_document_same (fun d inFirst => integral d inFirst.left)
            (agree.field "left" rfl rfl)
          have seconds := same_of_document_same (fun d inSecond => integral d inSecond.right)
            (agree.field "right" rfl rfl)
          simp [same, firsts, seconds, BinaryOperator.word_injective ops]
      | _ => cases agree.isSome_lookup "left"
  | unary op operand =>
      cases right with
      | unary op' operand' =>
          have ops := Document.eq_of_same_string (agree.field "type" rfl rfl)
          have operands := same_of_document_same (fun d inOperand => integral d inOperand.operand)
            (agree.field "child" rfl rfl)
          simp [same, operands, UnaryOperator.word_injective ops]
      | _ => cases agree.isSome_lookup "child"
  | call name args =>
      cases right with
      | call name' args' =>
          have names := Document.eq_of_same_string (agree.field "function" rfl rfl)
          have params := sameAll_of_documents_same integral.arg (agree.field "params" rfl rfl)
          simp [same, params, names]
      | _ => cases agree.isSome_lookup "params"
  | property path =>
      cases right with
      | property path' =>
          have names := Document.eq_of_same_string (agree.field "value" rfl rfl)
          simp [same, Path.canonical_injective names]
      | literal value =>
          have types := Document.eq_of_same_string (agree.field "type" rfl rfl)
          exact absurd types (by decide)
      | _ => cases agree.isSome_lookup "value"
  | literal value =>
      cases right with
      | property path =>
          have types := Document.eq_of_same_string (agree.field "type" rfl rfl)
          exact absurd types (by decide)
      | literal value' =>
          exact Literal.same_of_document_same integral.literal_number (agree.field "value" rfl rfl)
      | _ => cases agree.isSome_lookup "value"

theorem sameAll_of_documents_same {args args' : List Expr}
    (integral : ∀ arg ∈ args, arg.IsIntegral)
    (agree : Document.Same (.array (documents args)) (.array (documents args'))) :
    sameAll args args' := by
  cases agree with
  | array agree =>
      cases args with
      | nil =>
          cases args' with
          | nil => rfl
          | cons => cases agree
      | cons arg args =>
          cases args' with
          | nil => cases agree
          | cons arg' args' =>
              rcases List.forall_mem_cons.mp integral with ⟨first, others⟩
              rcases List.forall₂_cons.mp agree with ⟨agreeFirst, agreeOthers⟩
              rw [sameAll, same_of_document_same first agreeFirst,
                sameAll_of_documents_same others (.array agreeOthers), Bool.and_self]

end

mutual

/-- Equal expressions have equal documents. -/
theorem document_eq_of_same {left right : Expr} (integral : left.IsIntegral)
    (agree : left.same right) : left.document = right.document := by
  cases left with
  | binary op first second =>
      cases right with
      | binary op' first' second' =>
          rw [same, Bool.and_eq_true, Bool.and_eq_true, beq_iff_eq] at agree
          have firsts := document_eq_of_same (fun d inFirst => integral d inFirst.left) agree.1.2
          have seconds := document_eq_of_same (fun d inSecond => integral d inSecond.right) agree.2
          rw [document, document, agree.1.1, firsts, seconds]
      | _ => cases agree
  | unary op operand =>
      cases right with
      | unary op' operand' =>
          rw [same, Bool.and_eq_true, beq_iff_eq] at agree
          have operands :=
            document_eq_of_same (fun d inOperand => integral d inOperand.operand) agree.2
          rw [document, document, agree.1, operands]
      | _ => cases agree
  | call name args =>
      cases right with
      | call name' args' =>
          rw [same, Bool.and_eq_true, beq_iff_eq] at agree
          rw [document, document, agree.1, documents_eq_of_sameAll integral.arg agree.2]
      | _ => cases agree
  | property path =>
      cases right with
      | property path' =>
          rw [same, beq_iff_eq] at agree
          rw [agree]
      | _ => cases agree
  | literal value =>
      cases right with
      | literal value' =>
          rw [document, document, Literal.document_eq_of_same integral.literal_number agree]
      | _ => cases agree

theorem documents_eq_of_sameAll {args args' : List Expr}
    (integral : ∀ arg ∈ args, arg.IsIntegral) (agree : sameAll args args') :
    documents args = documents args' := by
  cases args with
  | nil =>
      cases args' with
      | nil => rfl
      | cons => cases agree
  | cons arg args =>
      cases args' with
      | nil => cases agree
      | cons arg' args' =>
          rcases List.forall_mem_cons.mp integral with ⟨first, others⟩
          rw [sameAll, Bool.and_eq_true] at agree
          rw [documents, documents, document_eq_of_same first agree.1,
            documents_eq_of_sameAll others agree.2]

end

end Expr

/-! ## Queries -/

/-- A term to order by is found in its document. -/
theorem OrderTerm.eq_of_document_same {term term' : OrderTerm}
    (same : term.document.Same term'.document) : term = term' := by
  have paths := Path.canonical_injective
    (Document.eq_of_same_string (same.field "property" rfl rfl))
  have directions := Direction.word_injective
    (Document.eq_of_same_string (same.field "direction" rfl rfl))
  cases term
  cases term'
  cases paths
  cases directions
  rfl

/-- A number that may be absent is found in its document. -/
theorem Document.eq_of_same_ofNat? {n n' : Option Nat}
    (same : (Document.ofNat? n).Same (.ofNat? n')) : n = n' := by
  cases n with
  | none =>
      cases n' with
      | none => rfl
      | some => cases same
  | some n =>
      cases n' with
      | none => cases same
      | some n' =>
          have values := Document.integer.inj (Document.eq_of_same_integer same)
          rw [Int.ofNat_inj.mp values]

namespace Query

variable {left right : Query}

/-- Whether all numbers in the filter of a query are integers of 64 bits. -/
def IsIntegral (query : Query) : Prop :=
  ∀ filter, query.filter = some filter → filter.IsIntegral

theorem sameFilter_of_document_same {filter filter' : Option Expr}
    (integral : ∀ expr, filter = some expr → expr.IsIntegral)
    (agree : Document.Same ((filter.map Expr.document).getD .null)
      ((filter'.map Expr.document).getD .null)) : sameFilter filter filter' := by
  cases filter with
  | none =>
      cases filter' with
      | none => rfl
      | some expr' => cases expr' <;> cases agree
  | some expr =>
      cases filter' with
      | none => cases expr <;> cases agree
      | some expr' => exact Expr.same_of_document_same (integral expr rfl) agree

/-- Nothing of a query is lost in its document. -/
theorem same_of_document_same (integral : left.IsIntegral)
    (agree : left.document.Same right.document) : left.same right := by
  have filters := sameFilter_of_document_same integral (agree.field "filter" rfl rfl)
  have orderBys := Document.eq_of_same_array (fun _ _ => OrderTerm.eq_of_document_same)
    (agree.field "orderby" rfl rfl)
  have tops := Document.eq_of_same_ofNat? (agree.field "top" rfl rfl)
  have skips := Document.eq_of_same_ofNat? (agree.field "skip" rfl rfl)
  have selects := Document.eq_of_same_array
    (fun _ _ agree => SelectTerm.name_injective (Document.eq_of_same_string agree))
    (agree.field "select" rfl rfl)
  have expands := Document.eq_of_same_array
    (fun _ _ agree => Path.canonical_injective (Document.eq_of_same_string agree))
    (agree.field "expand" rfl rfl)
  simp [same, filters, orderBys, tops, skips, selects, expands]

theorem map_document_eq_of_sameFilter {filter filter' : Option Expr}
    (integral : ∀ expr, filter = some expr → expr.IsIntegral) (agree : sameFilter filter filter') :
    filter.map Expr.document = filter'.map Expr.document := by
  cases filter with
  | none =>
      cases filter' with
      | none => rfl
      | some => cases agree
  | some expr =>
      cases filter' with
      | none => cases agree
      | some expr' => exact congrArg some (Expr.document_eq_of_same (integral expr rfl) agree)

/-- Equal queries have equal documents. -/
theorem document_eq_of_same (integral : left.IsIntegral) (agree : left.same right) :
    left.document = right.document := by
  simp only [same, Bool.and_eq_true, beq_iff_eq] at agree
  rcases agree with ⟨⟨⟨⟨⟨filters, orderBys⟩, tops⟩, skips⟩, selects⟩, expands⟩
  rw [document, document, map_document_eq_of_sameFilter integral filters, orderBys, tops, skips,
    selects, expands]

/-- Queries of which one has no numbers but integers of 64 bits have the same
document exactly if they are equal, even if fields may change places.  These
numbers are the ones that stay integers; every other becomes the double for
it. -/
theorem document_same_iff_same :
    (∀ left right : Query, left.IsIntegral →
      (left.document.Same right.document ↔ left.same right) ∧
      (left.document = right.document ↔ left.same right)) ∧
    ∀ d : Decimal,
      (∀ n, (Literal.number d).document = .integer n ↔ d.IsInt64 n) ∧
      ∀ bits, (Literal.number d).document = .double bits ↔
        (∀ n, ¬ d.IsInt64 n) ∧ bits = d.toDouble.toBits := by
  constructor
  · intro left right integral
    have equal (agree : left.same right) : left.document = right.document :=
      document_eq_of_same integral agree
    constructor
    · exact ⟨same_of_document_same integral, fun agree => equal agree ▸ .refl left.document⟩
    · exact ⟨fun equal => same_of_document_same integral (equal ▸ .refl left.document), equal⟩
  · exact fun d =>
      ⟨fun n => Decimal.document_eq_integer_iff, fun bits => Decimal.document_eq_double_iff⟩

theorem document_eq_of_trailing_zeros :
    let path : Path := ⟨["a", "b"], by decide, by decide⟩
    let query (d : Decimal) : Query :=
      { empty with
        filter := some (.binary .lt (.property path) (.literal (.number d)))
        orderBy := [⟨path, .desc⟩]
        top := some 5 }
    let left := query ⟨-70, 1, by decide, by decide⟩
    let right := query ⟨-7000, 3, by decide, by decide⟩
    left.IsIntegral ∧ left.same right ∧ left.document = right.document ∧
      left.document.Same right.document := by
  intro path query left right
  have integral : left.IsIntegral := by
    rintro filter ⟨⟩ d occurs
    cases occurs with
    | left inLeft => cases inLeft
    | right inRight =>
        cases inRight with
        | self => exact ⟨-7, by decide, by decide, by decide⟩
  have agree : left.same right := by decide
  have iffs := document_same_iff_same.1 left right integral
  exact ⟨integral, agree, iffs.2.mpr agree, iffs.1.mpr agree⟩

end Query

end OData
