import OData.Expr.Printer
import OData.Proofs.Expr.Readable
import OData.Proofs.Token.Spelling

/-!
# Reading what was written

Writing an expression spells a phrase of the grammar that stands for that very
expression, so a readable expression is read back from its text.  The phrase
has parentheses around every binary operation and every operand of a prefix
operator, which takes a nesting of at most two for each level of the tree.
-/

namespace OData.Expr

open Token

/-! ## The phrase that is written -/

/-- Two phrases with a binary operator between them. -/
def Phrase.binary (op : BinaryOperator) (left right : Phrase) : Phrase :=
  if op.isComparison then left.compare op right else left.chain [(op, right)]

namespace Phrase

variable (op : BinaryOperator) (left right : Phrase)

@[simp]
theorem binary_kinds :
    (binary op left right).kinds = left.kinds ++ .operator op :: right.kinds := by
  rw [binary]
  split
  · rfl
  · simp

@[simp]
theorem binary_expr : (binary op left right).expr = .binary op left.expr right.expr := by
  rw [binary]
  split <;> rfl

theorem binary_nesting_le :
    (binary op left right).nesting ≤ max left.nesting (right.nesting + 1) := by
  rw [binary]
  split
  · simp only [compare]
    omega
  · simp [foldNesting]

end Phrase

/-- The kind of token that stands for a prefix operator. -/
def signKind : UnaryOperator → Kind
  | .not => .not
  | .neg => .minus

theorem prefixOperator?_signKind (op : UnaryOperator) :
    prefixOperator? (signKind op) = some op := by
  cases op <;> rfl

mutual

/-- The phrase that writing an expression spells. -/
def phrase : Expr → Phrase
  | binary op left right => (Phrase.binary op left.phrase right.phrase).parenthesized
  | unary op operand => operand.phrase.parenthesized.prefixed (signKind op) op
  | call name args => .call name (phrases args)
  | property path => ⟨[.path path.written], .property path, 0⟩
  | literal value => ⟨[.literal value], .literal value, 0⟩

/-- The phrases that writing arguments spells. -/
def phrases : List Expr → List Phrase
  | [] => []
  | arg :: args => arg.phrase :: phrases args

end

mutual

/-- The phrase stands for the expression that is written. -/
@[simp]
theorem expr_phrase (expr : Expr) : expr.phrase.expr = expr := by
  cases expr with
  | binary op left right => simp [phrase, Phrase.parenthesized, expr_phrase left, expr_phrase right]
  | unary op operand => simp [phrase, Phrase.prefixed, Phrase.parenthesized, expr_phrase operand]
  | call name args => simp [phrase, Phrase.call, expr_phrases args]
  | property path => rfl
  | literal value => rfl

@[simp]
theorem expr_phrases (args : List Expr) : (phrases args).map Phrase.expr = args := by
  cases args with
  | nil => rfl
  | cons arg args => simp [phrases, expr_phrase arg, expr_phrases args]

end

mutual

/-- Every level of a tree takes a nesting of two at most. -/
theorem nesting_phrase_lt (expr : Expr) : expr.phrase.nesting < 2 * expr.depth := by
  cases expr with
  | binary op left right =>
      have ofLeft := nesting_phrase_lt left
      have ofRight := nesting_phrase_lt right
      have ofBoth := Phrase.binary_nesting_le op left.phrase right.phrase
      simp only [phrase, Phrase.parenthesized, depth]
      omega
  | unary op operand =>
      have ofOperand := nesting_phrase_lt operand
      simp only [phrase, Phrase.prefixed, Phrase.parenthesized, depth]
      omega
  | call name args =>
      have ofArgs := largestNesting_phrases_le args
      simp only [phrase, Phrase.call, depth]
      omega
  | property path => exact Nat.two_pos
  | literal value => exact Nat.two_pos

theorem largestNesting_phrases_le (args : List Expr) :
    largestNesting ((phrases args).map Phrase.nesting) ≤ 2 * maxDepth args := by
  cases args with
  | nil => exact Nat.le_refl 0
  | cons arg args =>
      have ofArg := nesting_phrase_lt arg
      have ofArgs := largestNesting_phrases_le args
      simp only [phrases, List.map_cons, largestNesting, maxDepth]
      omega

end

/-! ## Its derivation -/

/-- An operator that does not compare joins the operands of a chain. -/
theorem exists_chain {op : BinaryOperator} (noComparison : ¬ op.isComparison) :
    ∃ (rank : Rank) (ops : List BinaryOperator) (operands : Rank),
      rank.chain? = some (ops, operands) ∧ op ∈ ops ∧ operands ≠ .operand := by
  cases op with
  | or => exact ⟨.disjunction, _, _, rfl, by decide⟩
  | and => exact ⟨.conjunction, _, _, rfl, by decide⟩
  | add => exact ⟨.sum, _, _, rfl, by decide⟩
  | sub => exact ⟨.sum, _, _, rfl, by decide⟩
  | mul => exact ⟨.product, _, _, rfl, by decide⟩
  | div => exact ⟨.product, _, _, rfl, by decide⟩
  | mod => exact ⟨.product, _, _, rfl, by decide⟩
  | _ => exact absurd rfl noComparison

/-- Any operator can stand between prefixed operands. -/
theorem derives_binary (op : BinaryOperator) {left right : Phrase}
    (leftPrefixed : Derives .prefixed left) (rightPrefixed : Derives .prefixed right) :
    Derives .disjunction (Phrase.binary op left right) := by
  unfold Phrase.binary
  split
  · next isComparison =>
      have leftSum : Derives .sum left := leftPrefixed.of_prefixed Rank.noConfusion
      have rightSum : Derives .sum right := rightPrefixed.of_prefixed Rank.noConfusion
      exact (Derives.compared isComparison leftSum rightSum).to_disjunction
  · next noComparison =>
      rcases exists_chain noComparison with ⟨rank, ops, operands, isChain, member, isWeaker⟩
      have others : Operands ops operands [(op, right)] :=
        operands_cons_iff.mpr ⟨⟨member, rightPrefixed.of_prefixed isWeaker⟩, operands_nil _ _⟩
      have start : Derives operands left := leftPrefixed.of_prefixed isWeaker
      exact ((derives_chain_iff isChain).mpr ⟨left, _, start, others, rfl⟩).to_disjunction

mutual

theorem derives_phrase {expr : Expr} (readable : expr.isReadable) :
    Derives .prefixed expr.phrase := by
  cases expr with
  | binary op left right =>
      rw [isReadable, Bool.and_eq_true] at readable
      exact .bare (.parenthesized
        (derives_binary op (derives_phrase readable.1) (derives_phrase readable.2)))
  | unary op operand =>
      rw [isReadable] at readable
      have inner : Derives .disjunction operand.phrase := (derives_phrase readable).to_disjunction
      exact .prefixed (prefixOperator?_signKind op) (.bare (.parenthesized inner))
  | call name args =>
      rw [isReadable, Bool.and_eq_true] at readable
      exact .bare (.call (isFunctionName_iff.mp readable.1).2 (derives_phrases readable.2))
  | property path => exact .bare (.property path.read?_written)
  | literal value => exact .bare (.literal value)

theorem derives_phrases {args : List Expr} (readable : areReadable args) :
    ∀ arg ∈ phrases args, Derives .disjunction arg := by
  cases args with
  | nil => exact fun _ member => absurd member List.not_mem_nil
  | cons arg args =>
      rw [areReadable, Bool.and_eq_true] at readable
      exact List.forall_mem_cons.mpr
        ⟨(derives_phrase readable.1).to_disjunction, derives_phrases readable.2⟩

end

/-! ## Its spelling -/

theorem spells_operator {rest : List Char} {kinds : List Kind} (op : BinaryOperator)
    (spells : Spells false rest kinds) :
    Spells true (' ' :: (op.word.toList ++ ' ' :: rest)) (.operator op :: kinds) :=
  (Spells.reserved (ofWord?_word op) (separated_space rest) spells.space).space

theorem spells_sign {rest : List Char} {kinds : List Kind} (op : UnaryOperator)
    (spells : Spells false ('(' :: rest) kinds) :
    Spells false (op.sign.toList ++ '(' :: rest) (signKind op :: kinds) := by
  cases op with
  | not =>
      have reserved : Kind.ofWord? "not" = some .not := rfl
      have spelled : Spells false ("not".toList ++ ' ' :: '(' :: rest) (.not :: kinds) :=
        .reserved reserved (separated_space _) spells.space
      exact spelled
  | neg => exact .minus (separated_leftParen rest) spells

mutual

/-- Writing an expression spells its phrase. -/
theorem spells_write {expr : Expr} (readable : expr.isReadable) {rest : List Char}
    {kinds : List Kind} (separated : Separated rest) (spells : Spells true rest kinds) :
    Spells false (expr.write.toList ++ rest) (expr.phrase.kinds ++ kinds) := by
  have closed : Spells true (')' :: rest) (.rightParen :: kinds) := spells.rightParen
  have closes : Separated (')' :: rest) := separated_rightParen rest
  cases expr with
  | binary op left right =>
      rw [isReadable, Bool.and_eq_true] at readable
      have fromRight := spells_write readable.2 closes closed
      have fromOperator := spells_operator op fromRight
      have fromLeft := spells_write readable.1 (separated_space _) fromOperator
      simpa [write, phrase, Phrase.parenthesized] using fromLeft.leftParen
  | unary op operand =>
      rw [isReadable] at readable
      have fromOperand := spells_write readable closes closed
      have fromSign := spells_sign op fromOperand.leftParen
      simpa [write, phrase, Phrase.prefixed, Phrase.parenthesized] using fromSign
  | call name args =>
      rw [isReadable, Bool.and_eq_true] at readable
      have fromArgs := spells_writeArgs readable.2 spells
      have word := (isFunctionName_iff.mp readable.1).1
      have fromName := word.spells false (separated_leftParen _) fromArgs.leftParen
      simpa [write, phrase, Phrase.call] using fromName
  | property path => exact (Path.isReadable_iff.mp readable).spells false separated spells
  | literal value => exact .literal (fun _ => rfl) separated spells

theorem spells_writeArgs {args : List Expr} (readable : areReadable args) {rest : List Char}
    {kinds : List Kind} (spells : Spells true rest kinds) :
    Spells false ((writeArgs args).toList ++ ')' :: rest)
      ([Kind.comma].intercalate ((phrases args).map Phrase.kinds) ++ .rightParen :: kinds) := by
  cases args with
  | nil =>
      have closed : Spells false (')' :: rest) (.rightParen :: kinds) := spells.rightParen
      simpa [writeArgs, phrases] using closed
  | cons arg args =>
      rw [areReadable, Bool.and_eq_true] at readable
      cases args with
      | nil =>
          have closed : Spells true (')' :: rest) (.rightParen :: kinds) := spells.rightParen
          have fromArg := spells_write readable.1 (separated_rightParen rest) closed
          simpa [writeArgs, phrases] using fromArg
      | cons second args =>
          have fromArgs := spells_writeArgs readable.2 spells
          have fromArg := spells_write readable.1 (separated_comma _) fromArgs.space.comma
          simpa [writeArgs, phrases, List.intercalate_cons_cons] using fromArg

end

/-! ## Round trips -/

/-- A source that spells a phrase is read as the tree of that phrase. -/
theorem read_of_spells {phrase : Phrase} (derives : Derives .disjunction phrase) {source : String}
    (spells : Spells false source.toList phrase.kinds) {maxNesting : Nat}
    (enough : phrase.nesting ≤ maxNesting) : read maxNesting source = .ok (some phrase.expr) := by
  rcases exists_tokenize_of_spells spells with ⟨tokens, tokenized, kindsEq⟩
  have derivesTokens : Derives .disjunction ⟨kindsOf tokens, phrase.expr, phrase.nesting⟩ :=
    kindsEq ▸ derives
  exact read_eq_ok_some_iff.mpr ⟨tokens, tokenized, phrase.nesting, enough, derivesTokens⟩

/-- A readable expression is read back from its text. -/
theorem read_write {expr : Expr} (readable : expr.isReadable) {maxNesting : Nat}
    (enough : 2 * expr.depth ≤ maxNesting) : read maxNesting expr.write = .ok (some expr) := by
  have spells := spells_write readable separated_nil (spells_nil true)
  rw [List.append_nil, List.append_nil] at spells
  have nesting := nesting_phrase_lt expr
  have isRead := read_of_spells (derives_phrase readable).to_disjunction spells
    (by omega : expr.phrase.nesting ≤ maxNesting)
  rwa [expr_phrase] at isRead

/-- What is read is readable. -/
theorem isReadable_of_read {maxNesting : Nat} {source : String} {expr : Expr}
    (isRead : read maxNesting source = .ok (some expr)) : expr.isReadable := by
  rcases read_eq_ok_some_iff.mp isRead with ⟨tokens, tokenized, nesting, _, derives⟩
  exact derives.isReadable (kinds_of_tokenize tokenized).2

mutual

/-- Every tree agrees with itself. -/
theorem same_refl (expr : Expr) : expr.same expr := by
  cases expr with
  | binary op left right => simp [same, same_refl left, same_refl right]
  | unary op operand => simp [same, same_refl operand]
  | call name args => simp [same, sameAll_refl args]
  | property path => simp [same]
  | literal value => simp [same]

theorem sameAll_refl (args : List Expr) : sameAll args args := by
  cases args with
  | nil => rfl
  | cons arg args => simp [sameAll, same_refl arg, sameAll_refl args]

end

/-- Writing and reading are inverse exactly on the readable expressions, which
include everything that is read.  A readable expression is read back as the
very tree that was written, and one that comes back as a tree that agrees with
it is readable. -/
theorem read_write_iff_isReadable (expr : Expr) :
    (expr.isReadable → ∀ maxNesting ≥ 2 * expr.depth,
      read maxNesting expr.write = .ok (some expr) ∧ expr.same expr) ∧
    ((∃ maxNesting tree, read maxNesting expr.write = .ok (some tree) ∧ tree.same expr) →
      expr.isReadable) ∧
    ∀ maxNesting source tree, read maxNesting source = .ok (some tree) → tree.isReadable := by
  constructor
  · intro readable maxNesting enough
    exact ⟨read_write readable enough, same_refl expr⟩
  constructor
  · rintro ⟨maxNesting, tree, isRead, agree⟩
    rw [← isReadable_eq_of_same agree]
    exact isReadable_of_read isRead
  · intro maxNesting source tree isRead
    exact isReadable_of_read isRead

theorem read_write_call_and_not :
    let expr : Expr :=
      binary .and
        (call "f" [literal (.string "it's"), literal (.number ⟨-150, 2, by decide, by decide⟩)])
        (unary .not (property ⟨["a", "b"], by decide, by decide⟩))
    expr.write = "(f('it''s', -1.50) and not (a/b))" ∧ expr.isReadable ∧ 2 * expr.depth ≤ 6 ∧
      read 6 expr.write = .ok (some expr) := by
  intro expr
  have written : expr.write = "(f('it''s', -1.50) and not (a/b))" := by decide
  have readable : expr.isReadable := by decide
  have enough : 2 * expr.depth ≤ 6 := by decide
  exact ⟨written, readable, enough,
    ((read_write_iff_isReadable expr).1 readable 6 enough).1⟩

end OData.Expr
