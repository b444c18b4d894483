import OData.Proofs.Expr.RoundTrip
import OData.Proofs.Expr.Threshold
import OData.Proofs.Expr.Tower

/-!
# Reading a filter again from its own text

The text that is written for a filter has more parentheses than the source it
was read from, and so needs more nesting.  How much is known exactly: what was
read under some limit has a text whose nesting is below the largest depth under
that limit, and a tower needs no less.  In particular no limit is large enough
to read the text of all filters that it allows.
-/

namespace OData.Expr

open Token (Kind)

/-! ## The nesting of a text -/

/-- A readable expression is read from its text exactly if the limit covers the
nesting of the phrase that is written. -/
theorem read_write_iff_nesting_le {expr : Expr} (readable : expr.isReadable) {limit : Nat} :
    (∃ tree, read limit expr.write = .ok (some tree) ∧ tree.same expr) ↔
      expr.phrase.nesting ≤ limit := by
  have spells := spells_write readable Token.separated_nil (Token.spells_nil true)
  rw [List.append_nil, List.append_nil] at spells
  rcases Token.exists_tokenize_of_spells spells with ⟨tokens, tokenized, kindsEq⟩
  have derives : Derives .disjunction ⟨kindsOf tokens, expr.phrase.expr, expr.phrase.nesting⟩ :=
    kindsEq ▸ (derives_phrase readable).to_disjunction
  rw [expr_phrase] at derives
  constructor
  · rintro ⟨tree, isRead, _⟩
    rcases read_eq_ok_some_iff.mp isRead with ⟨tokens', tokenized', nesting, enough, derives'⟩
    rw [tokenized] at tokenized'
    cases tokenized'
    rw [(derives.unique derives').2]
    exact enough
  · intro enough
    exact ⟨expr, read_eq_ok_some_iff.mpr ⟨tokens, tokenized, _, enough, derives⟩, same_refl expr⟩

namespace Phrase

theorem binary_nesting_of_isComparison {op : BinaryOperator} (isComparison : op.isComparison)
    (left right : Phrase) : (binary op left right).nesting = max left.nesting right.nesting := by
  rw [binary, if_pos isComparison]
  rfl

theorem le_binary_nesting (op : BinaryOperator) (left right : Phrase) :
    left.nesting ≤ (binary op left right).nesting := by
  rw [binary]
  split
  · exact Nat.le_max_left _ _
  · rw [chain_nesting]
    exact Nat.le_max_left _ _

end Phrase

/-! ## No text needs more than the bound -/

theorem Rank.depthBound_lt_succ (rank : Rank) (nesting : Nat) :
    rank.depthBound nesting < rank.depthBound (nesting + 1) := by
  have squares : 2 * (nesting + 1) * (nesting + 1) = 2 * nesting * nesting + 4 * nesting + 2 := by
    ring
  cases rank <;> simp only [depthBound, squares] <;> omega

theorem nesting_phrase_binary (op : BinaryOperator) (left right : Expr) :
    (binary op left right).phrase.nesting =
      (Phrase.binary op left.phrase right.phrase).nesting + 1 :=
  rfl

/-- Every fold takes one parenthesis more if the operands after the first need
less. -/
theorem nesting_phrase_chainExpr_lt {left : Expr} {others : List (BinaryOperator × Phrase)}
    {bound : Nat} (ofLeft : left.phrase.nesting < bound)
    (ofOthers : ∀ other ∈ others, other.2.expr.phrase.nesting + 1 < bound) :
    (chainExpr left others).phrase.nesting < bound + others.length := by
  induction others generalizing left bound with
  | nil => exact ofLeft
  | cons other others ih =>
      rcases List.forall_mem_cons.mp ofOthers with ⟨first, rest⟩
      have ofBoth := Phrase.binary_nesting_le other.1 left.phrase other.2.expr.phrase
      have folded : (binary other.1 left other.2.expr).phrase.nesting < bound + 1 := by
        rw [nesting_phrase_binary]
        omega
      have whole := ih folded fun other member => Nat.lt_succ_of_lt (rest other member)
      rw [chainExpr_cons, List.length_cons]
      omega

theorem largestNesting_phrases_lt {args : List Phrase} {bound : Nat} (positive : 0 < bound)
    (bounded : ∀ arg ∈ args, arg.expr.phrase.nesting < bound) :
    largestNesting ((phrases (args.map Phrase.expr)).map Phrase.nesting) < bound := by
  induction args with
  | nil => exact positive
  | cons arg args ih =>
      rcases List.forall_mem_cons.mp bounded with ⟨first, others⟩
      exact Nat.max_lt.mpr ⟨first, ih others⟩

/-- The text for the tree of a phrase needs less than the largest depth of such
a phrase. -/
theorem Derives.nesting_phrase_lt {rank : Rank} {phrase : Phrase} (derives : Derives rank phrase) :
    phrase.expr.phrase.nesting < rank.depthBound phrase.nesting := by
  induction derives with
  | @chain rank operands ops first others isChain _ _ _ start rest =>
      have folds := length_le_foldNesting (others.map fun other => other.2.nesting)
      rw [List.length_map] at folds
      rw [Phrase.chain_expr, Phrase.chain_nesting, Rank.depthBound_of_chain isChain]
      generalize nestingEq : max first.nesting _ = nesting
      have ofFirst : first.expr.phrase.nesting < operands.depthBound nesting :=
        Nat.lt_of_lt_of_le start (operands.depthBound_mono (by omega))
      have ofOthers : ∀ other ∈ others,
          other.2.expr.phrase.nesting + 1 < operands.depthBound nesting := by
        intro other member
        have folded := lt_foldNesting_of_mem
          (List.mem_map_of_mem (f := fun other => other.2.nesting) member)
        have ofOther := rest other member
        have deeper := operands.depthBound_lt_succ other.2.nesting
        have bounded : operands.depthBound (other.2.nesting + 1) ≤ operands.depthBound nesting :=
          operands.depthBound_mono (by omega)
        omega
      have whole := nesting_phrase_chainExpr_lt ofFirst ofOthers
      omega
  | uncompared _ sum =>
      simp only [Rank.depthBound] at sum ⊢
      omega
  | @compared left right op isComparison _ _ ofLeft ofRight =>
      have leftBounded := Nat.lt_of_lt_of_le ofLeft
        (Rank.sum.depthBound_mono (Nat.le_max_left _ right.nesting))
      have rightBounded := Nat.lt_of_lt_of_le ofRight
        (Rank.sum.depthBound_mono (Nat.le_max_right left.nesting _))
      have ofBoth := Phrase.binary_nesting_of_isComparison isComparison left.expr.phrase
        right.expr.phrase
      simp only [Rank.depthBound] at leftBounded rightBounded
      simp only [Phrase.compare, Expr.phrase, Phrase.parenthesized, Rank.depthBound]
      omega
  | bare _ operand => exact operand
  | @prefixed kind op inner _ _ ofInner =>
      have nested : Rank.prefixed.depthBound (inner.nesting + 1) = _ :=
        Rank.depthBound_operand_succ inner.nesting
      simp only [Rank.depthBound] at ofInner nested
      simp only [Phrase.prefixed, Expr.phrase, Phrase.parenthesized, Rank.depthBound, nested]
      omega
  | parenthesized _ ofInner =>
      rw [Phrase.parenthesized, Rank.depthBound_operand_succ]
      exact Nat.lt_succ_of_lt ofInner
  | @call name args _ _ ofArgs =>
      rw [Phrase.call, Expr.phrase, Phrase.call, Rank.depthBound_operand_succ]
      apply Nat.succ_lt_succ
      apply largestNesting_phrases_lt
      · simp only [Rank.depthBound]
        omega
      · intro arg member
        have nesting := le_largestNesting_of_mem (List.mem_map_of_mem (f := Phrase.nesting) member)
        exact Nat.lt_of_lt_of_le (ofArgs arg member) (Rank.disjunction.depthBound_mono nesting)
  | property => exact Nat.one_pos
  | literal => exact Nat.one_pos

/-- The text of a filter needs less nesting than twice the square of the limit
and one under which the filter was read. -/
theorem nesting_phrase_lt_of_read {maxNesting : Nat} {source : String} {expr : Expr}
    (isRead : read maxNesting source = .ok (some expr)) :
    expr.phrase.nesting < 2 * (maxNesting + 1) ^ 2 := by
  rcases read_eq_ok_some_iff.mp isRead with ⟨tokens, _, nesting, enough, derives⟩
  calc expr.phrase.nesting
    _ < Rank.disjunction.depthBound nesting := derives.nesting_phrase_lt
    _ ≤ Rank.disjunction.depthBound maxNesting := Rank.disjunction.depthBound_mono enough
    _ = 2 * (maxNesting + 1) ^ 2 := by
      simp only [Rank.depthBound]
      ring

/-! ## The text of a tower needs as much -/

theorem nesting_phrase_lt_binary (op : BinaryOperator) (left right : Expr) :
    left.phrase.nesting < (binary op left right).phrase.nesting := by
  rw [nesting_phrase_binary]
  exact Nat.lt_succ_of_le (Phrase.le_binary_nesting op _ _)

theorem le_nesting_phrase_lengthen (inner : Phrase) (op : BinaryOperator) (count : Nat) :
    inner.expr.phrase.nesting + count ≤ (inner.lengthen op count).expr.phrase.nesting := by
  rw [Phrase.lengthen, Phrase.chain_expr]
  generalize inner.expr = left
  induction count generalizing left with
  | zero => exact Nat.le_refl _
  | succ count ih =>
      have folded := nesting_phrase_lt_binary op left sampleOperand.expr
      have others := ih (binary op left sampleOperand.expr)
      rw [List.replicate_succ, chainExpr_cons]
      change _ ≤ (chainExpr (binary op left sampleOperand.expr) _).phrase.nesting
      omega

theorem le_nesting_phrase_layer (inner : Phrase) (count : Nat) :
    inner.expr.phrase.nesting + 4 * count + 1 ≤ (inner.layer count).expr.phrase.nesting := by
  let product := inner.lengthen .mul count
  let sum := product.lengthen .add count
  let comparison := sum.compare .eq sampleOperand
  let conjunction := comparison.lengthen .and count
  have ofProduct : inner.expr.phrase.nesting + count ≤ product.expr.phrase.nesting :=
    le_nesting_phrase_lengthen inner .mul count
  have ofSum : product.expr.phrase.nesting + count ≤ sum.expr.phrase.nesting :=
    le_nesting_phrase_lengthen product .add count
  have ofComparison : sum.expr.phrase.nesting < comparison.expr.phrase.nesting :=
    nesting_phrase_lt_binary .eq sum.expr sampleOperand.expr
  have ofConjunction : comparison.expr.phrase.nesting + count ≤ conjunction.expr.phrase.nesting :=
    le_nesting_phrase_lengthen comparison .and count
  have ofDisjunction := le_nesting_phrase_lengthen conjunction .or count
  change _ ≤ (conjunction.lengthen .or count).expr.phrase.nesting
  omega

theorem le_nesting_phrase_tower (height : Nat) :
    2 * (height + 1) ^ 2 ≤ (tower height).expr.phrase.nesting + 1 := by
  induction height with
  | zero => exact Nat.succ_le_succ (le_nesting_phrase_layer sampleOperand 0)
  | succ height ih =>
      have ofLayer := le_nesting_phrase_layer (.call "a" [tower height]) (height + 1)
      have ofCall : (Phrase.call "a" [tower height]).expr.phrase.nesting =
          (tower height).expr.phrase.nesting + 1 := by
        simp [Phrase.call, phrase, phrases, largestNesting]
      have square : 2 * (height + 1 + 1) ^ 2 = 2 * (height + 1) ^ 2 + 4 * (height + 1) + 2 := by
        ring
      rw [tower]
      omega

/-! ## Limits for reading again -/

/-- The texts of all filters that one limit allows are read back under another
limit exactly if that one reaches twice the square of the first and one, less
one.  So no limit reads back the texts of all filters that it allows. -/
theorem read_write_of_read_iff (maxNesting limit : Nat) :
    (∀ source expr, read maxNesting source = .ok (some expr) →
      ∃ tree, read limit expr.write = .ok (some tree) ∧ tree.same expr) ↔
    2 * (maxNesting + 1) ^ 2 ≤ limit + 1 := by
  constructor
  · intro allRead
    rcases exists_read_tower maxNesting with ⟨source, isRead⟩
    have enough := (read_write_iff_nesting_le (isReadable_of_read isRead)).mp
      (allRead source _ isRead)
    have needed := le_nesting_phrase_tower maxNesting
    omega
  · intro enough source expr isRead
    have bounded := nesting_phrase_lt_of_read isRead
    exact (read_write_iff_nesting_le (isReadable_of_read isRead)).mpr (by omega)

/-- Without nesting a comparison can be read, but not its own text. -/
theorem read_write_comparison_without_nesting :
    ∃ expr, read 0 "a eq b" = .ok (some expr) ∧ expr.write = "(a eq b)" ∧
      read 0 expr.write = .error ⟨.filter, some 1, .nestedTooDeeply⟩ ∧
      ¬ ∃ tree, read 0 expr.write = .ok (some tree) ∧ tree.same expr := by
  let expr := binary .eq (property ⟨["a"], by decide, by decide⟩)
    (property ⟨["b"], by decide, by decide⟩)
  let tokens : List Token :=
    [⟨.path "a", "a", 0, 1⟩, ⟨.operator .eq, "eq", 2, 4⟩, ⟨.path "b", "b", 5, 6⟩,
      ⟨.endOfInput, "", 6, 6⟩]
  let tokensOfText : List Token :=
    [⟨.leftParen, "(", 0, 1⟩, ⟨.path "a", "a", 1, 2⟩, ⟨.operator .eq, "eq", 3, 5⟩,
      ⟨.path "b", "b", 6, 7⟩, ⟨.rightParen, ")", 7, 8⟩, ⟨.endOfInput, "", 8, 8⟩]
  have tokenized : Token.tokenize "a eq b" = .ok tokens := by decide +kernel
  have ofTokens : ofKinds 0 (kindsOf tokens) = .ok expr := by with_unfolding_all rfl
  have isRead : read 0 "a eq b" = .ok (some expr) :=
    read_eq_ok_some_iff.mpr ⟨tokens, tokenized, ofKinds_eq_ok_iff.mp ofTokens⟩
  have written : expr.write = "(a eq b)" := by decide
  have refused : read 0 expr.write = .error ⟨.filter, some 1, .nestedTooDeeply⟩ := by
    have tokenizedText : Token.tokenize expr.write = .ok tokensOfText := by
      rw [written]
      decide +kernel
    have notBlank : Text.trim expr.write.toList ≠ [] := by
      rw [written]
      decide
    have tooDeep : ofKinds 0 (kindsOf tokensOfText) =
        .error ⟨.nestedTooDeeply, (kindsOf tokensOfText).tail⟩ := by with_unfolding_all rfl
    exact (read_eq_nestedTooDeeply_iff notBlank tokenizedText).mpr ⟨_, tooDeep, rfl⟩
  refine ⟨expr, isRead, written, refused, ?_⟩
  rintro ⟨tree, again, _⟩
  rw [refused] at again
  cases again

end OData.Expr
