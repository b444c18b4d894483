import Mathlib.Tactic.Ring
import OData.Proofs.Expr.Acceptance
import OData.Proofs.Token.Spelling

/-!
# How deep trees become

A limit on nesting does not limit the depth of a tree to about as much.  The
operands of a chain each have the whole budget that is left after the operators
before them, and a chain gives its budget back at its end, so the chains of all
four ranks can be as long as the limit, around the same first operand and once
for every level of nesting.  The depth is bounded by the square of the limit
instead, and one level of long chains is already deeper than twice the limit.
-/

namespace OData.Expr

open Token (Kind)

/-! ## The bound -/

/-- The largest depth of a phrase of a rank with this nesting. -/
def Rank.depthBound : Rank → Nat → Nat
  | .operand, nesting | .prefixed, nesting => 2 * nesting * nesting + 1
  | .product, nesting => 2 * nesting * nesting + nesting + 1
  | .sum, nesting => 2 * nesting * nesting + 2 * nesting + 1
  | .comparison, nesting => 2 * nesting * nesting + 2 * nesting + 2
  | .conjunction, nesting => 2 * nesting * nesting + 3 * nesting + 2
  | .disjunction, nesting => 2 * nesting * nesting + 4 * nesting + 2

theorem Rank.depthBound_mono (rank : Rank) {nesting more : Nat} (le : nesting ≤ more) :
    rank.depthBound nesting ≤ rank.depthBound more := by
  have squares : 2 * nesting * nesting ≤ 2 * more * more :=
    Nat.mul_le_mul (Nat.mul_le_mul_left 2 le) le
  cases rank <;> simp only [depthBound] <;> omega

/-- A chain is deeper than its operands by its nesting at most. -/
theorem Rank.depthBound_of_chain {rank operands : Rank} {ops : List BinaryOperator}
    (isChain : rank.chain? = some (ops, operands)) (nesting : Nat) :
    rank.depthBound nesting = operands.depthBound nesting + nesting := by
  cases rank <;> cases isChain <;> simp only [depthBound] <;> omega

/-- One level of nesting is worth a whole disjunction. -/
theorem Rank.depthBound_operand_succ (nesting : Nat) :
    Rank.operand.depthBound (nesting + 1) = Rank.disjunction.depthBound nesting + 1 := by
  simp only [depthBound]
  ring

theorem Rank.depthBound_prefixed_le (nesting : Nat) :
    Rank.prefixed.depthBound nesting ≤ Rank.disjunction.depthBound nesting := by
  simp only [depthBound]
  omega

/-! ## Chains and arguments -/

theorem length_le_foldNesting (nestings : List Nat) : nestings.length ≤ foldNesting nestings := by
  induction nestings with
  | nil => exact Nat.le_refl 0
  | cons nesting nestings ih =>
      rw [List.length_cons, foldNesting]
      omega

theorem lt_foldNesting_of_mem {nesting : Nat} {nestings : List Nat} (member : nesting ∈ nestings) :
    nesting < foldNesting nestings := by
  induction nestings with
  | nil => cases member
  | cons first nestings ih =>
      rw [foldNesting]
      rcases List.mem_cons.mp member with rfl | later
      · omega
      · have bounded := ih later
        omega

theorem le_largestNesting_of_mem {nesting : Nat} {nestings : List Nat}
    (member : nesting ∈ nestings) : nesting ≤ largestNesting nestings := by
  induction nestings with
  | nil => cases member
  | cons first nestings ih =>
      rw [largestNesting]
      rcases List.mem_cons.mp member with rfl | later
      · exact Nat.le_max_left _ _
      · exact Nat.le_trans (ih later) (Nat.le_max_right _ _)

theorem maxDepth_le {args : List Expr} {bound : Nat} (bounded : ∀ arg ∈ args, arg.depth ≤ bound) :
    maxDepth args ≤ bound := by
  induction args with
  | nil => exact Nat.zero_le bound
  | cons arg args ih =>
      rcases List.forall_mem_cons.mp bounded with ⟨first, others⟩
      exact Nat.max_le.mpr ⟨first, ih others⟩

/-- Every fold makes a tree deeper by one if its operands are not deeper. -/
theorem depth_chainExpr_le {left : Expr} {others : List (BinaryOperator × Phrase)} {bound : Nat}
    (ofLeft : left.depth ≤ bound) (ofOthers : ∀ other ∈ others, other.2.expr.depth ≤ bound) :
    (chainExpr left others).depth ≤ bound + others.length := by
  induction others generalizing left bound with
  | nil => exact ofLeft
  | cons other others ih =>
      rcases List.forall_mem_cons.mp ofOthers with ⟨first, rest⟩
      have folded : (binary other.1 left other.2.expr).depth ≤ bound + 1 := by
        rw [depth]
        omega
      have whole := ih folded fun other member => Nat.le_succ_of_le (rest other member)
      rw [chainExpr_cons, List.length_cons]
      omega

/-! ## Derivations -/

/-- No phrase is deeper than the bound for its nesting. -/
theorem Derives.depth_le {rank : Rank} {phrase : Phrase} (derives : Derives rank phrase) :
    phrase.expr.depth ≤ rank.depthBound phrase.nesting := by
  induction derives with
  | @chain rank operands ops first others isChain _ _ _ start rest =>
      have folds := length_le_foldNesting (others.map fun other => other.2.nesting)
      rw [List.length_map] at folds
      rw [Phrase.chain_expr, Phrase.chain_nesting, Rank.depthBound_of_chain isChain]
      generalize nestingEq : max first.nesting _ = nesting
      have ofFirst : first.expr.depth ≤ operands.depthBound nesting :=
        Nat.le_trans start (operands.depthBound_mono (by omega))
      have ofOthers : ∀ other ∈ others, other.2.expr.depth ≤ operands.depthBound nesting := by
        intro other member
        have folded := lt_foldNesting_of_mem
          (List.mem_map_of_mem (f := fun other => other.2.nesting) member)
        exact Nat.le_trans (rest other member) (operands.depthBound_mono (by omega))
      have whole := depth_chainExpr_le ofFirst ofOthers
      omega
  | uncompared _ sum =>
      simp only [Rank.depthBound] at sum ⊢
      omega
  | @compared left right op _ _ _ ofLeft ofRight =>
      have leftBounded := Nat.le_trans ofLeft
        (Rank.sum.depthBound_mono (Nat.le_max_left _ right.nesting))
      have rightBounded := Nat.le_trans ofRight
        (Rank.sum.depthBound_mono (Nat.le_max_right left.nesting _))
      simp only [Rank.depthBound] at leftBounded rightBounded
      simp only [Phrase.compare, depth, Rank.depthBound]
      omega
  | bare _ operand => exact operand
  | @prefixed kind op inner _ _ ofInner =>
      have nested : Rank.prefixed.depthBound (inner.nesting + 1) = _ :=
        Rank.depthBound_operand_succ inner.nesting
      have weaker := Rank.depthBound_prefixed_le inner.nesting
      rw [Phrase.prefixed, depth, nested]
      omega
  | parenthesized _ ofInner =>
      rw [Phrase.parenthesized, Rank.depthBound_operand_succ]
      exact Nat.le_succ_of_le ofInner
  | @call name args _ _ ofArgs =>
      rw [Phrase.call, depth, Rank.depthBound_operand_succ, Nat.add_comm]
      apply Nat.succ_le_succ
      apply maxDepth_le
      rw [List.forall_mem_map]
      intro arg member
      have nesting := le_largestNesting_of_mem (List.mem_map_of_mem (f := Phrase.nesting) member)
      exact Nat.le_trans (ofArgs arg member) (Rank.disjunction.depthBound_mono nesting)
  | property => exact Nat.le_refl 1
  | literal => exact Nat.le_refl 1

/-- The depth of a filter is bounded by the square of the limit. -/
theorem depth_le_of_read {maxNesting : Nat} {source : String} {expr : Expr}
    (isRead : read maxNesting source = .ok (some expr)) :
    expr.depth ≤ 2 * (maxNesting + 1) * (maxNesting + 1) := by
  rcases read_eq_ok_some_iff.mp isRead with ⟨tokens, _, nesting, enough, derives⟩
  have bounded := Nat.le_trans derives.depth_le (Rank.disjunction.depthBound_mono enough)
  have square : Rank.disjunction.depthBound maxNesting =
      2 * (maxNesting + 1) * (maxNesting + 1) := by
    simp only [Rank.depthBound]
    ring
  exact square ▸ bounded

/-! ## Long chains -/

/-- The phrase of a property. -/
def sampleOperand : Phrase :=
  ⟨[.path "a"], .property ⟨["a"], by decide, by decide⟩, 0⟩

theorem derives_sampleOperand : Derives .prefixed sampleOperand := by
  have isPath : Path.read? "a" = some ⟨["a"], by decide, by decide⟩ :=
    Path.read?_eq_some_iff.mpr rfl
  exact .bare (.property isPath)

/-- A phrase followed by more operands, all after the same operator. -/
def Phrase.lengthen (phrase : Phrase) (op : BinaryOperator) (count : Nat) : Phrase :=
  phrase.chain (List.replicate count (op, sampleOperand))

/-- Chains of this length at all four ranks, and a comparison, around a first
operand. -/
def Phrase.layer (inner : Phrase) (count : Nat) : Phrase :=
  let sum := (inner.lengthen .mul count).lengthen .add count
  ((sum.compare .eq sampleOperand).lengthen .and count).lengthen .or count

theorem foldNesting_replicate_zero (count : Nat) :
    foldNesting (List.replicate count 0) = count := by
  induction count with
  | zero => rfl
  | succ count ih => rw [List.replicate_succ, foldNesting, ih, Nat.zero_max]

@[simp]
theorem Phrase.lengthen_nesting (phrase : Phrase) (op : BinaryOperator) (count : Nat) :
    (phrase.lengthen op count).nesting = max phrase.nesting count := by
  rw [lengthen, chain_nesting, List.map_replicate]
  exact congrArg (max phrase.nesting) (foldNesting_replicate_zero count)

/-- Every further operand makes the tree of a chain deeper. -/
@[simp]
theorem Phrase.lengthen_depth (phrase : Phrase) (op : BinaryOperator) (count : Nat) :
    (phrase.lengthen op count).expr.depth = phrase.expr.depth + count := by
  rw [lengthen, chain_expr]
  generalize phrase.expr = left
  induction count generalizing left with
  | zero => rfl
  | succ count ih =>
      have positive := left.depth_pos
      rw [List.replicate_succ, chainExpr_cons, ih, depth]
      have sample : (op, sampleOperand).2.expr.depth = 1 := rfl
      omega

theorem Derives.lengthen {rank operands : Rank} {ops : List BinaryOperator}
    (isChain : rank.chain? = some (ops, operands)) (isWeaker : operands ≠ .operand)
    {phrase : Phrase} (derives : Derives operands phrase) {op : BinaryOperator}
    (member : op ∈ ops) (count : Nat) :
    Derives rank (phrase.lengthen op count) := by
  have others : Operands ops operands (List.replicate count (op, sampleOperand)) := by
    intro other isOther
    rw [List.eq_of_mem_replicate isOther]
    exact ⟨member, derives_sampleOperand.of_prefixed isWeaker⟩
  exact (derives_chain_iff isChain).mpr ⟨phrase, _, derives, others, rfl⟩

theorem Derives.layer {inner : Phrase} (derives : Derives .prefixed inner) (count : Nat) :
    Derives .disjunction (inner.layer count) := by
  have product : Derives .product (inner.lengthen .mul count) :=
    .lengthen rfl Rank.noConfusion derives (by decide) count
  have sum : Derives .sum ((inner.lengthen .mul count).lengthen .add count) :=
    .lengthen rfl Rank.noConfusion product (by decide) count
  have operand : Derives .sum sampleOperand := derives_sampleOperand.of_prefixed Rank.noConfusion
  have comparison : Derives .comparison
      (((inner.lengthen .mul count).lengthen .add count).compare .eq sampleOperand) :=
    .compared rfl sum operand
  have conjunction : Derives .conjunction
      ((((inner.lengthen .mul count).lengthen .add count).compare .eq sampleOperand).lengthen
        .and count) :=
    .lengthen rfl Rank.noConfusion comparison (by decide) count
  exact .lengthen rfl Rank.noConfusion conjunction (by decide) count

theorem Phrase.layer_nesting (inner : Phrase) (count : Nat) :
    (inner.layer count).nesting = max inner.nesting count := by
  simp [layer, compare, sampleOperand]

theorem Phrase.layer_depth (inner : Phrase) (count : Nat) :
    (inner.layer count).expr.depth = inner.expr.depth + 4 * count + 1 := by
  have sample : sampleOperand.expr.depth = 1 := rfl
  have positive := inner.expr.depth_pos
  simp only [layer, lengthen_depth, compare, depth, sample]
  omega

/-! ## Sources of long chains -/

/-- Whether all kinds of a phrase can be written anywhere. -/
def Phrase.IsPlain (phrase : Phrase) : Prop :=
  ∀ kind ∈ phrase.kinds, kind.IsPlain

/-- The name that sample phrases are made of is a word. -/
theorem isWord_sampleName : Token.IsWord "a" :=
  ⟨rfl, .single rfl, rfl⟩

theorem isPlain_sampleOperand : sampleOperand.IsPlain := by
  intro kind member
  rw [List.mem_singleton.mp member]
  exact isWord_sampleName

theorem Phrase.IsPlain.compare {left right : Phrase} (leftPlain : left.IsPlain)
    (rightPlain : right.IsPlain) (op : BinaryOperator) : (left.compare op right).IsPlain := by
  intro kind member
  rcases List.mem_append.mp member with isLeft | others
  · exact leftPlain kind isLeft
  · rcases List.mem_cons.mp others with rfl | isRight
    · exact trivial
    · exact rightPlain kind isRight

theorem Phrase.IsPlain.lengthen {phrase : Phrase} (plain : phrase.IsPlain) (op : BinaryOperator)
    (count : Nat) : (phrase.lengthen op count).IsPlain := by
  intro kind member
  rcases List.mem_append.mp member with isFirst | others
  · exact plain kind isFirst
  · rcases List.mem_flatMap.mp others with ⟨other, isOther, isKind⟩
    rw [List.eq_of_mem_replicate isOther] at isKind
    rcases List.mem_cons.mp isKind with rfl | isOperand
    · exact trivial
    · exact isPlain_sampleOperand kind isOperand

theorem Phrase.IsPlain.layer {inner : Phrase} (plain : inner.IsPlain) (count : Nat) :
    (inner.layer count).IsPlain := by
  have sum := (plain.lengthen .mul count).lengthen .add count
  exact ((sum.compare isPlain_sampleOperand .eq).lengthen .and count).lengthen .or count

/-- The tree of an expression of plain kinds is read from some source. -/
theorem exists_read {phrase : Phrase} (derives : Derives .disjunction phrase)
    (plain : phrase.IsPlain) {maxNesting : Nat} (enough : phrase.nesting ≤ maxNesting) :
    ∃ source, read maxNesting source = .ok (some phrase.expr) := by
  rcases Token.exists_source plain with ⟨source, tokens, tokenized, kindsEq⟩
  have derivesTokens : Derives .disjunction ⟨kindsOf tokens, phrase.expr, phrase.nesting⟩ :=
    kindsEq ▸ derives
  exact ⟨source, read_eq_ok_some_iff.mpr ⟨tokens, tokenized, _, enough, derivesTokens⟩⟩

/-- Twice the limit and two levels more bound the depth only where nothing may
be nested at all.  For any other limit, chains as long as the limit at all four
ranks are deeper. -/
theorem depth_le_twice_iff (maxNesting : Nat) :
    (∀ source expr, read maxNesting source = .ok (some expr) →
      expr.depth ≤ 2 * (maxNesting + 1)) ↔ maxNesting = 0 := by
  constructor
  · intro bounded
    by_contra positive
    have nesting : (sampleOperand.layer maxNesting).nesting ≤ maxNesting := by
      rw [Phrase.layer_nesting]
      exact Nat.max_le.mpr ⟨Nat.zero_le _, Nat.le_refl _⟩
    have derives := derives_sampleOperand.layer maxNesting
    have plain := isPlain_sampleOperand.layer maxNesting
    rcases exists_read derives plain nesting with ⟨source, isRead⟩
    have tooDeep := bounded source _ isRead
    have sample : sampleOperand.expr.depth = 1 := rfl
    rw [Phrase.layer_depth, sample] at tooDeep
    omega
  · rintro rfl source expr isRead
    exact depth_le_of_read isRead

theorem read_one_operator_of_each_rank :
    ∃ expr, read 1 "a mul b add c eq d and e or f" = .ok (some expr) ∧
      ¬ expr.depth ≤ 2 * (1 + 1) := by
  let tokens : List Token :=
    [⟨.path "a", "a", 0, 1⟩, ⟨.operator .mul, "mul", 2, 5⟩, ⟨.path "b", "b", 6, 7⟩,
      ⟨.operator .add, "add", 8, 11⟩, ⟨.path "c", "c", 12, 13⟩, ⟨.operator .eq, "eq", 14, 16⟩,
      ⟨.path "d", "d", 17, 18⟩, ⟨.operator .and, "and", 19, 22⟩, ⟨.path "e", "e", 23, 24⟩,
      ⟨.operator .or, "or", 25, 27⟩, ⟨.path "f", "f", 28, 29⟩, ⟨.endOfInput, "", 29, 29⟩]
  let product := binary .mul (property ⟨["a"], by decide, by decide⟩)
    (property ⟨["b"], by decide, by decide⟩)
  let sum := binary .add product (property ⟨["c"], by decide, by decide⟩)
  let comparison := binary .eq sum (property ⟨["d"], by decide, by decide⟩)
  let conjunction := binary .and comparison (property ⟨["e"], by decide, by decide⟩)
  let disjunction := binary .or conjunction (property ⟨["f"], by decide, by decide⟩)
  have tokenized : Token.tokenize "a mul b add c eq d and e or f" = .ok tokens := by
    decide +kernel
  have isRead : ofKinds 1 (kindsOf tokens) = .ok disjunction := by with_unfolding_all rfl
  exact ⟨disjunction,
    read_eq_ok_some_iff.mpr ⟨tokens, tokenized, ofKinds_eq_ok_iff.mp isRead⟩, by decide⟩

end OData.Expr
