import OData.Proofs.Expr.Derivation
import OData.Proofs.Outcome

/-!
# Readers read derivations only

Whatever a reader takes off the front of a list of kinds is a phrase of its
rank, its result is the tree of that phrase, and the phrase needs no more
nesting than the reader had in its budget.

Each level is sound if the readers of nested expressions that it is given are;
the recursion of `expression` on its budget then ties the levels together.
-/

namespace OData.Expr

open Token (Kind)

/-- What a reader has read within a budget: the kinds up to `rest` are a phrase
with the tree `expr`. -/
def Reads (rank : Rank) (budget : Nat) (kinds : List Kind) (expr : Expr)
    (rest : List Kind) : Prop :=
  ∃ phrase, Derives rank phrase ∧ phrase.nesting ≤ budget ∧ phrase.expr = expr ∧
    phrase.kinds ++ rest = kinds

/-- A reader of which every result is a phrase. -/
def Sound (rank : Rank) (budget : Nat) (reader : Reader Expr) : Prop :=
  ∀ ⦃kinds expr rest⦄, reader kinds = .ok (expr, rest) → Reads rank budget kinds expr rest

/-- Sound readers of nested expressions. -/
def Below.Sound {budget : Nat} (below : Below budget) : Prop :=
  ∀ smaller lt, Expr.Sound .disjunction smaller (below smaller lt)

/-- A level that makes sound readers out of sound readers. -/
def Level.Sound (rank : Rank) (level : Level) : Prop :=
  ∀ budget (below : Below budget), below.Sound → Expr.Sound rank budget (level budget below)

theorem Below.Sound.lower {budget smaller : Nat} {below : Below budget} (sound : below.Sound)
    (le : smaller ≤ budget) : (below.lower le).Sound :=
  fun smallest lt => sound smallest (Nat.lt_of_lt_of_le lt le)

/-! ## Operands -/

/-- A nested expression leaves one of the budget to what holds it. -/
theorem reads_nested {budget : Nat} {below : Below budget} (sound : below.Sound)
    {kinds rest : List Kind} {expr : Expr} (read : nested budget below kinds = .ok (expr, rest)) :
    ∃ smaller, budget = smaller + 1 ∧ Reads .disjunction smaller kinds expr rest := by
  cases budget with
  | zero => cases read
  | succ smaller => exact ⟨smaller, rfl, sound smaller _ read⟩

theorem closing_eq_ok_iff {α : Type} {value result : α} {kinds rest : List Kind} :
    closing value kinds = .ok (result, rest) ↔ result = value ∧ kinds = .rightParen :: rest := by
  unfold closing
  split
  · simp [eq_comm]
  · next noParen =>
      constructor
      · intro impossible
        cases impossible
      · rintro ⟨_, rfl⟩
        exact absurd rfl (noParen rest)

/-- Items with commas between them are phrases with commas between them. -/
theorem reads_commaSeparated {budget : Nat} {item : Reader Expr}
    (sound : Sound .disjunction budget item) (rounds : Nat) {kinds rest : List Kind}
    {exprs : List Expr} (read : commaSeparated item rounds kinds = .ok (exprs, rest)) :
    ∃ args : List Phrase, args ≠ [] ∧ (∀ arg ∈ args, Derives .disjunction arg) ∧
      largestNesting (args.map Phrase.nesting) ≤ budget ∧ args.map Phrase.expr = exprs ∧
      [Kind.comma].intercalate (args.map Phrase.kinds) ++ rest = kinds := by
  induction rounds generalizing kinds exprs with
  | zero => cases read
  | succ rounds ih =>
      rw [commaSeparated, Except.bind_eq_ok_iff] at read
      rcases read with ⟨⟨first, afterFirst⟩, readFirst, read⟩
      rcases sound readFirst with ⟨arg, derives, enough, rfl, rfl⟩
      dsimp only at read
      split at read
      · next afterComma =>
          rw [Except.bind_eq_ok_iff] at read
          rcases read with ⟨⟨others, afterOthers⟩, readOthers, read⟩
          cases read
          rcases ih readOthers with ⟨args, nonempty, deriveArgs, enoughArgs, rfl, rfl⟩
          refine ⟨arg :: args, List.cons_ne_nil arg args, ?_, ?_, rfl, ?_⟩
          · intro other member
            rcases List.mem_cons.mp member with rfl | member
            · exact derives
            · exact deriveArgs other member
          · exact Nat.max_le.mpr ⟨enough, enoughArgs⟩
          · rw [List.map_cons, List.intercalate_cons_of_ne_nil (by simpa using nonempty)]
            simp
      · cases read
        refine ⟨[arg], List.cons_ne_nil arg [], by simpa using derives, ?_, rfl, by simp⟩
        simpa [largestNesting] using enough

/-- The arguments of a call leave one of the budget to the call. -/
theorem reads_arguments {budget : Nat} {below : Below budget} (sound : below.Sound)
    {kinds rest : List Kind} {exprs : List Expr}
    (read : arguments budget below kinds = .ok (exprs, rest)) :
    ∃ args : List Phrase, (∀ arg ∈ args, Derives .disjunction arg) ∧
      largestNesting (args.map Phrase.nesting) < budget ∧ args.map Phrase.expr = exprs ∧
      [Kind.comma].intercalate (args.map Phrase.kinds) ++ rest = kinds := by
  unfold arguments at read
  split at read
  · split at read
    · cases read
    · next positive =>
        cases read
        exact ⟨[], by simp, Nat.pos_of_ne_zero positive, rfl, rfl⟩
  · cases budget with
    | zero =>
        rw [commaSeparated, Except.bind_eq_ok_iff] at read
        rcases read with ⟨_, impossible, _⟩
        cases impossible
    | succ smaller =>
        rcases reads_commaSeparated (sound smaller (Nat.lt_succ_self smaller)) _ read with
          ⟨args, _, derive, enough, exprs, kinds⟩
        exact ⟨args, derive, Nat.lt_succ_of_le enough, exprs, kinds⟩

theorem operand_sound : Level.Sound .operand operand := by
  intro budget below sound kinds expr rest read
  unfold operand at read
  split at read
  · rw [Except.bind_eq_ok_iff] at read
    rcases read with ⟨⟨inner, afterInner⟩, readInner, read⟩
    rcases reads_nested sound readInner with ⟨smaller, rfl, phrase, derives, enough, rfl, rfl⟩
    rcases closing_eq_ok_iff.mp read with ⟨rfl, rfl⟩
    exact ⟨_, .parenthesized derives, Nat.succ_le_succ enough, rfl, by simp [Phrase.parenthesized]⟩
  · next name afterName =>
      split at read
      · cases read
      · next isSimple =>
          rw [Except.bind_eq_ok_iff] at read
          rcases read with ⟨⟨exprs, afterArgs⟩, readArgs, read⟩
          rcases reads_arguments sound readArgs with ⟨args, derive, enough, rfl, rfl⟩
          rcases closing_eq_ok_iff.mp read with ⟨rfl, rfl⟩
          refine ⟨.call name args, .call (by simpa using isSimple) derive, enough, rfl, ?_⟩
          simp [Phrase.call]
  · split at read
    · next path isPath =>
        cases read
        exact ⟨_, .property isPath, Nat.zero_le budget, rfl, rfl⟩
    · cases read
  · cases read
    exact ⟨_, .literal _, Nat.zero_le budget, rfl, rfl⟩
  · cases read
  · cases read

/-! ## Operators -/

theorem Reads.bare {budget : Nat} {kinds rest : List Kind} {expr : Expr}
    (read : Reads .operand budget kinds expr rest) : Reads .prefixed budget kinds expr rest := by
  rcases read with ⟨phrase, derives, read⟩
  exact ⟨phrase, .bare derives, read⟩

theorem prefixed_sound : Level.Sound .prefixed prefixed := by
  intro budget below sound kinds expr rest read
  induction budget, below, kinds using prefixed.induct generalizing expr rest with
  | case1 budget below =>
      rw [prefixed] at read
      exact (operand_sound budget below sound read).bare
  | case2 kind kinds budget noPrefix below =>
      rw [prefixed.eq_2 kind kinds budget below noPrefix] at read
      exact (operand_sound budget below sound read).bare
  | case3 kind kinds op isPrefix below =>
      rw [prefixed.eq_3 kind kinds below op isPrefix] at read
      cases read
  | case4 kind kinds op budget isPrefix below ih =>
      rw [prefixed.eq_4 kind kinds op budget below isPrefix, Except.bind_eq_ok_iff] at read
      rcases read with ⟨⟨inner, afterInner⟩, readInner, read⟩
      cases read
      rcases ih (sound.lower (Nat.le_succ budget)) readInner with
        ⟨phrase, derives, enough, rfl, rfl⟩
      exact ⟨_, .prefixed isPrefix derives, Nat.succ_le_succ enough, rfl, rfl⟩

section Chains

variable {rank operands : Rank} {ops : List BinaryOperator} {level : Level}

/-- What is folded into the first operand of a chain are operands, each after
an operator of the chain, and every fold leaves one less of the budget. -/
theorem reads_folded (sound : level.Sound operands) {left : Expr} {budget : Nat}
    {below : Below budget} (soundBelow : below.Sound) {kinds rest : List Kind} {expr : Expr}
    (read : folded ops level left budget below kinds = .ok (expr, rest)) :
    ∃ others, Operands ops operands others ∧
      foldNesting (others.map fun other => other.2.nesting) ≤ budget ∧
      chainExpr left others = expr ∧ chainKinds others ++ rest = kinds := by
  induction left, budget, below, kinds using folded.induct ops generalizing expr rest with
  | case1 left budget below =>
      rw [folded] at read
      cases read
      exact ⟨[], operands_nil ops operands, Nat.zero_le budget, rfl, rfl⟩
  | case2 left budget kind kinds noOperator below =>
      rw [folded.eq_2 ops level left kind kinds budget below noOperator] at read
      cases read
      exact ⟨[], operands_nil ops operands, Nat.zero_le budget, rfl, rfl⟩
  | case3 left kind kinds op isOperator below =>
      rw [folded.eq_3 ops level left kind kinds below op isOperator] at read
      cases read
  | case4 left kind kinds op budget isOperator below lowered ih =>
      rw [folded.eq_4 ops level left kind kinds op budget below isOperator,
        Except.bind_eq_ok_iff] at read
      rcases read with ⟨⟨right, afterRight⟩, readRight, readOthers⟩
      have soundLowered : lowered.Sound := soundBelow.lower (Nat.le_succ budget)
      rcases sound budget lowered soundLowered readRight with ⟨operand, derives, enough, rfl, rfl⟩
      rcases ih operand.expr afterRight soundLowered readOthers with
        ⟨others, areOperands, enoughOthers, rfl, rfl⟩
      rcases operatorIn?_eq_some_iff.mp isOperator with ⟨rfl, member⟩
      refine ⟨(op, operand) :: others, ?_, ?_, rfl, by simp⟩
      · exact operands_cons_iff.mpr ⟨⟨member, derives⟩, areOperands⟩
      · exact Nat.succ_le_succ (Nat.max_le.mpr ⟨enough, enoughOthers⟩)

theorem chain_sound (isChain : rank.chain? = some (ops, operands))
    (sound : level.Sound operands) : Level.Sound rank (chain ops level) := by
  intro budget below soundBelow kinds expr rest read
  rw [chain, Except.bind_eq_ok_iff] at read
  rcases read with ⟨⟨first, afterFirst⟩, readFirst, readOthers⟩
  rcases sound budget below soundBelow readFirst with ⟨operand, derives, enough, rfl, rfl⟩
  rcases reads_folded sound soundBelow readOthers with ⟨others, areOperands, enoughOthers, rfl, rfl⟩
  refine ⟨operand.chain others, ?_, ?_, rfl, by simp⟩
  · exact (derives_chain_iff isChain).mpr ⟨operand, others, derives, areOperands, rfl⟩
  · rw [Phrase.chain_nesting]
    exact Nat.max_le.mpr ⟨enough, enoughOthers⟩

end Chains

theorem compared_sound {level : Level} (sound : level.Sound .sum) :
    Level.Sound .comparison (compared level) := by
  intro budget below soundBelow kinds expr rest read
  rw [compared, Except.bind_eq_ok_iff] at read
  rcases read with ⟨⟨first, afterFirst⟩, readFirst, read⟩
  rcases sound budget below soundBelow readFirst with ⟨left, leftSum, enoughLeft, rfl, rfl⟩
  dsimp only at read
  split at read
  · cases read
    exact ⟨left, .uncompared leftSum, enoughLeft, rfl, rfl⟩
  · next kind afterKind =>
      split at read
      · cases read
        exact ⟨left, .uncompared leftSum, enoughLeft, rfl, rfl⟩
      · next op isComparison =>
          rcases operatorIn?_eq_some_iff.mp isComparison with ⟨rfl, member⟩
          rw [Except.bind_eq_ok_iff] at read
          rcases read with ⟨⟨second, afterSecond⟩, readSecond, read⟩
          rcases sound budget below soundBelow readSecond with
            ⟨right, rightSum, enoughRight, rfl, rfl⟩
          dsimp only at read
          split at read
          · cases read
          · cases read
            refine ⟨left.compare op right, ?_, ?_, rfl, by simp [Phrase.compare]⟩
            · exact .compared (mem_comparisons_iff.mp member) leftSum rightSum
            · exact Nat.max_le.mpr ⟨enoughLeft, enoughRight⟩

/-! ## Expressions -/

theorem product_sound : Level.Sound .product product :=
  chain_sound rfl prefixed_sound

theorem sum_sound : Level.Sound .sum sum :=
  chain_sound rfl product_sound

theorem comparison_sound : Level.Sound .comparison comparison :=
  compared_sound sum_sound

theorem conjunction_sound : Level.Sound .conjunction conjunction :=
  chain_sound rfl comparison_sound

theorem disjunction_sound : Level.Sound .disjunction disjunction :=
  chain_sound rfl conjunction_sound

/-- What is read as an expression is one. -/
theorem expression_sound (budget : Nat) : Sound .disjunction budget (expression budget) := by
  induction budget using Nat.strongRecOn with
  | ind budget ih =>
      rw [expression_eq]
      exact disjunction_sound budget _ ih

end OData.Expr
