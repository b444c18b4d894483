import OData.Proofs.Expr.Derivation
import OData.Proofs.Outcome

/-!
# Readers read every derivation

A reader whose budget covers the nesting of a phrase of its rank reads exactly
that phrase off the front of a list of kinds, whatever follows, as long as the
phrase ends there.  As for soundness, each level is complete if the readers of
nested expressions that it is given are.
-/

namespace OData.Expr

open Token (Kind)

/-- A reader that reads every phrase its budget is enough for. -/
def Complete (rank : Rank) (budget : Nat) (reader : Reader Expr) : Prop :=
  ∀ ⦃phrase⦄, Derives rank phrase → phrase.nesting ≤ budget → ∀ ⦃rest⦄, Stops rank rest →
    reader (phrase.kinds ++ rest) = .ok (phrase.expr, rest)

/-- Complete readers of nested expressions. -/
def Below.Complete {budget : Nat} (below : Below budget) : Prop :=
  ∀ smaller lt, Expr.Complete .disjunction smaller (below smaller lt)

/-- A level that makes complete readers out of complete readers. -/
def Level.Complete (rank : Rank) (level : Level) : Prop :=
  ∀ budget (below : Below budget), below.Complete →
    Expr.Complete rank budget (level budget below)

theorem Below.Complete.lower {budget smaller : Nat} {below : Below budget}
    (complete : below.Complete) (le : smaller ≤ budget) : (below.lower le).Complete :=
  fun smallest lt => complete smallest (Nat.lt_of_lt_of_le lt le)

/-! ## Operands -/

theorem nested_complete {budget : Nat} {below : Below budget} (complete : below.Complete)
    {inner : Phrase} (derives : Derives .disjunction inner) (enough : inner.nesting < budget)
    {rest : List Kind} (stops : Stops .disjunction rest) :
    nested budget below (inner.kinds ++ rest) = .ok (inner.expr, rest) := by
  cases budget with
  | zero => cases enough
  | succ smaller =>
      exact complete smaller (Nat.lt_succ_self smaller) derives (Nat.le_of_lt_succ enough) stops

/-- Phrases with commas between them are read up to the parenthesis that
closes them, if there are as many rounds as phrases. -/
theorem commaSeparated_complete {budget : Nat} {item : Reader Expr}
    (complete : Complete .disjunction budget item) {args : List Phrase} (nonempty : args ≠ [])
    (derive : ∀ arg ∈ args, Derives .disjunction arg)
    (enough : largestNesting (args.map Phrase.nesting) ≤ budget) (rest : List Kind)
    {rounds : Nat} (enoughRounds : args.length ≤ rounds) :
    commaSeparated item rounds
        ([Kind.comma].intercalate (args.map Phrase.kinds) ++ .rightParen :: rest) =
      .ok (args.map Phrase.expr, .rightParen :: rest) := by
  induction args generalizing rounds with
  | nil => exact absurd rfl nonempty
  | cons arg args ih =>
      obtain ⟨rounds, rfl⟩ : ∃ fewer, rounds = fewer + 1 :=
        Nat.exists_eq_succ_of_ne_zero (Nat.ne_zero_of_lt enoughRounds)
      have first := derive arg List.mem_cons_self
      rcases Nat.max_le.mp enough with ⟨enoughFirst, enoughOthers⟩
      rw [commaSeparated, Except.bind_eq_ok_iff]
      by_cases single : args = []
      · subst single
        rw [List.map_singleton, List.intercalate_singleton]
        exact ⟨_, complete first enoughFirst (stops_rightParen _ rest), rfl⟩
      · have others := ih single (fun other member => derive other (List.mem_cons_of_mem _ member))
          enoughOthers (Nat.le_of_succ_le_succ enoughRounds)
        rw [List.map_cons, List.intercalate_cons_of_ne_nil (by simpa using single),
          List.append_assoc, List.append_assoc]
        exact ⟨_, complete first enoughFirst (stops_comma _ _),
          Except.bind_eq_ok_iff.mpr ⟨_, others, rfl⟩⟩

/-- No argument is empty, so there are as many kinds as arguments. -/
theorem length_le_length_intercalate {args : List Phrase}
    (derive : ∀ arg ∈ args, Derives .disjunction arg) :
    args.length ≤ ([Kind.comma].intercalate (args.map Phrase.kinds)).length := by
  induction args with
  | nil => exact Nat.le_refl 0
  | cons arg args ih =>
      have first := List.length_pos_iff.mpr (derive arg List.mem_cons_self).kinds_ne_nil
      have rest := ih fun other member => derive other (List.mem_cons_of_mem _ member)
      cases args with
      | nil => simpa using Nat.succ_le_of_lt first
      | cons second args =>
          simp only [List.map_cons, List.intercalate_cons_cons, List.length_append,
            List.length_cons] at rest ⊢
          omega

/-- Arguments do not start with the parenthesis that would close them. -/
theorem arguments_eq_commaSeparated {budget : Nat} {below : Below budget} {arg : Phrase}
    (derives : Derives .disjunction arg) (args : List Phrase) (rest : List Kind) :
    let kinds := [Kind.comma].intercalate ((arg :: args).map Phrase.kinds) ++ rest
    arguments budget below kinds =
      commaSeparated (nested budget below) (kinds.length + 1) kinds := by
  rcases derives.kinds_eq_cons with ⟨kind, more, kinds, starts⟩
  rw [List.map_cons, kinds, List.intercalate_cons_cons_left, List.cons_append]
  apply arguments.eq_2
  intro others equal
  cases equal
  rcases starts with starts | starts <;> cases starts

theorem arguments_complete {budget : Nat} {below : Below budget} (complete : below.Complete)
    {args : List Phrase} (derive : ∀ arg ∈ args, Derives .disjunction arg)
    (enough : largestNesting (args.map Phrase.nesting) < budget) (rest : List Kind) :
    arguments budget below
        ([Kind.comma].intercalate (args.map Phrase.kinds) ++ .rightParen :: rest) =
      .ok (args.map Phrase.expr, .rightParen :: rest) := by
  cases args with
  | nil =>
      rw [List.map_nil, List.intercalate_nil, List.nil_append, arguments,
        if_neg (Nat.ne_zero_of_lt enough)]
      rfl
  | cons arg args =>
      rw [arguments_eq_commaSeparated (derive arg List.mem_cons_self)]
      cases budget with
      | zero => cases enough
      | succ smaller =>
          apply commaSeparated_complete (complete smaller (Nat.lt_succ_self smaller))
            (List.cons_ne_nil arg args) derive (Nat.le_of_lt_succ enough) rest
          have rounds := length_le_length_intercalate derive
          rw [List.length_append]
          omega

theorem operand_complete : Level.Complete .operand operand := by
  intro budget below complete phrase derives enough rest stops
  cases derives with
  | chain isChain => cases isChain
  | @parenthesized inner any =>
      simp only [Phrase.parenthesized, List.cons_append, List.append_assoc, List.nil_append]
      rw [operand, Except.bind_eq_ok_iff]
      exact ⟨_, nested_complete complete any enough (stops_rightParen _ rest), rfl⟩
  | @call name args isSimple any =>
      simp only [Phrase.call, List.cons_append, List.append_assoc, List.nil_append]
      rw [operand, if_neg (by simpa using isSimple), Except.bind_eq_ok_iff]
      exact ⟨_, arguments_complete complete any enough rest, rfl⟩
  | @property text path isPath =>
      rw [List.singleton_append, operand, isPath]
      intro others equal
      cases equal
      exact stops.1 rfl
  | literal value => rw [List.singleton_append, operand]

/-! ## Operators -/

/-- Without a prefix operator in front, an operand is all there is to read. -/
theorem prefixed_eq_operand {budget : Nat} {below : Below budget} {phrase : Phrase}
    (derives : Derives .operand phrase) (rest : List Kind) :
    prefixed budget below (phrase.kinds ++ rest) = operand budget below (phrase.kinds ++ rest) := by
  rcases operand_kinds_eq_cons derives with ⟨kind, more, kinds, starts⟩
  rw [kinds, List.cons_append]
  exact prefixed.eq_2 _ _ _ _ (prefixOperator?_of_startsOperand starts)

theorem prefixed_complete : Level.Complete .prefixed prefixed := by
  intro budget
  induction budget using Nat.strongRecOn with
  | ind budget ih =>
      intro below complete phrase derives enough rest stops
      cases derives with
      | chain isChain => cases isChain
      | bare derives =>
          rw [prefixed_eq_operand derives]
          exact operand_complete budget below complete derives enough stops
      | @prefixed kind op inner isPrefix derives =>
          obtain ⟨smaller, rfl⟩ : ∃ smaller, budget = smaller + 1 :=
            Nat.exists_eq_succ_of_ne_zero (Nat.ne_zero_of_lt enough)
          simp only [Phrase.prefixed, List.cons_append]
          rw [prefixed.eq_4 kind _ op smaller below isPrefix, Except.bind_eq_ok_iff]
          exact ⟨_, ih smaller (Nat.lt_succ_self smaller) _ (complete.lower (Nat.le_succ smaller))
            derives (Nat.le_of_succ_le_succ enough) stops, rfl⟩

section Chains

variable {rank operands : Rank} {ops : List BinaryOperator} {level : Level}

/-- Where no operator of the chain follows, nothing is folded. -/
theorem folded_eq_ok {left : Expr} {budget : Nat} {below : Below budget} {kinds : List Kind}
    (noOperator : operatorIn? ops (next kinds) = none) :
    folded ops level left budget below kinds = .ok (left, kinds) := by
  cases kinds with
  | nil => rw [folded]
  | cons kind kinds => exact folded.eq_2 _ _ _ _ _ _ _ noOperator

theorem folded_complete (isChain : rank.chain? = some (ops, operands))
    (complete : level.Complete operands) {others : List (BinaryOperator × Phrase)}
    (areOperands : Operands ops operands others) {left : Expr} {budget : Nat}
    {below : Below budget} (completeBelow : below.Complete)
    (enough : foldNesting (others.map fun other => other.2.nesting) ≤ budget)
    {rest : List Kind} (stops : Stops rank rest) :
    folded ops level left budget below (chainKinds others ++ rest) =
      .ok (chainExpr left others, rest) := by
  induction others generalizing left budget with
  | nil => exact folded_eq_ok (stops.operatorIn?_of_chain isChain)
  | cons other others ih =>
      rcases operands_cons_iff.mp areOperands with ⟨⟨member, derives⟩, areOthers⟩
      obtain ⟨smaller, rfl⟩ : ∃ smaller, budget = smaller + 1 :=
        Nat.exists_eq_succ_of_ne_zero (Nat.ne_zero_of_lt enough)
      rcases Nat.max_le.mp (Nat.le_of_succ_le_succ enough) with ⟨enoughOther, enoughOthers⟩
      have completeLower := completeBelow.lower (Nat.le_succ smaller)
      rw [chainKinds_cons, List.cons_append, List.append_assoc,
        folded.eq_4 _ _ _ _ _ _ _ _ (operatorIn?_operator_of_mem member), Except.bind_eq_ok_iff]
      exact ⟨_, complete smaller _ completeLower derives enoughOther
          (stops_chainKinds isChain areOthers stops),
        ih areOthers completeLower enoughOthers⟩

theorem chain_complete (isChain : rank.chain? = some (ops, operands))
    (complete : level.Complete operands) : Level.Complete rank (chain ops level) := by
  intro budget below completeBelow phrase derives enough rest stops
  rcases (derives_chain_iff isChain).mp derives with ⟨first, others, start, areOperands, rfl⟩
  rw [Phrase.chain_nesting] at enough
  rcases Nat.max_le.mp enough with ⟨enoughFirst, enoughOthers⟩
  rw [Phrase.chain_kinds, List.append_assoc, chain, Except.bind_eq_ok_iff]
  exact ⟨_, complete budget below completeBelow start enoughFirst
      (stops_chainKinds isChain areOperands stops),
    folded_complete isChain complete areOperands completeBelow enoughOthers stops⟩

end Chains

theorem compared_complete {level : Level} (complete : level.Complete .sum) :
    Level.Complete .comparison (compared level) := by
  intro budget below completeBelow phrase derives enough rest stops
  have stopsSum : Stops .sum rest := stops.of_subset (by decide)
  have noComparison : operatorIn? comparisons (next rest) = none :=
    operatorIn?_of_subset (by decide) stops.2
  rw [compared, Except.bind_eq_ok_iff]
  cases derives with
  | chain isChain => cases isChain
  | uncompared derives =>
      refine ⟨_, complete budget below completeBelow derives enough stopsSum, ?_⟩
      cases rest with
      | nil => rfl
      | cons kind rest =>
          change operatorIn? comparisons kind = none at noComparison
          simp only [noComparison]
          rfl
  | @compared left right op isComparison leftSum rightSum =>
      rcases Nat.max_le.mp enough with ⟨enoughLeft, enoughRight⟩
      have notSum : op ∉ Rank.sum.operators := by cases op <;> cases isComparison <;> decide
      have member := mem_comparisons_iff.mpr isComparison
      simp only [Phrase.compare, List.append_assoc, List.cons_append]
      refine ⟨_, complete budget below completeBelow leftSum enoughLeft
        (stops_operator notSum _), ?_⟩
      simp only [operatorIn?_operator_of_mem member]
      rw [Except.bind_eq_ok_iff]
      refine ⟨_, complete budget below completeBelow rightSum enoughRight stopsSum, ?_⟩
      simp only [noComparison]
      rfl

/-! ## Expressions -/

theorem disjunction_complete : Level.Complete .disjunction disjunction :=
  have product : Level.Complete .product product := chain_complete rfl prefixed_complete
  have sum : Level.Complete .sum sum := chain_complete rfl product
  have conjunction : Level.Complete .conjunction conjunction :=
    chain_complete rfl (compared_complete sum)
  chain_complete rfl conjunction

/-- Every expression is read, where the budget covers its nesting. -/
theorem expression_complete (budget : Nat) :
    Complete .disjunction budget (expression budget) := by
  induction budget using Nat.strongRecOn with
  | ind budget ih =>
      rw [expression_eq]
      exact disjunction_complete budget _ ih

end OData.Expr
