import Mathlib.Data.List.Count
import OData.Expr.Grammar

/-!
# Derivations

Facts about the phrases of the grammar that do not mention how they are read:
how a chain is taken apart, which derivations end in a phrase of a given rank,
with which kinds a phrase can start and what may follow it, and that a phrase
never needs more nesting than it has kinds.
-/

namespace OData.Expr

open Token (Kind)

/-! ## Chains -/

/-- The kinds after the first operand of a chain. -/
def chainKinds (others : List (BinaryOperator × Phrase)) : List Kind :=
  others.flatMap fun other => .operator other.1 :: other.2.kinds

/-- Fold further operands of a chain into a tree, from the left. -/
def chainExpr (left : Expr) (others : List (BinaryOperator × Phrase)) : Expr :=
  others.foldl (fun left other => .binary other.1 left other.2.expr) left

/-- The nesting that a chain needs for the operands after its first one. -/
def foldNesting : List Nat → Nat
  | [] => 0
  | nesting :: nestings => max nesting (foldNesting nestings) + 1

theorem chainNesting_cons (nesting : Nat) (nestings : List Nat) :
    chainNesting (nesting :: nestings) = max nesting (foldNesting nestings) := by
  induction nestings generalizing nesting with
  | nil => simp [chainNesting, foldNesting]
  | cons second nestings ih => simp [chainNesting, foldNesting, ih second]

@[simp]
theorem chainKinds_nil : chainKinds [] = [] :=
  rfl

@[simp]
theorem chainKinds_cons (other : BinaryOperator × Phrase)
    (others : List (BinaryOperator × Phrase)) :
    chainKinds (other :: others) =
      .operator other.1 :: (other.2.kinds ++ chainKinds others) :=
  rfl

@[simp]
theorem chainExpr_cons (left : Expr) (other : BinaryOperator × Phrase)
    (others : List (BinaryOperator × Phrase)) :
    chainExpr left (other :: others) =
      chainExpr (.binary other.1 left other.2.expr) others :=
  rfl

namespace Phrase

@[simp]
theorem chain_kinds (first : Phrase) (others : List (BinaryOperator × Phrase)) :
    (first.chain others).kinds = first.kinds ++ chainKinds others :=
  rfl

@[simp]
theorem chain_expr (first : Phrase) (others : List (BinaryOperator × Phrase)) :
    (first.chain others).expr = chainExpr first.expr others :=
  rfl

@[simp]
theorem chain_nesting (first : Phrase) (others : List (BinaryOperator × Phrase)) :
    (first.chain others).nesting =
      max first.nesting (foldNesting (others.map fun other => other.2.nesting)) :=
  chainNesting_cons _ _

theorem chain_nil (phrase : Phrase) : phrase.chain [] = phrase := by
  simp [chain, chainNesting]

end Phrase

/-- The operands of a chain after the first, each with an operator of `ops` in
front of it. -/
def Operands (ops : List BinaryOperator) (operands : Rank)
    (others : List (BinaryOperator × Phrase)) : Prop :=
  ∀ other ∈ others, other.1 ∈ ops ∧ Derives operands other.2

theorem operands_nil (ops : List BinaryOperator) (operands : Rank) :
    Operands ops operands [] :=
  fun _ member => absurd member List.not_mem_nil

theorem operands_cons_iff {ops : List BinaryOperator} {operands : Rank}
    {other : BinaryOperator × Phrase} {others : List (BinaryOperator × Phrase)} :
    Operands ops operands (other :: others) ↔
      (other.1 ∈ ops ∧ Derives operands other.2) ∧ Operands ops operands others := by
  simp [Operands]

/-! ## The last rule of a derivation -/

/-- A phrase of a rank of chains is a chain of operands. -/
theorem derives_chain_iff {rank operands : Rank} {ops : List BinaryOperator}
    (isChain : rank.chain? = some (ops, operands)) {phrase : Phrase} :
    Derives rank phrase ↔
      ∃ first others, Derives operands first ∧ Operands ops operands others ∧
        phrase = first.chain others := by
  constructor
  · intro derives
    cases derives with
    | chain isChain' operators start rest =>
        rw [isChain] at isChain'
        cases isChain'
        exact ⟨_, _, start, fun other member => ⟨operators other member, rest other member⟩, rfl⟩
    | uncompared => cases isChain
    | compared => cases isChain
    | bare => cases isChain
    | prefixed => cases isChain
    | parenthesized => cases isChain
    | call => cases isChain
    | property => cases isChain
    | literal => cases isChain
  · rintro ⟨first, others, start, rest, rfl⟩
    exact .chain isChain (fun other member => (rest other member).1) start
      fun other member => (rest other member).2

/-- A phrase of the operands of a rank of chains is a chain by itself. -/
theorem Derives.single {rank operands : Rank} {ops : List BinaryOperator}
    (isChain : rank.chain? = some (ops, operands)) {phrase : Phrase}
    (derives : Derives operands phrase) : Derives rank phrase :=
  (derives_chain_iff isChain).mpr
    ⟨phrase, [], derives, operands_nil ops operands, phrase.chain_nil.symm⟩

/-- Prefixed operands are phrases of any weaker rank. -/
theorem Derives.of_prefixed {rank : Rank} (isWeaker : rank ≠ .operand) {phrase : Phrase}
    (derives : Derives .prefixed phrase) : Derives rank phrase := by
  have product : Derives .product phrase := .single rfl derives
  have sum : Derives .sum phrase := .single rfl product
  have comparison : Derives .comparison phrase := .uncompared sum
  have conjunction : Derives .conjunction phrase := .single rfl comparison
  have disjunction : Derives .disjunction phrase := .single rfl conjunction
  cases rank with
  | disjunction => exact disjunction
  | conjunction => exact conjunction
  | comparison => exact comparison
  | sum => exact sum
  | product => exact product
  | prefixed => exact derives
  | operand => exact absurd rfl isWeaker

/-- Phrases of any rank are expressions. -/
theorem Derives.to_disjunction {rank : Rank} {phrase : Phrase} (derives : Derives rank phrase) :
    Derives .disjunction phrase := by
  have ofConjunction : Derives .conjunction phrase → Derives .disjunction phrase := .single rfl
  have ofComparison : Derives .comparison phrase → Derives .disjunction phrase :=
    ofConjunction ∘ .single rfl
  have ofSum : Derives .sum phrase → Derives .disjunction phrase := ofComparison ∘ .uncompared
  cases rank with
  | disjunction => exact derives
  | conjunction => exact ofConjunction derives
  | comparison => exact ofComparison derives
  | sum => exact ofSum derives
  | product => exact ofSum (.single rfl derives)
  | prefixed => exact derives.of_prefixed Rank.noConfusion
  | operand => exact (Derives.bare derives).of_prefixed Rank.noConfusion

/-! ## The first kind of a phrase -/

/-- Whether an operand can start with a kind. -/
def startsOperand : Kind → Bool
  | .leftParen | .path _ | .literal _ => true
  | _ => false

theorem prefixOperator?_of_startsOperand {kind : Kind} (starts : startsOperand kind) :
    prefixOperator? kind = none := by
  cases kind with
  | leftParen => rfl
  | path => rfl
  | literal => rfl
  | _ => cases starts

/-- An operand starts with a parenthesis, a path or a literal. -/
theorem operand_kinds_eq_cons {phrase : Phrase} (derives : Derives .operand phrase) :
    ∃ kind more, phrase.kinds = kind :: more ∧ startsOperand kind := by
  cases derives with
  | chain isChain => cases isChain
  | parenthesized => exact ⟨_, _, rfl, rfl⟩
  | call => exact ⟨_, _, rfl, rfl⟩
  | property => exact ⟨_, _, rfl, rfl⟩
  | literal => exact ⟨_, _, rfl, rfl⟩

/-- A phrase starts with an operand or a prefix operator. -/
theorem Derives.kinds_eq_cons {rank : Rank} {phrase : Phrase} (derives : Derives rank phrase) :
    ∃ kind more, phrase.kinds = kind :: more ∧
      (startsOperand kind ∨ (prefixOperator? kind).isSome) := by
  induction derives with
  | chain _ _ _ _ start _ =>
      rcases start with ⟨kind, more, kinds, starts⟩
      exact ⟨kind, _, by rw [Phrase.chain_kinds, kinds, List.cons_append], starts⟩
  | uncompared _ sum => exact sum
  | @compared left right op _ _ _ leftSum _ =>
      rcases leftSum with ⟨kind, more, kinds, starts⟩
      exact ⟨kind, more ++ .operator op :: right.kinds, by simp [Phrase.compare, kinds], starts⟩
  | bare operand _ =>
      rcases operand_kinds_eq_cons operand with ⟨kind, more, kinds, starts⟩
      exact ⟨kind, more, kinds, .inl starts⟩
  | prefixed isPrefix _ _ => exact ⟨_, _, rfl, .inr (by rw [isPrefix]; rfl)⟩
  | parenthesized => exact ⟨_, _, rfl, .inl rfl⟩
  | call => exact ⟨_, _, rfl, .inl rfl⟩
  | property => exact ⟨_, _, rfl, .inl rfl⟩
  | literal => exact ⟨_, _, rfl, .inl rfl⟩

theorem Derives.kinds_ne_nil {rank : Rank} {phrase : Phrase} (derives : Derives rank phrase) :
    phrase.kinds ≠ [] := by
  rcases derives.kinds_eq_cons with ⟨kind, more, kinds, _⟩
  rw [kinds]
  exact List.cons_ne_nil kind more

/-! ## What may follow a phrase -/

/-- The operators that phrases of a rank have outside parentheses. -/
def Rank.operators : Rank → List BinaryOperator
  | .disjunction => .or :: .and :: comparisons ++ [.add, .sub, .mul, .div, .mod]
  | .conjunction => .and :: comparisons ++ [.add, .sub, .mul, .div, .mod]
  | .comparison => comparisons ++ [.add, .sub, .mul, .div, .mod]
  | .sum => [.add, .sub, .mul, .div, .mod]
  | .product => [.mul, .div, .mod]
  | .prefixed | .operand => []

/-- Whether a phrase of a rank ends where these kinds follow: there is no
operator that it would go on with, and no parenthesis that would make a call
of a property at its end. -/
def Stops (rank : Rank) (kinds : List Kind) : Prop :=
  next kinds ≠ .leftParen ∧ operatorIn? rank.operators (next kinds) = none

theorem mem_comparisons_iff {op : BinaryOperator} : op ∈ comparisons ↔ op.isComparison := by
  cases op <;> decide

theorem operatorIn?_eq_some_iff {ops : List BinaryOperator} {kind : Kind} {op : BinaryOperator} :
    operatorIn? ops kind = some op ↔ kind = .operator op ∧ op ∈ ops := by
  unfold operatorIn?
  split
  · next found =>
      split
      · next member =>
          constructor
          · intro equal
            cases equal
            exact ⟨rfl, member⟩
          · rintro ⟨equal, _⟩
            cases equal
            rfl
      · next notMember =>
          constructor
          · intro impossible
            cases impossible
          · rintro ⟨equal, member⟩
            cases equal
            exact absurd member notMember
  · next noOperator =>
      constructor
      · intro impossible
        cases impossible
      · rintro ⟨rfl, _⟩
        exact absurd rfl (noOperator op)

theorem operatorIn?_of_subset {ops more : List BinaryOperator} (subset : ops ⊆ more)
    {kind : Kind} (noOperator : operatorIn? more kind = none) : operatorIn? ops kind = none := by
  rw [Option.eq_none_iff_forall_not_mem] at noOperator ⊢
  intro op found
  rcases operatorIn?_eq_some_iff.mp found with ⟨isOperator, member⟩
  exact noOperator op (operatorIn?_eq_some_iff.mpr ⟨isOperator, subset member⟩)

theorem operatorIn?_operator_of_mem {ops : List BinaryOperator} {op : BinaryOperator}
    (member : op ∈ ops) : operatorIn? ops (.operator op) = some op :=
  operatorIn?_eq_some_iff.mpr ⟨rfl, member⟩

/-- A phrase ends where a phrase of a weaker rank ends. -/
theorem Stops.of_subset {rank weaker : Rank} (subset : rank.operators ⊆ weaker.operators)
    {kinds : List Kind} (stops : Stops weaker kinds) : Stops rank kinds :=
  ⟨stops.1, operatorIn?_of_subset subset stops.2⟩

/-- A phrase ends before an operator that only weaker ranks have. -/
theorem stops_operator {rank : Rank} {op : BinaryOperator} (isWeaker : op ∉ rank.operators)
    (kinds : List Kind) : Stops rank (.operator op :: kinds) := by
  constructor
  · exact Token.Kind.noConfusion
  rw [Option.eq_none_iff_forall_not_mem]
  intro found member
  rcases operatorIn?_eq_some_iff.mp member with ⟨equal, isStronger⟩
  cases equal
  exact isWeaker isStronger

theorem stops_nil (rank : Rank) : Stops rank [] :=
  ⟨Token.Kind.noConfusion, rfl⟩

theorem stops_rightParen (rank : Rank) (kinds : List Kind) : Stops rank (.rightParen :: kinds) :=
  ⟨Token.Kind.noConfusion, rfl⟩

theorem stops_comma (rank : Rank) (kinds : List Kind) : Stops rank (.comma :: kinds) :=
  ⟨Token.Kind.noConfusion, rfl⟩

section Chains

variable {rank operands : Rank} {ops : List BinaryOperator}

/-- The operators of a chain are those that its rank has more than the rank of
its operands. -/
theorem mem_operators_iff_of_chain (isChain : rank.chain? = some (ops, operands))
    (op : BinaryOperator) :
    op ∈ rank.operators ↔ op ∈ ops ∨ op ∈ operands.operators := by
  cases rank <;> cases isChain <;> cases op <;> decide

theorem not_mem_operators_of_chain (isChain : rank.chain? = some (ops, operands))
    {op : BinaryOperator} (member : op ∈ ops) : op ∉ operands.operators := by
  cases rank <;> cases isChain <;> cases op <;> revert member <;> decide

theorem Stops.of_chain (isChain : rank.chain? = some (ops, operands)) {kinds : List Kind}
    (stops : Stops rank kinds) : Stops operands kinds :=
  stops.of_subset fun op member => (mem_operators_iff_of_chain isChain op).mpr (.inr member)

theorem Stops.operatorIn?_of_chain (isChain : rank.chain? = some (ops, operands))
    {kinds : List Kind} (stops : Stops rank kinds) : operatorIn? ops (next kinds) = none :=
  operatorIn?_of_subset
    (fun op member => (mem_operators_iff_of_chain isChain op).mpr (.inl member)) stops.2

/-- An operand ends before the next operator of its chain, and the last one
where the chain ends. -/
theorem stops_chainKinds (isChain : rank.chain? = some (ops, operands))
    {others : List (BinaryOperator × Phrase)} (areOperands : Operands ops operands others)
    {rest : List Kind} (stops : Stops rank rest) :
    Stops operands (chainKinds others ++ rest) := by
  cases others with
  | nil => exact stops.of_chain isChain
  | cons other others =>
      have member := (operands_cons_iff.mp areOperands).1.1
      exact stops_operator (not_mem_operators_of_chain isChain member) _

end Chains

/-! ## Nesting -/

/-- Whether a token of a kind can take from the nesting that a phrase may have. -/
def takesNesting : Kind → Bool
  | .leftParen | .operator _ | .not | .minus => true
  | _ => false

theorem foldNesting_le_countP {others : List (BinaryOperator × Phrase)}
    (bounded : ∀ other ∈ others, other.2.nesting ≤ other.2.kinds.countP takesNesting) :
    foldNesting (others.map fun other => other.2.nesting) ≤
      (chainKinds others).countP takesNesting := by
  induction others with
  | nil => exact Nat.le_refl 0
  | cons other others ih =>
      rcases List.forall_mem_cons.mp bounded with ⟨first, rest⟩
      have ofRest := ih rest
      have takes : takesNesting (.operator other.1) := rfl
      rw [chainKinds_cons, List.countP_cons_of_pos takes, List.countP_append, List.map_cons,
        foldNesting]
      omega

theorem largestNesting_le_countP {args : List Phrase}
    (bounded : ∀ arg ∈ args, arg.nesting ≤ arg.kinds.countP takesNesting) :
    largestNesting (args.map Phrase.nesting) ≤
      ([Kind.comma].intercalate (args.map Phrase.kinds)).countP takesNesting := by
  induction args with
  | nil => exact Nat.le_refl 0
  | cons arg args ih =>
      rcases List.forall_mem_cons.mp bounded with ⟨first, rest⟩
      have ofRest := ih rest
      cases args with
      | nil => simpa [largestNesting] using first
      | cons second args =>
          rw [List.map_cons, largestNesting]
          simp only [List.map_cons, List.intercalate_cons_cons, List.countP_append] at ofRest ⊢
          omega

/-- A phrase needs no more nesting than it has kinds that take some. -/
theorem Derives.nesting_le_countP {rank : Rank} {phrase : Phrase}
    (derives : Derives rank phrase) : phrase.nesting ≤ phrase.kinds.countP takesNesting := by
  induction derives with
  | chain _ _ _ _ start rest =>
      have others := foldNesting_le_countP rest
      rw [Phrase.chain_nesting, Phrase.chain_kinds, List.countP_append]
      omega
  | uncompared _ sum => exact sum
  | compared _ _ _ leftSum rightSum =>
      simp only [Phrase.compare, List.countP_append, List.countP_cons]
      omega
  | bare _ operand => exact operand
  | @prefixed kind op _ isPrefix _ inner =>
      have takes : takesNesting kind := by cases kind <;> first | rfl | cases isPrefix
      rw [Phrase.prefixed, List.countP_cons_of_pos takes]
      exact Nat.succ_le_succ inner
  | parenthesized _ inner =>
      simp only [Phrase.parenthesized, List.cons_append, List.countP_append, List.countP_cons]
      simp [takesNesting]
      omega
  | call _ _ args =>
      have bounded := largestNesting_le_countP args
      simp only [Phrase.call, List.cons_append, List.countP_append, List.countP_cons]
      simp [takesNesting]
      omega
  | property => exact Nat.zero_le _
  | literal => exact Nat.zero_le _

/-- Among the kinds of a phrase there is the last one of an operand, which takes
no nesting. -/
theorem Derives.exists_not_takesNesting {rank : Rank} {phrase : Phrase}
    (derives : Derives rank phrase) : ∃ kind ∈ phrase.kinds, takesNesting kind = false := by
  induction derives with
  | chain _ _ _ _ start _ =>
      rcases start with ⟨kind, member, takesNone⟩
      exact ⟨kind, List.mem_append_left _ member, takesNone⟩
  | uncompared _ sum => exact sum
  | compared _ _ _ leftSum _ =>
      rcases leftSum with ⟨kind, member, takesNone⟩
      exact ⟨kind, List.mem_append_left _ member, takesNone⟩
  | bare _ operand => exact operand
  | prefixed _ _ inner =>
      rcases inner with ⟨kind, member, takesNone⟩
      exact ⟨kind, List.mem_cons_of_mem _ member, takesNone⟩
  | parenthesized => exact ⟨.rightParen, by simp [Phrase.parenthesized], rfl⟩
  | call => exact ⟨.rightParen, by simp [Phrase.call], rfl⟩
  | property => exact ⟨_, List.mem_singleton_self _, rfl⟩
  | literal => exact ⟨_, List.mem_singleton_self _, rfl⟩

/-- A phrase has more kinds than it needs nesting. -/
theorem Derives.nesting_lt_length {rank : Rank} {phrase : Phrase}
    (derives : Derives rank phrase) : phrase.nesting < phrase.kinds.length :=
  Nat.lt_of_le_of_lt derives.nesting_le_countP
    (List.countP_lt_length_iff.mpr derives.exists_not_takesNesting)

end OData.Expr
