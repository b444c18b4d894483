import OData.Proofs.Expr.Settling
import OData.Proofs.Token.Refusal
import OData.Proofs.Token.Words

/-!
# Why expressions are refused

Where the texts of all paths are paths, a reader refuses kinds for a reason that
is about the order or the nesting of the kinds, and never because a path cannot
be read.  What it leaves when it succeeds are such kinds again.

Every level has this property if the readers of nested expressions that it is
given have it, and then so has the reader of expressions by recursion on its
budget.  Since the tokens of a source have such kinds, a filter is refused for a
reason of the lexer or for one of these.
-/

namespace OData.Expr

open Token (Kind IsLexicalCause)
open SyntaxError (Cause)

/-- The reasons for which kinds with paths are refused. -/
def IsGrammaticalCause : Cause → Prop
  | .unexpectedEnd | .notAnOperand _ | .expected _ _ | .leftover _ | .chainedComparison
  | .nestedTooDeeply | .invalidFunctionName _ => True
  | _ => False

variable {α β : Type} {kinds : List Kind}

/-- An outcome that leaves kinds with paths, or refuses for a grammatical
reason. -/
inductive IsGrammatical : Except Failure (α × List Kind) → Prop
  | read (value : α) {rest : List Kind} (havePaths : HavePaths rest) :
      IsGrammatical (.ok (value, rest))
  | refused {failure : Failure} (isCause : IsGrammaticalCause failure.cause) :
      IsGrammatical (.error failure)

theorem IsGrammatical.bind {outcome : Except Failure (α × List Kind)}
    {more : α × List Kind → Except Failure (β × List Kind)} (first : IsGrammatical outcome)
    (others : ∀ value rest, HavePaths rest → IsGrammatical (more (value, rest))) :
    IsGrammatical (outcome >>= more) := by
  cases first with
  | read value havePaths => exact others value _ havePaths
  | refused isCause => exact .refused isCause

/-- Readers of nested expressions that are grammatical. -/
def Below.IsGrammatical {budget : Nat} (below : Below budget) : Prop :=
  ∀ smaller lt ⦃kinds⦄, HavePaths kinds → Expr.IsGrammatical (below smaller lt kinds)

/-- A level that is grammatical if the readers of nested expressions are. -/
def Level.IsGrammatical (level : Level) : Prop :=
  ∀ budget (below : Below budget), below.IsGrammatical → ∀ ⦃kinds⦄, HavePaths kinds →
    Expr.IsGrammatical (level budget below kinds)

theorem Below.IsGrammatical.lower {budget smaller : Nat} {below : Below budget}
    (grammatical : below.IsGrammatical) (le : smaller ≤ budget) :
    (below.lower le).IsGrammatical :=
  fun smallest lt => grammatical smallest (Nat.lt_of_lt_of_le lt le)

/-! ## Operands -/

section Readers

variable {budget : Nat} {below : Below budget}

theorem nested_isGrammatical (grammatical : below.IsGrammatical) (havePaths : HavePaths kinds) :
    IsGrammatical (nested budget below kinds) := by
  cases budget with
  | zero => exact .refused trivial
  | succ smaller => exact grammatical smaller (Nat.lt_succ_self smaller) havePaths

theorem closing_isGrammatical (value : α) (havePaths : HavePaths kinds) :
    IsGrammatical (closing value kinds) := by
  unfold closing
  split
  · exact .read value havePaths.tail
  · exact .refused trivial

theorem commaSeparated_isGrammatical {item : Reader Expr}
    (grammatical : ∀ ⦃kinds⦄, HavePaths kinds → IsGrammatical (item kinds)) (rounds : Nat)
    (havePaths : HavePaths kinds) : IsGrammatical (commaSeparated item rounds kinds) := by
  induction rounds generalizing kinds with
  | zero => exact .refused trivial
  | succ rounds ih =>
      rw [commaSeparated]
      apply (grammatical havePaths).bind
      intro first afterFirst havePathsAfter
      dsimp only
      split
      · next afterComma =>
          apply (ih havePathsAfter.tail).bind
          intro others rest havePathsRest
          exact .read _ havePathsRest
      · exact .read _ havePathsAfter

theorem arguments_isGrammatical (grammatical : below.IsGrammatical)
    (havePaths : HavePaths kinds) : IsGrammatical (arguments budget below kinds) := by
  unfold arguments
  split
  · split
    · exact .refused trivial
    · exact .read _ havePaths
  · exact commaSeparated_isGrammatical (fun _ => nested_isGrammatical grammatical) _ havePaths

end Readers

/-- A path token is refused as an operand only before a parenthesis. -/
theorem operand_isGrammatical : Level.IsGrammatical operand := by
  intro budget below grammatical kinds havePaths
  unfold operand
  split
  · apply (nested_isGrammatical grammatical havePaths.tail).bind
    intro inner rest havePathsRest
    exact closing_isGrammatical inner havePathsRest
  · split
    · exact .refused trivial
    · apply (arguments_isGrammatical grammatical havePaths.tail.tail).bind
      intro args rest havePathsRest
      exact closing_isGrammatical _ havePathsRest
  · next text rest _ =>
      rcases havePaths text List.mem_cons_self with ⟨path, isPath⟩
      rw [isPath]
      exact .read _ havePaths.tail
  · exact .read _ havePaths.tail
  · exact .refused trivial
  · exact .refused trivial

/-! ## Operators -/

theorem prefixed_isGrammatical : Level.IsGrammatical prefixed := by
  intro budget below grammatical kinds havePaths
  induction budget, below, kinds using prefixed.induct with
  | case1 budget below =>
      rw [prefixed]
      exact operand_isGrammatical budget below grammatical havePaths
  | case2 kind kinds budget noPrefix below =>
      rw [prefixed.eq_2 kind kinds budget below noPrefix]
      exact operand_isGrammatical budget below grammatical havePaths
  | case3 kind kinds op isPrefix below =>
      rw [prefixed.eq_3 kind kinds below op isPrefix]
      exact .refused trivial
  | case4 kind kinds op budget isPrefix below ih =>
      rw [prefixed.eq_4 kind kinds op budget below isPrefix]
      apply (ih (grammatical.lower (Nat.le_succ budget)) havePaths.tail).bind
      intro inner rest havePathsRest
      exact .read _ havePathsRest

section Chains

variable {ops : List BinaryOperator} {level : Level}

theorem folded_isGrammatical (grammatical : level.IsGrammatical) {left : Expr} {budget : Nat}
    {below : Below budget} (grammaticalBelow : below.IsGrammatical) (havePaths : HavePaths kinds) :
    IsGrammatical (folded ops level left budget below kinds) := by
  induction left, budget, below, kinds using folded.induct ops with
  | case1 left budget below =>
      rw [folded]
      exact .read _ havePaths
  | case2 left budget kind kinds noOperator below =>
      rw [folded.eq_2 ops level left kind kinds budget below noOperator]
      exact .read _ havePaths
  | case3 left kind kinds op isOperator below =>
      rw [folded.eq_3 ops level left kind kinds below op isOperator]
      exact .refused trivial
  | case4 left kind kinds op budget isOperator below lowered ih =>
      rw [folded.eq_4 ops level left kind kinds op budget below isOperator]
      have grammaticalLowered : lowered.IsGrammatical :=
        grammaticalBelow.lower (Nat.le_succ budget)
      apply (grammatical budget lowered grammaticalLowered havePaths.tail).bind
      intro right rest havePathsRest
      exact ih right rest grammaticalLowered havePathsRest

theorem chain_isGrammatical (grammatical : level.IsGrammatical) :
    Level.IsGrammatical (chain ops level) := by
  intro budget below grammaticalBelow kinds havePaths
  rw [chain]
  apply (grammatical budget below grammaticalBelow havePaths).bind
  intro first rest havePathsRest
  exact folded_isGrammatical grammatical grammaticalBelow havePathsRest

theorem compared_isGrammatical (grammatical : level.IsGrammatical) :
    Level.IsGrammatical (compared level) := by
  intro budget below grammaticalBelow kinds havePaths
  rw [compared]
  apply (grammatical budget below grammaticalBelow havePaths).bind
  intro left rest havePathsRest
  dsimp only
  split
  · exact .read _ havePathsRest
  · split
    · exact .read _ havePathsRest
    · apply (grammatical budget below grammaticalBelow havePathsRest.tail).bind
      intro right rest havePathsRight
      dsimp only
      split
      · exact .refused trivial
      · exact .read _ havePathsRight

end Chains

/-! ## Expressions -/

theorem product_isGrammatical : Level.IsGrammatical product :=
  chain_isGrammatical prefixed_isGrammatical

theorem sum_isGrammatical : Level.IsGrammatical sum :=
  chain_isGrammatical product_isGrammatical

theorem comparison_isGrammatical : Level.IsGrammatical comparison :=
  compared_isGrammatical sum_isGrammatical

theorem conjunction_isGrammatical : Level.IsGrammatical conjunction :=
  chain_isGrammatical comparison_isGrammatical

theorem disjunction_isGrammatical : Level.IsGrammatical disjunction :=
  chain_isGrammatical conjunction_isGrammatical

/-- Within any budget, an expression is refused for a grammatical reason. -/
theorem expression_isGrammatical (budget : Nat) (havePaths : HavePaths kinds) :
    IsGrammatical (expression budget kinds) := by
  induction budget using Nat.strongRecOn generalizing kinds with
  | ind budget ih =>
      rw [expression_eq]
      exact disjunction_isGrammatical budget _ (fun smaller lt _ => ih smaller lt) havePaths

/-! ## Filters -/

theorem isGrammaticalCause_of_ofKinds {budget : Nat} {failure : Failure}
    (havePaths : HavePaths kinds) (refused : ofKinds budget kinds = .error failure) :
    IsGrammaticalCause failure.cause := by
  rw [ofKinds, Except.bind_eq_error_iff] at refused
  have grammatical := expression_isGrammatical budget havePaths
  rcases refused with refused | ⟨⟨expr, rest⟩, _, refused⟩
  · rw [refused] at grammatical
    cases grammatical with
    | refused isCause => exact isCause
  · dsimp only at refused
    split at refused
    · cases refused
    · cases refused
      trivial

theorem havePaths_of_tokenize {source : String} {tokens : List Token}
    (tokenized : Token.tokenize source = .ok tokens) : HavePaths (kindsOf tokens) :=
  fun _ member => ((Token.kinds_of_tokenize tokenized).2 _ member).exists_path

/-- A filter is refused for a reason of the lexer or for a grammatical one. -/
theorem cause_of_read_eq_error {maxNesting : Nat} {source : String} {error : SyntaxError}
    (refused : read maxNesting source = .error error) :
    IsLexicalCause error.cause ∨ IsGrammaticalCause error.cause := by
  unfold read at refused
  split at refused
  · cases refused
  · rcases Except.bind_eq_error_iff.mp refused with stuck | ⟨tokens, tokenized, failed⟩
    · exact .inl (Token.sticks_of_tokensFrom stuck).part_and_cause.2
    · rcases Except.mapError_eq_error_iff.mp (Except.map_eq_error_iff.mp failed) with
        ⟨failure, refusedKinds, rfl⟩
      exact .inr (isGrammaticalCause_of_ofKinds (havePaths_of_tokenize tokenized) refusedKinds)

end OData.Expr
