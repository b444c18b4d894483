import OData.Proofs.Expr.Completeness
import OData.Proofs.Expr.Soundness
import OData.Proofs.Expr.Unique
import OData.Proofs.Token.Words

/-!
# What is read as an expression

Whole lists of kinds are read exactly if they are phrases whose nesting is
within the limit, and the tree is that of the phrase.  No phrase needs more
nesting than it has kinds, so a limit of that size leaves only the grammar,
which gives no list of kinds two trees.
-/

namespace OData.Expr

open Token (Kind)

variable {budget : Nat} {kinds : List Kind} {expr : Expr}

/-- Kinds are read as an expression exactly if they derive it with a nesting
that the budget covers. -/
theorem ofKinds_eq_ok_iff :
    ofKinds budget kinds = .ok expr ↔
      ∃ nesting ≤ budget, Derives .disjunction ⟨kinds, expr, nesting⟩ := by
  rw [ofKinds, Except.bind_eq_ok_iff]
  constructor
  · rintro ⟨⟨tree, rest⟩, read, whole⟩
    rcases expression_sound budget read with ⟨phrase, derives, enough, rfl, rfl⟩
    dsimp only at whole
    split at whole
    · cases whole
      exact ⟨phrase.nesting, enough, by rwa [List.append_nil]⟩
    · cases whole
  · rintro ⟨nesting, enough, derives⟩
    have read := expression_complete budget derives enough (stops_nil _)
    rw [List.append_nil] at read
    exact ⟨_, read, rfl⟩

/-- With a budget as large as the list of kinds, only the grammar decides. -/
theorem ofKinds_eq_ok_iff_denotes (enough : kinds.length ≤ budget) :
    ofKinds budget kinds = .ok expr ↔ Denotes kinds expr := by
  rw [ofKinds_eq_ok_iff]
  constructor
  · rintro ⟨nesting, _, derives⟩
    exact ⟨nesting, derives⟩
  · rintro ⟨nesting, derives⟩
    have bounded := derives.nesting_lt_length
    exact ⟨nesting, Nat.le_of_lt (Nat.lt_of_lt_of_le bounded enough), derives⟩

/-- Kinds stand for one tree at most. -/
theorem Denotes.unique {other : Expr} (first : Denotes kinds expr) (second : Denotes kinds other) :
    expr = other := by
  rcases first with ⟨_, derivesFirst⟩
  rcases second with ⟨_, derivesSecond⟩
  exact (derivesFirst.unique derivesSecond).1

theorem ofTokens_eq_ok_iff {maxNesting : Nat} {tokens : List Token} :
    ofTokens maxNesting tokens = .ok expr ↔ ofKinds maxNesting (kindsOf tokens) = .ok expr :=
  Except.mapError_eq_ok_iff

/-- Tokens that are not read are refused as the text of a filter. -/
theorem exists_ofTokens_eq_error {maxNesting : Nat} {tokens : List Token}
    (notRead : ∀ expr, ofTokens maxNesting tokens ≠ .ok expr) :
    ∃ error, ofTokens maxNesting tokens = .error error ∧ error.part = .filter := by
  cases read : ofKinds maxNesting (kindsOf tokens) with
  | ok expr => exact absurd (ofTokens_eq_ok_iff.mpr read) (notRead expr)
  | error failure =>
      exact ⟨_, congrArg (Except.mapError _) read, rfl⟩

theorem length_eq_of_tokenize {source : String} {tokens : List Token}
    (tokenized : Token.tokenize source = .ok tokens) :
    tokens.length = (kindsOf tokens).length + 1 := by
  have lengths := congrArg List.length (Token.kinds_of_tokenize tokenized).1
  rwa [List.length_map, List.length_append, List.length_singleton] at lengths

/-- The tokens of a source are read exactly if the kinds before the end of the
input derive an expression, which is then the only one they derive; all other
token lists are refused.  The texts of path tokens are always paths, so every
one of them is an operand. -/
theorem ofTokens_eq_ok_iff_denotes {source : String} {tokens : List Token}
    (tokenized : Token.tokenize source = .ok tokens) {maxNesting : Nat}
    (enough : tokens.length ≤ maxNesting + 1) :
    tokens.map Token.kind = kindsOf tokens ++ [.endOfInput] ∧
      (∀ text, .path text ∈ kindsOf tokens → ∃ path, Path.read? text = some path) ∧
      (∀ expr, ofTokens maxNesting tokens = .ok expr ↔ Denotes (kindsOf tokens) expr) ∧
      (∀ expr other, Denotes (kindsOf tokens) expr → Denotes (kindsOf tokens) other →
        expr = other) ∧
      ((∀ expr, ¬ Denotes (kindsOf tokens) expr) →
        ∃ error, ofTokens maxNesting tokens = .error error ∧ error.part = .filter) := by
  rcases Token.kinds_of_tokenize tokenized with ⟨kindsEq, lexical⟩
  have lengths := length_eq_of_tokenize tokenized
  have reads : ∀ expr, ofTokens maxNesting tokens = .ok expr ↔ Denotes (kindsOf tokens) expr := by
    intro expr
    rw [ofTokens_eq_ok_iff]
    exact ofKinds_eq_ok_iff_denotes (by omega)
  refine ⟨kindsEq, ?_, reads, fun expr other first second => first.unique second, ?_⟩
  · intro text member
    exact Token.IsWord.exists_path (lexical _ member)
  · intro underivable
    exact exists_ofTokens_eq_error fun expr read => underivable expr ((reads expr).mp read)

theorem ofTokens_call_or_not :
    let tokens : List Token :=
      [⟨.path "f", "f", 0, 1⟩, ⟨.leftParen, "(", 1, 2⟩, ⟨.path "a", "a", 2, 3⟩,
        ⟨.rightParen, ")", 3, 4⟩, ⟨.operator .or, "or", 5, 7⟩, ⟨.not, "not", 8, 11⟩,
        ⟨.path "b", "b", 12, 13⟩, ⟨.endOfInput, "", 13, 13⟩]
    let expr : Expr :=
      binary .or (call "f" [property ⟨["a"], by decide, by decide⟩])
        (unary .not (property ⟨["b"], by decide, by decide⟩))
    Token.tokenize "f(a) or not b" = .ok tokens ∧ tokens.length ≤ 7 + 1 ∧
      ofTokens 7 tokens = .ok expr ∧ Denotes (kindsOf tokens) expr := by
  intro tokens expr
  have tokenized : Token.tokenize "f(a) or not b" = .ok tokens := by decide +kernel
  have enough : tokens.length ≤ 7 + 1 := by decide
  have read : ofTokens 7 tokens = .ok expr := by with_unfolding_all rfl
  exact ⟨tokenized, enough, read,
    ((ofTokens_eq_ok_iff_denotes tokenized enough).2.2.1 expr).mp read⟩

/-! ## Filters -/

/-- A filter is read exactly if its tokens derive an expression with a nesting
within the limit. -/
theorem read_eq_ok_some_iff {maxNesting : Nat} {source : String} :
    read maxNesting source = .ok (some expr) ↔
      ∃ tokens, Token.tokenize source = .ok tokens ∧
        ∃ nesting ≤ maxNesting, Derives .disjunction ⟨kindsOf tokens, expr, nesting⟩ := by
  unfold read
  split
  · next trimmed =>
      constructor
      · intro impossible
        cases impossible
      · rintro ⟨tokens, tokenized, nesting, _, derives⟩
        have areBlank := Text.trim_eq_nil_iff.mp trimmed
        rw [Token.tokenize, Token.tokensFrom_of_blank areBlank] at tokenized
        cases tokenized
        exact absurd rfl derives.kinds_ne_nil
  · next notBlank =>
      rw [Except.bind_eq_ok_iff]
      simp only [← ofKinds_eq_ok_iff, ← ofTokens_eq_ok_iff]
      constructor
      · rintro ⟨tokens, tokenized, read⟩
        rcases Except.map_eq_ok_iff.mp read with ⟨tree, readTree, same⟩
        cases same
        exact ⟨tokens, tokenized, readTree⟩
      · rintro ⟨tokens, tokenized, read⟩
        exact ⟨tokens, tokenized, Except.map_eq_ok_iff.mpr ⟨expr, read, rfl⟩⟩

end OData.Expr
