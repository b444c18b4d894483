import OData.Proofs.Expr.Descent.Follow
import OData.Proofs.Token.Words

/-!
# What a descent keeps to

A procedure that ends with a value has its depth restored and has taken exactly
the tokens of one phrase of its rank.  Until then the cursor has moved forward
only and has not left the tokens, and the depth has been at most one above the
limit and no larger than the number of tokens taken.  No procedure lowers the
depth by more than there is, and as many rounds as there are tokens are enough.
-/

namespace OData.Expr.Descent

open Token (Kind)

variable {descent : Descent} {kinds : List Kind}

/-- Tokens of a source end with the only end of the input. -/
theorem isEnded_of_tokenize {source : String} {tokens : List Token} (maxNesting : Nat)
    (tokenized : Token.tokenize source = .ok tokens) :
    (Descent.mk tokens maxNesting).IsEnded (kindsOf tokens) where
  split := (Token.kinds_of_tokenize tokenized).1
  only member := ((Token.kinds_of_tokenize tokenized).2 _ member).ne_endOfInput rfl

/-- Whether reading can begin at a state: at a token, within the limit, and with
a round for every token from there on. -/
structure Admits (descent : Descent) (rounds : Nat) (start : State) : Prop where
  inside : start.position < descent.tokens.length
  shallow : start.depth ≤ descent.maxNesting
  enough : descent.tokens.length ≤ start.position + rounds

/-- What a run of a rank does from a state on.  A run that ends with a value has
taken the tokens of a phrase and left the depth as it was; any other run is
refused. -/
structure IsSound (descent : Descent) (rank : Rank) (start : State) (run : Run Expr) : Prop where
  within : ∀ state ∈ run.visited, descent.Within start state
  ends : (∃ expr state, run.outcome = .ok (expr, state)) ∨
    ∃ error, run.outcome = .error (.refused error)
  restores : ∀ ⦃expr state⦄, run.outcome = .ok (expr, state) → state.depth = start.depth
  advances : ∀ ⦃expr state⦄, run.outcome = .ok (expr, state) →
    start.position < state.position ∧ state.position < descent.tokens.length
  derives : ∀ ⦃expr state⦄, run.outcome = .ok (expr, state) →
    ∃ nesting, nesting + start.depth ≤ descent.maxNesting ∧
      Derives rank ⟨((descent.tokens.map Token.kind).take state.position).drop start.position,
        expr, nesting⟩

/-- What a round of a loop does from a state on: if it ends with a value, then
at a later token and `levels` deeper. -/
def Advances {α : Type} (descent : Descent) (levels : Nat) (start : State) (run : Run α) : Prop :=
  ∀ ⦃value state⦄, run.outcome = .ok (value, state) →
    start.position < state.position ∧ state.position < descent.tokens.length ∧
      state.depth = start.depth + levels

section

variable (ended : descent.IsEnded kinds) {start : State} {rounds : Nat}

include ended

/-- The kinds between two positions are what one leaves in front of the
other. -/
theorem taken_eq {first last : Nat} {front : List Kind} (first_le : first ≤ last)
    (le : last ≤ kinds.length) (split : front ++ kinds.drop last = kinds.drop first) :
    ((descent.tokens.map Token.kind).take last).drop first = front := by
  have length : front.length = last - first := by
    have lengths := congrArg List.length split
    rw [List.length_append, List.length_drop, List.length_drop] at lengths
    omega
  rw [ended.split, List.take_append_of_le_length le, List.drop_take, ← split, ← length,
    List.take_left]

theorem Follows.advances {α : Type} {base : State} {least depth levels : Nat} {run : Run α}
    {result : Except Failure (α × List Kind)}
    (follows : Follows descent kinds base least depth run result)
    (forward : start.position < least) (isDepth : depth = start.depth + levels) :
    descent.Advances levels start run := by
  rintro _ _ isOk
  cases follows with
  | refused => cases isOk
  | done _ least_le le =>
      cases isOk
      rw [ended.length_tokens]
      exact ⟨Nat.lt_of_lt_of_le forward least_le, Nat.lt_succ_of_le le, isDepth⟩

/-! ## Ranks -/

/-- What a run that follows a reader of a rank has taken is a phrase. -/
theorem isSound_of_follows {rank : Rank} {budget least : Nat} {run : Run Expr}
    (total : budget + start.depth = descent.maxNesting) (forward : start.position < least)
    (follows : Follows descent kinds start least start.depth run
      (levelOf rank budget (expressions budget) (kinds.drop start.position))) :
    descent.IsSound rank start run := by
  have sound := levelOf_sound rank budget (expressions budget) fun smaller _ =>
    expression_sound smaller
  have advances : descent.Advances 0 start run := follows.advances ended forward rfl
  generalize isRead : levelOf rank budget (expressions budget) (kinds.drop start.position) = read
    at follows
  cases follows with
  | refused behind => exact ⟨behind, .inr ⟨_, rfl⟩, nofun, nofun, nofun⟩
  | @done visited expr position behind least_le le =>
      rcases sound isRead with ⟨phrase, derives, enough, rfl, split⟩
      refine ⟨behind, .inl ⟨_, _, rfl⟩, ?_, ?_, ?_⟩
      · exact fun _ _ isOk => (advances isOk).2.2
      · exact fun _ _ isOk => ⟨(advances isOk).1, (advances isOk).2.1⟩
      · rintro _ _ ⟨⟩
        refine ⟨phrase.nesting, by omega, ?_⟩
        rw [taken_eq ended (by omega) le split]
        exact derives

theorem follows_procedure (admits : descent.Admits rounds start) (rank : Rank) :
    Follows descent kinds start (start.position + 1) start.depth
      (descent.procedure rounds rank start)
      (levelOf rank (descent.maxNesting - start.depth)
        (expressions (descent.maxNesting - start.depth)) (kinds.drop start.position)) := by
  rcases admits with ⟨inside, shallow, enough⟩
  rw [ended.length_tokens] at inside enough
  exact procedure_follows ended enough rank (Nat.le_refl _) (Nat.le_of_lt_succ inside)
    (Nat.sub_add_cancel shallow)

theorem isSound_procedure (admits : descent.Admits rounds start) (rank : Rank) :
    descent.IsSound rank start (descent.procedure rounds rank start) :=
  isSound_of_follows ended (Nat.sub_add_cancel admits.shallow) (Nat.lt_succ_self _)
    (follows_procedure ended admits rank)

/-- More rounds than there are tokens change nothing. -/
theorem outcome_procedure_eq {rounds' : Nat} (admits : descent.Admits rounds start)
    (admits' : descent.Admits rounds' start) (rank : Rank) :
    (descent.procedure rounds rank start).outcome =
      (descent.procedure rounds' rank start).outcome :=
  (follows_procedure ended admits rank).outcome_eq (follows_procedure ended admits' rank)

/-! ## Rounds of loops -/

theorem advances_foldRound (admits : descent.Admits rounds start) {ops : List BinaryOperator}
    {op : BinaryOperator} (isOperator : operatorIn? ops (descent.kindAt start.position) = some op)
    (operands : Rank) :
    descent.Advances 1 start (descent.foldRound (descent.procedure rounds operands) start) := by
  rcases start with ⟨position, depth⟩
  rcases admits with ⟨inside, shallow, enough⟩
  rw [ended.length_tokens] at inside enough
  have le := Nat.le_of_lt_succ inside
  have lt := (ended.drop_eq_cons le (ne_endOfInput_of_operatorIn? isOperator)).1
  have deeper : descent.Within ⟨position, depth + 1⟩ ⟨position, depth + 1⟩ :=
    within_refl ended le (Nat.succ_le_succ shallow)
  rcases Nat.lt_or_eq_of_le shallow with shallower | rfl
  · have operand := procedure_follows ended enough operands
    have follows := foldRound_follows ended operand (Nat.le_succ position) lt
      (Nat.sub_add_cancel shallower) deeper
    exact follows.advances ended (Nat.lt_add_of_pos_right Nat.two_pos) rfl
  · have refused : Follows descent kinds ⟨position, descent.maxNesting + 1⟩ (position + 1)
        (descent.maxNesting + 1)
        (descent.foldRound (descent.procedure rounds operands) ⟨position, descent.maxNesting⟩)
        (.error ⟨.nestedTooDeeply, kinds.drop position⟩) :=
      follows_enter_refused ended le deeper
    exact refused.advances ended (Nat.lt_succ_self position) rfl

theorem advances_argumentRound (admits : descent.Admits rounds start) :
    descent.Advances 0 start
      (descent.argumentRound (descent.procedure rounds .disjunction) start) := by
  rcases admits with ⟨inside, shallow, enough⟩
  rw [ended.length_tokens] at inside enough
  have le := Nat.le_of_lt_succ inside
  have total : descent.maxNesting - start.depth + start.depth = descent.maxNesting := by omega
  have expression := procedure_follows ended enough .disjunction
  have follows := argumentRound_follows ended expression (Nat.le_refl _) le total
    (within_refl ended le (by omega))
  exact follows.advances ended (Nat.lt_succ_self _) rfl

/-! ## Whole filters -/

theorem parse_follows :
    Follows descent kinds ⟨0, 0⟩ kinds.length 0 descent.parse (do
      let (expr, rest) ← expression descent.maxNesting kinds
      match rest with
      | [] => return (expr, rest)
      | found :: _ => .error ⟨.leftover found, rest⟩) := by
  have enough : kinds.length < 0 + descent.tokens.length := by
    rw [ended.length_tokens]
    omega
  have whole : Follows descent kinds ⟨0, 0⟩ 1 0
      (descent.procedure descent.tokens.length .disjunction ⟨0, 0⟩)
      (expression descent.maxNesting kinds) := by
    rw [expression_eq]
    exact procedure_follows ended enough .disjunction (Nat.le_refl 0) (Nat.zero_le _) (by omega)
  apply whole.bind
  intro expr position least_le le
  rw [current_bind]
  by_cases isEnd : descent.kindAt position = .endOfInput
  · have split := ended.drop_eq_nil le isEnd
    have isLast : kinds.length ≤ position := List.drop_eq_nil_iff.mp split
    rw [isEnd]
    simp only [split]
    rw [← split]
    exact .pure expr isLast le
  · have split := (ended.drop_eq_cons le isEnd).2
    generalize descent.kindAt position = kind at isEnd split ⊢
    simp only [split]
    rw [← split]
    cases kind with
    | endOfInput => exact absurd rfl isEnd
    | _ => exact follows_refuse ended le

/-- A descent reads what the readers read, and ends at the last token with no
level left to leave. -/
theorem outcome_parse :
    descent.parse.outcome =
      ((ofTokens descent.maxNesting descent.tokens).mapError Stop.refused).map
        fun expr => (expr, ⟨kinds.length, 0⟩) := by
  have follows := parse_follows ended
  have reads : ofTokens descent.maxNesting descent.tokens =
      (ofKinds descent.maxNesting (kindsOf descent.tokens)).mapError descent.located :=
    rfl
  rw [reads, ended.kindsOf_tokens, ofKinds]
  generalize descent.parse = run at follows ⊢
  generalize expression descent.maxNesting kinds = read at follows ⊢
  -- Of the three ends of a run only an expression with nothing behind it is a value.
  rcases read with failure | ⟨expr, rest⟩
  · cases follows
    rfl
  · cases rest with
    | nil =>
        rcases follows.exists_of_ok with ⟨position, least_le, le, _, isOk⟩
        rw [isOk, Nat.le_antisymm le least_le]
        rfl
    | cons found rest =>
        cases follows
        rfl

/-- From every state within the limit each procedure is sound, however many
rounds there are to spare, and each round of a chain or of arguments takes a
token; a whole descent stays within the tokens, is never deeper than the tokens
that it has taken, and ends as the readers do. -/
theorem isSound_procedure_and_rounds_advance_and_outcome_parse :
    (∀ rounds start, descent.Admits rounds start →
      (∀ rank, descent.IsSound rank start (descent.procedure rounds rank start)) ∧
      (∀ ops op operands, operatorIn? ops (descent.kindAt start.position) = some op →
        descent.Advances 1 start (descent.foldRound (descent.procedure rounds operands) start)) ∧
      descent.Advances 0 start
        (descent.argumentRound (descent.procedure rounds .disjunction) start) ∧
      ∀ rounds', descent.Admits rounds' start → ∀ rank,
        (descent.procedure rounds rank start).outcome =
          (descent.procedure rounds' rank start).outcome) ∧
    (∀ state ∈ descent.parse.visited, state.position < descent.tokens.length ∧
      state.depth ≤ descent.maxNesting + 1 ∧ state.depth ≤ state.position) ∧
    descent.parse.outcome =
      ((ofTokens descent.maxNesting descent.tokens).mapError Stop.refused).map
        fun expr => (expr, ⟨kinds.length, 0⟩) := by
  refine ⟨fun rounds start admits => ⟨?_, ?_, ?_, ?_⟩, ?_, outcome_parse ended⟩
  · exact isSound_procedure ended admits
  · exact fun ops op operands isOperator => advances_foldRound ended admits isOperator operands
  · exact advances_argumentRound ended admits
  · exact fun rounds' admits' rank => outcome_procedure_eq ended admits admits' rank
  · intro state member
    have within := (parse_follows ended).within state member
    refine ⟨within.inside, within.limited, ?_⟩
    simpa using within.paid

end

theorem isSound_and_outcome_negated_call :
    let descent : Descent :=
      ⟨[⟨.not, "not", 0, 3⟩, ⟨.path "f", "f", 4, 5⟩, ⟨.leftParen, "(", 5, 6⟩,
        ⟨.literal .null, "null", 6, 10⟩, ⟨.rightParen, ")", 10, 11⟩, ⟨.operator .or, "or", 12, 14⟩,
        ⟨.literal .null, "null", 15, 19⟩, ⟨.endOfInput, "", 19, 19⟩], 2⟩
    let kinds : List Kind :=
      [.not, .path "f", .leftParen, .literal .null, .rightParen, .operator .or, .literal .null]
    let negated := Expr.unary .not (.call "f" [.literal .null])
    Token.tokenize "not f(null) or null" = .ok descent.tokens ∧
      descent.IsEnded kinds ∧ descent.Admits 8 ⟨0, 0⟩ ∧
      (descent.procedure 8 .prefixed ⟨0, 0⟩).outcome = .ok (negated, ⟨5, 0⟩) ∧
      (∃ nesting ≤ 2, Derives .prefixed ⟨kinds.take 5, negated, nesting⟩) ∧
      descent.Admits 3 ⟨5, 0⟩ ∧ operatorIn? [.or] (descent.kindAt 5) = some .or ∧
      descent.Advances 1 ⟨5, 0⟩ (descent.foldRound (descent.procedure 3 .conjunction) ⟨5, 0⟩) ∧
      descent.Admits 5 ⟨3, 2⟩ ∧
      descent.Advances 0 ⟨3, 2⟩ (descent.argumentRound (descent.procedure 5 .disjunction) ⟨3, 2⟩) ∧
      (∀ state ∈ descent.parse.visited, state.depth ≤ 3) ∧
      ofTokens 2 descent.tokens = .ok (.binary .or negated (.literal .null)) ∧
      descent.parse.outcome = .ok (.binary .or negated (.literal .null), ⟨7, 0⟩) := by
  intro descent kinds negated
  have tokenized : Token.tokenize "not f(null) or null" = .ok descent.tokens := by decide +kernel
  have ended : descent.IsEnded kinds := isEnded_of_tokenize 2 tokenized
  have whole : descent.Admits 8 ⟨0, 0⟩ := ⟨by decide, by decide, by decide⟩
  have atOperator : descent.Admits 3 ⟨5, 0⟩ := ⟨by decide, by decide, by decide⟩
  have atArgument : descent.Admits 5 ⟨3, 2⟩ := ⟨by decide, by decide, by decide⟩
  have isOperator : operatorIn? [.or] (descent.kindAt 5) = some .or := by decide
  have outcome : (descent.procedure 8 .prefixed ⟨0, 0⟩).outcome = .ok (negated, ⟨5, 0⟩) := by cbv
  have accepted : ofTokens 2 descent.tokens = .ok (.binary .or negated (.literal .null)) := by cbv
  rcases isSound_procedure_and_rounds_advance_and_outcome_parse ended with
    ⟨procedures, states, parses⟩
  refine ⟨tokenized, ended, whole, outcome, ?_, atOperator, isOperator,
    (procedures 3 _ atOperator).2.1 _ _ .conjunction isOperator, atArgument,
    (procedures 5 _ atArgument).2.2.1, fun state member => (states state member).2.1, accepted, ?_⟩
  · rcases ((procedures 8 _ whole).1 .prefixed).derives outcome with ⟨nesting, enough, derives⟩
    exact ⟨nesting, enough, derives⟩
  · rw [parses, accepted]
    rfl

end OData.Expr.Descent
