import OData.Proofs.Expr.RoundTrip
import OData.Proofs.Token.Context

/-!
# Filters within filters

A source that is read as a filter can be put in parentheses, or among the
arguments of a call, and is read there as the tree that it stands for by
itself.  Nothing in it reaches out of its place: its tokens are the same in
front of a parenthesis or a comma, and its phrase ends there as it ended at
the end of the source.
-/

namespace OData.Expr

open Token

/-! ## The phrase of a source -/

/-- Whether a text spells a phrase in front of whatever is spelled after a
separator. -/
def Phrase.IsSpelledBy (phrase : Phrase) (text : List Char) : Prop :=
  ∀ ⦃rest kinds⦄, Separated rest → (∀ afterOperand, Spells afterOperand rest kinds) →
    Spells false (text ++ rest) (phrase.kinds ++ kinds)

/-- What is read from a source is a phrase that its text spells anywhere. -/
theorem exists_phrase_of_read {maxNesting : Nat} {source : String} {expr : Expr}
    (isRead : read maxNesting source = .ok (some expr)) :
    ∃ phrase, Derives .disjunction phrase ∧ phrase.expr = expr ∧ phrase.nesting ≤ maxNesting ∧
      phrase.IsSpelledBy source.toList := by
  rcases read_eq_ok_some_iff.mp isRead with ⟨tokens, tokenized, nesting, enough, derives⟩
  have cuts := tokensFrom_eq_ok_iff.mp tokenized
  exact ⟨_, derives, rfl, enough, fun _ _ separated spells => cuts.spells_append separated spells⟩

@[simp]
theorem Phrase.parenthesized_expr (phrase : Phrase) : phrase.parenthesized.expr = phrase.expr :=
  rfl

theorem spells_rightParen {rest : List Char} {kinds : List Kind} (spells : Spells true rest kinds)
    (afterOperand : Bool) : Spells afterOperand (')' :: rest) (.rightParen :: kinds) :=
  spells.rightParen

theorem Phrase.IsSpelledBy.parenthesized {phrase : Phrase} {text : List Char}
    (spelled : phrase.IsSpelledBy text) {rest : List Char} {kinds : List Kind}
    (spells : Spells true rest kinds) (afterOperand : Bool) :
    Spells afterOperand ('(' :: (text ++ ')' :: rest)) (phrase.parenthesized.kinds ++ kinds) := by
  have inner := spelled (separated_rightParen rest) (spells_rightParen spells)
  simpa [Phrase.parenthesized] using inner.leftParen

/-! ## Arguments -/

/-- Filters with commas between them are read as the arguments of a call. -/
theorem exists_arguments_of_read {maxNesting : Nat} {filters : List (String × Expr)}
    (areRead : ∀ filter ∈ filters, read maxNesting filter.1 = .ok (some filter.2)) :
    ∃ args : List Phrase, args.map Phrase.expr = filters.map Prod.snd ∧
      (∀ arg ∈ args, Derives .disjunction arg) ∧
      largestNesting (args.map Phrase.nesting) ≤ maxNesting ∧
      ∀ ⦃rest kinds⦄, Spells true rest kinds →
        Spells false ((", ".intercalate (filters.map Prod.fst)).toList ++ ')' :: rest)
          ([Kind.comma].intercalate (args.map Phrase.kinds) ++ .rightParen :: kinds) := by
  induction filters with
  | nil =>
      refine ⟨[], rfl, fun _ member => absurd member List.not_mem_nil, Nat.zero_le _, ?_⟩
      exact fun rest kinds spells => spells.rightParen
  | cons filter filters ih =>
      rcases List.forall_mem_cons.mp areRead with ⟨first, others⟩
      rcases exists_phrase_of_read first with ⟨arg, derives, exprEq, enough, spelled⟩
      rcases ih others with ⟨args, exprsEq, derive, enoughOthers, spelledOthers⟩
      refine ⟨arg :: args, ?_, List.forall_mem_cons.mpr ⟨derives, derive⟩,
        Nat.max_le.mpr ⟨enough, enoughOthers⟩, ?_⟩
      · rw [List.map_cons, List.map_cons, exprEq, exprsEq]
      · intro rest kinds spells
        cases filters with
        | nil =>
            cases List.map_eq_nil_iff.mp exprsEq
            have fromArg := spelled (separated_rightParen rest) (spells_rightParen spells)
            simpa using fromArg
        | cons second filters =>
            cases args with
            | nil => cases exprsEq
            | cons secondArg args =>
                have behind := (spelledOthers spells).space
                have fromArg := spelled (separated_comma _) fun _ => behind.comma
                simpa [String.toList_intercalate, List.intercalate_cons_cons] using fromArg

/-! ## Composed filters -/

/-- Filters that are accepted make up larger filters without a change in what
they mean: in parentheses on both sides of any binary operator and behind a
prefix operator, and as the arguments of any function, each is read as the tree
that it is read as alone. -/
theorem read_composed (maxNesting : Nat) :
    (∀ op left right leftExpr rightExpr,
      read maxNesting left = .ok (some leftExpr) → read maxNesting right = .ok (some rightExpr) →
      read (maxNesting + 2) ("(" ++ left ++ ") " ++ op.word ++ " (" ++ right ++ ")") =
        .ok (some (.binary op leftExpr rightExpr))) ∧
    (∀ op operand expr, read maxNesting operand = .ok (some expr) →
      read (maxNesting + 2) (op.sign ++ "(" ++ operand ++ ")") = .ok (some (.unary op expr))) ∧
    ∀ name, isFunctionName name → ∀ args : List (String × Expr),
      (∀ arg ∈ args, read maxNesting arg.1 = .ok (some arg.2)) →
      read (maxNesting + 1) (name ++ "(" ++ ", ".intercalate (args.map Prod.fst) ++ ")") =
        .ok (some (.call name (args.map Prod.snd))) := by
  refine ⟨?_, ?_, ?_⟩
  · intro op left right leftExpr rightExpr readLeft readRight
    rcases exists_phrase_of_read readLeft with
      ⟨leftPhrase, derivesLeft, rfl, enoughLeft, spellsLeft⟩
    rcases exists_phrase_of_read readRight with
      ⟨rightPhrase, derivesRight, rfl, enoughRight, spellsRight⟩
    have derives := derives_binary op (.bare (.parenthesized derivesLeft))
      (.bare (.parenthesized derivesRight))
    have fromRight := spellsRight.parenthesized (spells_nil true) false
    have spells := spellsLeft.parenthesized (spells_operator op fromRight) false
    -- One level for the parentheses, and one more at most for a right operand.
    have nesting : (Phrase.binary op leftPhrase.parenthesized rightPhrase.parenthesized).nesting ≤
        max (leftPhrase.nesting + 1) (rightPhrase.nesting + 1 + 1) :=
      Phrase.binary_nesting_le op leftPhrase.parenthesized rightPhrase.parenthesized
    have enough : (Phrase.binary op leftPhrase.parenthesized rightPhrase.parenthesized).nesting ≤
        maxNesting + 2 := by
      omega
    rw [← Phrase.parenthesized_expr leftPhrase, ← Phrase.parenthesized_expr rightPhrase,
      ← Phrase.binary_expr]
    exact read_of_spells derives (by simpa using spells) enough
  · intro op operand expr isRead
    rcases exists_phrase_of_read isRead with ⟨phrase, derives, rfl, enough, spelled⟩
    have prefixed := Derives.prefixed (prefixOperator?_signKind op) (.bare (.parenthesized derives))
    have spells := spells_sign op (spelled.parenthesized (spells_nil true) false)
    exact read_of_spells prefixed.to_disjunction (by simpa [Phrase.prefixed] using spells)
      (Nat.add_le_add_right enough 2)
  · intro name isName args areRead
    rcases exists_arguments_of_read areRead with ⟨phrases, exprsEq, derive, enough, spelled⟩
    rcases isFunctionName_iff.mp isName with ⟨word, isSimple⟩
    have fromArgs := spelled (spells_nil true)
    have spells := word.spells false (separated_leftParen _) fromArgs.leftParen
    have called : Derives .operand (.call name phrases) := .call isSimple derive
    rw [← exprsEq]
    exact read_of_spells (Derives.bare called).to_disjunction
      (by simpa [Phrase.call] using spells) (Nat.add_le_add_right enough 1)

theorem read_composed_comparison_and_call :
    let left := binary .eq (property ⟨["a"], by decide, by decide⟩)
      (literal (.number ⟨-5, 0, by decide, by decide⟩))
    let right := call "f" [literal (.string "x)")]
    read 1 "a eq -5" = .ok (some left) ∧ read 1 "f('x)')" = .ok (some right) ∧
      read 3 "(a eq -5) or (f('x)'))" = .ok (some (.binary .or left right)) ∧
      read 3 "not (a eq -5)" = .ok (some (.unary .not left)) ∧
      isFunctionName "g" ∧ read 2 "g()" = .ok (some (.call "g" [])) ∧
      read 2 "g(a eq -5, f('x)'))" = .ok (some (.call "g" [left, right])) := by
  intro left right
  let leftTokens : List Token :=
    [⟨.path "a", "a", 0, 1⟩, ⟨.operator .eq, "eq", 2, 4⟩,
      ⟨.literal (.number ⟨-5, 0, by decide, by decide⟩), "-5", 5, 7⟩, ⟨.endOfInput, "", 7, 7⟩]
  let rightTokens : List Token :=
    [⟨.path "f", "f", 0, 1⟩, ⟨.leftParen, "(", 1, 2⟩, ⟨.literal (.string "x)"), "'x)'", 2, 6⟩,
      ⟨.rightParen, ")", 6, 7⟩, ⟨.endOfInput, "", 7, 7⟩]
  have leftTokenized : Token.tokenize "a eq -5" = .ok leftTokens := by decide +kernel
  have rightTokenized : Token.tokenize "f('x)')" = .ok rightTokens := by decide +kernel
  have leftOfKinds : ofKinds 1 (kindsOf leftTokens) = .ok left := by with_unfolding_all rfl
  have rightOfKinds : ofKinds 1 (kindsOf rightTokens) = .ok right := by with_unfolding_all rfl
  have readLeft : read 1 "a eq -5" = .ok (some left) :=
    read_eq_ok_some_iff.mpr ⟨leftTokens, leftTokenized, ofKinds_eq_ok_iff.mp leftOfKinds⟩
  have readRight : read 1 "f('x)')" = .ok (some right) :=
    read_eq_ok_some_iff.mpr ⟨rightTokens, rightTokenized, ofKinds_eq_ok_iff.mp rightOfKinds⟩
  have isName : isFunctionName "g" := by decide
  rcases read_composed 1 with ⟨binary, unary, call⟩
  have readBinary := binary .or _ _ _ _ readLeft readRight
  have readUnary := unary .not _ _ readLeft
  have readEmpty := call "g" isName [] (List.forall_mem_nil _)
  have readCall := call "g" isName [("a eq -5", left), ("f('x)')", right)]
    (by simp [readLeft, readRight])
  have binaryText : "(" ++ "a eq -5" ++ ") " ++ BinaryOperator.or.word ++ " (" ++ "f('x)')" ++ ")" =
      "(a eq -5) or (f('x)'))" := by decide
  have unaryText : UnaryOperator.not.sign ++ "(" ++ "a eq -5" ++ ")" = "not (a eq -5)" := by decide
  have emptyText : "g" ++ "(" ++ ", ".intercalate [] ++ ")" = "g()" := by decide
  have callText : "g" ++ "(" ++ ", ".intercalate ["a eq -5", "f('x)')"] ++ ")" =
      "g(a eq -5, f('x)'))" := by decide
  rw [binaryText] at readBinary
  rw [unaryText] at readUnary
  rw [List.map_nil, emptyText] at readEmpty
  rw [List.map_cons, List.map_cons, List.map_nil, callText] at readCall
  exact ⟨readLeft, readRight, readBinary, readUnary, isName, readEmpty, readCall⟩

end OData.Expr
