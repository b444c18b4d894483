import OData.Proofs.Expr.Category
import OData.Proofs.Expr.Unique

/-!
# Readers settle their ranks

Every level of the reader settles the phrases of its rank, if the readers of
nested expressions that it is given settle theirs.  What it reads is the only
phrase that can stand there, and where it fails, what it has read before can
still become a phrase, and can no more with the next kind.

The texts of paths have to be paths, as those of tokens are.
-/

namespace OData.Expr

open Token (Kind)
open SyntaxError (Cause)

/-- Whether the text of every path is one. -/
def HavePaths (kinds : List Kind) : Prop :=
  ∀ text, .path text ∈ kinds → ∃ path, Path.read? text = some path

theorem HavePaths.of_append {front rest : List Kind} (havePaths : HavePaths (front ++ rest)) :
    HavePaths rest :=
  fun text member => havePaths text (List.mem_append_right front member)

theorem HavePaths.tail {kind : Kind} {rest : List Kind} (havePaths : HavePaths (kind :: rest)) :
    HavePaths rest :=
  fun text member => havePaths text (List.mem_cons_of_mem kind member)

/-- The phrases of a rank. -/
def Rank.category (rank : Rank) : Category where
  Contains kinds := ∃ phrase, Derives rank phrase ∧ phrase.kinds = kinds
  Ends := Stops rank

/-- Readers of nested expressions that settle them. -/
def Below.Settles {budget : Nat} (below : Below budget) : Prop :=
  ∀ smaller lt ⦃kinds⦄, HavePaths kinds →
    Rank.disjunction.category.Settles kinds (below smaller lt kinds)

/-- A level that settles its rank, if expressions are settled below. -/
def Level.Settles (rank : Rank) (level : Level) : Prop :=
  ∀ budget (below : Below budget), below.Settles → ∀ ⦃kinds⦄, HavePaths kinds →
    rank.category.Settles kinds (level budget below kinds)

theorem Below.Settles.lower {budget smaller : Nat} {below : Below budget}
    (settles : below.Settles) (le : smaller ≤ budget) : (below.lower le).Settles :=
  fun smallest lt => settles smallest (Nat.lt_of_lt_of_le lt le)

variable {kinds front rest : List Kind}

/-! ## Arguments -/

theorem nested_settles {budget : Nat} {below : Below budget} (settles : below.Settles)
    (havePaths : HavePaths kinds) :
    Rank.disjunction.category.Settles kinds (nested budget below kinds) := by
  cases budget with
  | zero => exact .nestedTooDeeply kinds
  | succ smaller => exact settles smaller (Nat.lt_succ_self smaller) havePaths

/-- What stands between the parentheses of a call. -/
def argumentList : Category where
  Contains kinds := ∃ args : List Phrase, (∀ arg ∈ args, Derives .disjunction arg) ∧
    [Kind.comma].intercalate (args.map Phrase.kinds) = kinds
  Ends rest := ∃ more, rest = .rightParen :: more

/-- What stands there if there are arguments. -/
def someArguments : Category where
  Contains kinds := ∃ arg args, Derives .disjunction arg ∧
    (∀ other ∈ args, Derives .disjunction other) ∧ arg.kinds ++ furtherKinds args = kinds
  Ends rest := ∃ more, rest = .rightParen :: more

theorem someArguments_within_disjunction (kinds : List Kind) :
    Category.Within someArguments Rank.disjunction.category [] kinds where
  completes _ contains := by
    rcases contains with ⟨arg, derives, rfl⟩
    exact Category.viable_of_contains
      ⟨arg, [], derives, List.forall_mem_nil _, by simp [furtherKinds]⟩
  descends more _ opens := by
    rcases opens with ⟨_, _, ⟨arg, args, derives, _, rfl⟩, ⟨rest, rfl⟩, same⟩
    rw [List.append_assoc] at same
    exact ⟨arg.kinds, _, ⟨arg, derives, rfl⟩, stops_furtherKinds args rest, same⟩

/-- After a settled argument and a comma there are more arguments. -/
theorem someArguments_finishes_comma
    (contains : Rank.disjunction.category.Contains front)
    (settled : Rank.disjunction.category.Settled front (.comma :: rest)) :
    Category.Finishes someArguments someArguments (front ++ [.comma]) rest where
  contains _ containsOthers := by
    rcases contains with ⟨first, derives, rfl⟩
    rcases containsOthers with ⟨arg, args, derivesArg, derive, rfl⟩
    exact ⟨first, arg :: args, derives, List.forall_mem_cons.mpr ⟨derivesArg, derive⟩,
      by simp [furtherKinds_cons]⟩
  descends more _ _ behind containsArgs ends same := by
    rcases containsArgs with ⟨arg, args, derives, derive, rfl⟩
    rcases ends with ⟨afterParen, rfl⟩
    rw [List.append_assoc, List.append_assoc, List.singleton_append] at same
    have others := settled (by rfl) ⟨arg, derives, rfl⟩ (stops_furtherKinds args afterParen) same
    cases args with
    | nil => cases others
    | cons second args =>
        rcases List.forall_mem_cons.mp derive with ⟨derivesSecond, derive⟩
        exact ⟨_, ⟨second, args, derivesSecond, derive, rfl⟩, ⟨afterParen, rfl⟩,
          (List.cons.inj others).2⟩

/-- An argument with no comma behind it is the last one. -/
theorem settled_someArguments (settled : Rank.disjunction.category.Settled front rest)
    (noComma : rest.head? ≠ some .comma) : someArguments.Settled front rest := by
  rintro more sameHead _ _ ⟨arg, args, derives, _, rfl⟩ ⟨afterParen, rfl⟩ same
  rw [List.append_assoc] at same
  have others := settled sameHead ⟨arg, derives, rfl⟩ (stops_furtherKinds args afterParen) same
  cases args with
  | nil => exact others
  | cons second args =>
      subst others
      exact absurd sameHead.symm noComma

theorem commaSeparated_settles {item : Reader Expr}
    (settles : ∀ ⦃kinds⦄, HavePaths kinds → Rank.disjunction.category.Settles kinds (item kinds))
    {rounds : Nat} (enough : kinds.length < rounds) (havePaths : HavePaths kinds) :
    someArguments.Settles kinds (commaSeparated item rounds kinds) := by
  induction rounds generalizing kinds with
  | zero => cases enough
  | succ rounds ih =>
      rw [commaSeparated]
      apply (settles havePaths).bind (someArguments_within_disjunction kinds)
      rintro first front rest rfl contains settled
      dsimp only
      split
      · next afterComma =>
          have shorter : afterComma.length < rounds := by
            simp only [List.length_append, List.length_cons] at enough
            omega
          have others := ih shorter havePaths.of_append.tail
          have finished := others.finish (someArguments_finishes_comma contains settled)
          rw [List.nil_append, List.append_cons]
          exact finished.map (first :: ·)
      · next noComma =>
          rcases contains with ⟨arg, derives, rfl⟩
          refine .read rfl ⟨arg, [], derives, List.forall_mem_nil _, by simp [furtherKinds]⟩ ?_
          apply settled_someArguments settled
          intro comma
          rcases List.head?_eq_some_iff.mp comma with ⟨more, rfl⟩
          exact noComma more rfl

/-- Where no parenthesis stands, there are arguments. -/
theorem argumentList_finishes_someArguments (noParen : kinds.head? ≠ some .rightParen) :
    Category.Finishes argumentList someArguments [] kinds where
  contains _ contains := by
    rcases contains with ⟨arg, args, derives, derive, rfl⟩
    exact ⟨arg :: args, List.forall_mem_cons.mpr ⟨derives, derive⟩, intercalate_kinds_cons arg args⟩
  descends more sameHead _ behind contains ends same := by
    rcases contains with ⟨args, derive, rfl⟩
    cases args with
    | nil =>
        rcases ends with ⟨afterParen, rfl⟩
        subst same
        exact absurd sameHead.symm noParen
    | cons arg args =>
        rcases List.forall_mem_cons.mp derive with ⟨derives, derive⟩
        rw [intercalate_kinds_cons] at same
        exact ⟨_, ⟨arg, args, derives, derive, rfl⟩, ends, same⟩

theorem settled_argumentList_nil (rest : List Kind) :
    argumentList.Settled [] (.rightParen :: rest) := by
  rintro more sameHead _ behind ⟨args, derive, rfl⟩ _ same
  cases args with
  | nil => exact same
  | cons arg args =>
      rcases List.head?_eq_some_iff.mp sameHead with ⟨afterParen, rfl⟩
      rw [intercalate_kinds_cons, List.append_assoc] at same
      exact absurd same (kinds_append_ne_rightParen (derive arg List.mem_cons_self) _ _)

theorem arguments_settles {budget : Nat} {below : Below budget} (settles : below.Settles)
    (havePaths : HavePaths kinds) :
    argumentList.Settles kinds (arguments budget below kinds) := by
  unfold arguments
  split
  · split
    · exact .nestedTooDeeply _
    · exact .read (List.nil_append _) ⟨[], List.forall_mem_nil _, rfl⟩ (settled_argumentList_nil _)
  · next noParen =>
      have items := commaSeparated_settles (fun _ => nested_settles settles)
        (Nat.lt_succ_self kinds.length) havePaths
      have noHead : kinds.head? ≠ some .rightParen := by
        intro paren
        rcases List.head?_eq_some_iff.mp paren with ⟨more, rfl⟩
        exact noParen more rfl
      exact items.finish (argumentList_finishes_someArguments noHead)

/-! ## Operands -/

theorem encloses_parenthesized :
    Category.Encloses Rank.operand.category Rank.disjunction.category [.leftParen] where
  contains _ contains := by
    rcases contains with ⟨inner, derives, rfl⟩
    exact ⟨inner.parenthesized, .parenthesized derives, rfl⟩
  descends more _ behind contains _ same := by
    rcases contains with ⟨phrase, derives, rfl⟩
    cases derives with
    | chain isChain => cases isChain
    | @parenthesized inner derives =>
        simp only [Phrase.parenthesized, List.cons_append, List.append_assoc, List.nil_append,
          List.cons.injEq, true_and] at same
        exact ⟨inner.kinds, ⟨inner, derives, rfl⟩, stops_rightParen _ behind, same⟩
    | call => cases same
    | property => cases same
    | literal => cases same

/-- A name with a parenthesis behind it is no property. -/
theorem exists_call_of_operand {name : String} {member behind more : List Kind}
    (contains : Rank.operand.category.Contains member) (ends : Stops .operand behind)
    (same : member ++ behind = .path name :: .leftParen :: more) :
    '/' ∉ name.toList ∧ ∃ args : List Phrase, (∀ arg ∈ args, Derives .disjunction arg) ∧
      [Kind.comma].intercalate (args.map Phrase.kinds) ++ .rightParen :: behind = more := by
  rcases contains with ⟨phrase, derives, rfl⟩
  cases derives with
  | chain isChain => cases isChain
  | parenthesized => cases same
  | @call found args isSimple derive =>
      simp only [Phrase.call, List.cons_append, List.append_assoc, List.nil_append,
        List.cons.injEq, Kind.path.injEq, true_and] at same
      exact ⟨same.1 ▸ isSimple, args, derive, same.2⟩
  | property =>
      cases same
      exact absurd rfl ends.1
  | literal => cases same

theorem encloses_call {name : String} (isSimple : '/' ∉ name.toList) :
    Category.Encloses Rank.operand.category argumentList [.path name, .leftParen] where
  contains _ contains := by
    rcases contains with ⟨args, derive, rfl⟩
    exact ⟨.call name args, .call isSimple derive, by simp [Phrase.call]⟩
  descends more _ behind contains ends same := by
    rcases exists_call_of_operand contains ends same with ⟨_, args, derive, split⟩
    exact ⟨_, ⟨args, derive, rfl⟩, ⟨behind, rfl⟩, split⟩

/-- A name with a slash can be a property, but then no parenthesis follows. -/
theorem stuck_invalidFunctionName {name : String} (slash : '/' ∈ name.toList)
    (isPath : ∃ path, Path.read? name = some path) (inside : List Kind) :
    Rank.operand.category.Stuck [.path name]
      ⟨.invalidFunctionName name, .path name :: .leftParen :: inside⟩ where
  viable := by
    rcases isPath with ⟨path, isPath⟩
    exact Category.viable_of_contains ⟨_, .property isPath, rfl⟩
  dead kind more offending more' opens := by
    cases offending
    rcases opens with ⟨member, behind, contains, ends, same⟩
    exact (exists_call_of_operand contains ends same).1 slash
  named found isNamed := by
    cases isNamed
    exact ⟨⟨[], rfl⟩, inside, rfl⟩

theorem settled_property {text : String} (noParen : rest.head? ≠ some .leftParen) :
    Rank.operand.category.Settled [.path text] rest := by
  rintro more sameHead _ behind ⟨phrase, derives, rfl⟩ _ same
  cases derives with
  | chain isChain => cases isChain
  | parenthesized => cases same
  | call =>
      cases same
      exact absurd sameHead.symm noParen
  | property => exact (List.cons.inj same).2
  | literal => cases same

theorem settled_literal (value : Literal) (rest : List Kind) :
    Rank.operand.category.Settled [.literal value] rest := by
  rintro more _ _ behind ⟨phrase, derives, rfl⟩ _ same
  cases derives with
  | chain isChain => cases isChain
  | parenthesized => cases same
  | call => cases same
  | property => cases same
  | literal => exact (List.cons.inj same).2

/-- Something can stand where an operand is missing. -/
theorem viable_operand : Rank.operand.category.Viable [] :=
  ⟨_, isCompletion_null, _, .literal .null, rfl⟩

theorem operand_settles : Level.Settles .operand operand := by
  intro budget below settles kinds havePaths
  unfold operand
  split
  · next inside =>
      have inner := nested_settles settles havePaths.tail
      exact inner.closing id encloses_parenthesized
  · next name inside =>
      split
      · next slash =>
          have isPath := havePaths name List.mem_cons_self
          exact .stuck rfl (stuck_invalidFunctionName (by simpa using slash) isPath inside)
      · next isSimple =>
          have args := arguments_settles settles havePaths.tail.tail
          exact args.closing (call name) (encloses_call (by simpa using isSimple))
  · next text rest noParen =>
      split
      · next path isPath =>
          refine .read rfl ⟨_, .property isPath, rfl⟩ (settled_property ?_)
          intro paren
          rcases List.head?_eq_some_iff.mp paren with ⟨inside, rfl⟩
          exact noParen inside rfl
      · next noPath =>
          -- Only a text that is no path is refused here, and no token has one.
          rcases havePaths text List.mem_cons_self with ⟨path, isPath⟩
          rw [isPath] at noPath
          cases noPath
  · next value rest => exact .read rfl ⟨_, .literal value, rfl⟩ (settled_literal value rest)
  · exact Category.settles_error (fun _ => Cause.noConfusion) viable_operand fun _ _ => nofun
  · next found rest notParen _ notPath notLiteral =>
      apply Category.settles_error (fun _ => Cause.noConfusion) viable_operand
      rintro _ _ ⟨⟩ more ⟨_, behind, ⟨phrase, derives, rfl⟩, _, same⟩
      rcases operand_kinds_eq_cons derives with ⟨kind, others, kindsEq, starts⟩
      rw [kindsEq] at same
      cases same
      cases found with
      | leftParen => exact notParen rfl
      | path name => exact notPath name rfl
      | literal value => exact notLiteral value rfl
      | _ => cases starts

/-! ## Operators -/

theorem prefixed_finishes_operand (noPrefix : ∀ kind ∈ kinds.head?, prefixOperator? kind = none) :
    Category.Finishes Rank.prefixed.category Rank.operand.category [] kinds where
  contains _ contains := by
    rcases contains with ⟨phrase, derives, rfl⟩
    exact ⟨phrase, .bare derives, rfl⟩
  descends more sameHead _ behind contains ends same := by
    rcases contains with ⟨phrase, derives, rfl⟩
    cases derives with
    | chain isChain => cases isChain
    | bare derives =>
        exact ⟨phrase.kinds, ⟨phrase, derives, rfl⟩, ends.of_subset (by decide), same⟩
    | @prefixed kind op inner isPrefix _ =>
        subst same
        rw [noPrefix kind sameHead.symm] at isPrefix
        cases isPrefix

/-- After a prefix operator there is another prefixed operand. -/
theorem prefixed_finishes_prefixed {kind : Kind} {op : UnaryOperator}
    (isPrefix : prefixOperator? kind = some op) (kinds : List Kind) :
    Category.Finishes Rank.prefixed.category Rank.prefixed.category [kind] kinds where
  contains _ contains := by
    rcases contains with ⟨phrase, derives, rfl⟩
    exact ⟨phrase.prefixed kind op, .prefixed isPrefix derives, rfl⟩
  descends more _ _ behind contains ends same := by
    rcases contains with ⟨phrase, derives, rfl⟩
    cases derives with
    | chain isChain => cases isChain
    | bare derives => exact absurd same (operand_kinds_ne_prefixed derives isPrefix _ _)
    | @prefixed _ _ inner _ derives =>
        exact ⟨inner.kinds, ⟨inner, derives, rfl⟩, ends, (List.cons.inj same).2⟩

theorem prefixed_settles : Level.Settles .prefixed prefixed := by
  intro budget below settles kinds havePaths
  induction budget, below, kinds using prefixed.induct with
  | case1 budget below =>
      rw [prefixed]
      exact (operand_settles budget below settles havePaths).finish
        (prefixed_finishes_operand fun _ impossible => nomatch impossible)
  | case2 kind kinds budget noPrefix below =>
      rw [prefixed.eq_2 kind kinds budget below noPrefix]
      exact (operand_settles budget below settles havePaths).finish
        (prefixed_finishes_operand (by simpa using noPrefix))
  | case3 kind kinds op isPrefix below =>
      rw [prefixed.eq_3 kind kinds below op isPrefix]
      exact .nestedTooDeeply _
  | case4 kind kinds op budget isPrefix below ih =>
      rw [prefixed.eq_4 kind kinds op budget below isPrefix]
      have inner := ih (settles.lower (Nat.le_succ budget)) havePaths.tail
      exact (inner.finish (prefixed_finishes_prefixed isPrefix kinds)).map (unary op)

section Chains

variable {rank operands : Rank} {ops : List BinaryOperator}

/-- What a chain has after its first operand. -/
def furtherOperands (rank operands : Rank) (ops : List BinaryOperator) : Category where
  Contains kinds := ∃ others, Operands ops operands others ∧ chainKinds others = kinds
  Ends := Stops rank

theorem chain_within (isChain : rank.chain? = some (ops, operands)) (kinds : List Kind) :
    Category.Within rank.category operands.category [] kinds where
  completes _ contains := by
    rcases contains with ⟨phrase, derives, rfl⟩
    exact Category.viable_of_contains ⟨phrase, .single isChain derives, rfl⟩
  descends more _ opens := by
    rcases opens with ⟨_, behind, ⟨phrase, derives, rfl⟩, ends, same⟩
    rcases (derives_chain_iff isChain).mp derives with ⟨first, others, start, areOperands, rfl⟩
    rw [Phrase.chain_kinds, List.append_assoc] at same
    exact ⟨first.kinds, _, ⟨first, start, rfl⟩, stops_chainKinds isChain areOperands ends, same⟩

theorem chain_finishes (isChain : rank.chain? = some (ops, operands))
    (contains : operands.category.Contains front) (settled : operands.category.Settled front rest) :
    Category.Finishes rank.category (furtherOperands rank operands ops) front rest where
  contains _ containsOthers := by
    rcases contains with ⟨first, start, rfl⟩
    rcases containsOthers with ⟨others, areOperands, rfl⟩
    exact ⟨first.chain others,
      (derives_chain_iff isChain).mpr ⟨first, others, start, areOperands, rfl⟩, rfl⟩
  descends more sameHead _ behind containsChain ends same := by
    rcases containsChain with ⟨phrase, derives, rfl⟩
    rcases (derives_chain_iff isChain).mp derives with ⟨first, others, start, areOperands, rfl⟩
    rw [Phrase.chain_kinds, List.append_assoc] at same
    exact ⟨chainKinds others, ⟨others, areOperands, rfl⟩, ends, settled sameHead ⟨first, start, rfl⟩
      (stops_chainKinds isChain areOperands ends) same⟩

/-- After an operator of a chain there is an operand. -/
theorem furtherOperands_within (isChain : rank.chain? = some (ops, operands))
    {op : BinaryOperator} (member : op ∈ ops) (kinds : List Kind) :
    Category.Within (furtherOperands rank operands ops) operands.category [.operator op] kinds where
  completes _ contains := by
    rcases contains with ⟨phrase, derives, rfl⟩
    have areOperands : Operands ops operands [(op, phrase)] :=
      operands_cons_iff.mpr ⟨⟨member, derives⟩, operands_nil ops operands⟩
    exact Category.viable_of_contains ⟨_, areOperands, by simp⟩
  descends more _ opens := by
    rcases opens with ⟨_, behind, ⟨others, areOperands, rfl⟩, ends, same⟩
    cases others with
    | nil =>
        subst same
        exact absurd ends (not_stops_operator isChain member more)
    | cons other others =>
        rcases operands_cons_iff.mp areOperands with ⟨⟨_, derives⟩, areOthers⟩
        rw [chainKinds_cons, List.cons_append, List.append_assoc] at same
        exact ⟨other.2.kinds, _, ⟨other.2, derives, rfl⟩,
          stops_chainKinds isChain areOthers ends, (List.cons.inj same).2⟩

theorem furtherOperands_finishes (isChain : rank.chain? = some (ops, operands))
    {op : BinaryOperator} (member : op ∈ ops) (contains : operands.category.Contains front)
    (settled : operands.category.Settled front rest) :
    Category.Finishes (furtherOperands rank operands ops) (furtherOperands rank operands ops)
      ([.operator op] ++ front) rest where
  contains _ containsOthers := by
    rcases contains with ⟨phrase, derives, rfl⟩
    rcases containsOthers with ⟨others, areOperands, rfl⟩
    exact ⟨(op, phrase) :: others, operands_cons_iff.mpr ⟨⟨member, derives⟩, areOperands⟩,
      by simp⟩
  descends more sameHead _ behind containsOthers ends same := by
    rcases containsOthers with ⟨others, areOperands, rfl⟩
    rw [List.append_assoc, List.singleton_append] at same
    cases others with
    | nil =>
        subst same
        exact absurd ends (not_stops_operator isChain member _)
    | cons other others =>
        rcases operands_cons_iff.mp areOperands with ⟨⟨_, derives⟩, areOthers⟩
        rw [chainKinds_cons, List.cons_append, List.append_assoc] at same
        exact ⟨chainKinds others, ⟨others, areOthers, rfl⟩, ends, settled sameHead
          ⟨other.2, derives, rfl⟩ (stops_chainKinds isChain areOthers ends) (List.cons.inj same).2⟩

/-- Where no operator of the chain follows, it has ended. -/
theorem settled_furtherOperands (noOperator : ∀ kind ∈ rest.head?, operatorIn? ops kind = none) :
    (furtherOperands rank operands ops).Settled [] rest := by
  rintro more sameHead _ behind ⟨others, areOperands, rfl⟩ _ same
  cases others with
  | nil => exact same
  | cons other others =>
      subst same
      have found := noOperator _ sameHead.symm
      rw [operatorIn?_operator_of_mem (operands_cons_iff.mp areOperands).1.1] at found
      cases found

theorem folded_settles {level : Level} (isChain : rank.chain? = some (ops, operands))
    (settlesLevel : level.Settles operands) {left : Expr} {budget : Nat} {below : Below budget}
    (settles : below.Settles) (havePaths : HavePaths kinds) :
    (furtherOperands rank operands ops).Settles kinds
      (folded ops level left budget below kinds) := by
  induction left, budget, below, kinds using folded.induct ops with
  | case1 left budget below =>
      rw [folded]
      exact .read rfl ⟨[], operands_nil ops operands, rfl⟩
        (settled_furtherOperands fun _ impossible => nomatch impossible)
  | case2 left budget kind kinds noOperator below =>
      rw [folded.eq_2 ops level left kind kinds budget below noOperator]
      exact .read rfl ⟨[], operands_nil ops operands, rfl⟩
        (settled_furtherOperands (by simpa using noOperator))
  | case3 left kind kinds op isOperator below =>
      rw [folded.eq_3 ops level left kind kinds below op isOperator]
      exact .nestedTooDeeply _
  | case4 left kind kinds op budget isOperator below lowered ih =>
      rw [folded.eq_4 ops level left kind kinds op budget below isOperator]
      rcases operatorIn?_eq_some_iff.mp isOperator with ⟨rfl, member⟩
      have settlesLowered : lowered.Settles := settles.lower (Nat.le_succ budget)
      have right := settlesLevel budget lowered settlesLowered havePaths.tail
      apply right.bind (furtherOperands_within isChain member kinds)
      rintro value front rest rfl contains settled
      rw [← List.append_assoc]
      exact (ih value rest settlesLowered havePaths.tail.of_append).finish
        (furtherOperands_finishes isChain member contains settled)

theorem chain_settles {level : Level} (isChain : rank.chain? = some (ops, operands))
    (settlesLevel : level.Settles operands) : Level.Settles rank (chain ops level) := by
  intro budget below settles kinds havePaths
  have first := settlesLevel budget below settles havePaths
  apply first.bind (chain_within isChain kinds)
  rintro value front rest rfl contains settled
  exact (folded_settles isChain settlesLevel settles havePaths.of_append).finish
    (chain_finishes isChain contains settled)

end Chains

/-! ## Comparisons -/

/-- A comparison starts with a sum that ends where the comparison does or
before its operator. -/
theorem exists_sum_of_comparison {member behind : List Kind}
    (contains : Rank.comparison.category.Contains member) (ends : Stops .comparison behind) :
    (Rank.sum.category.Contains member ∧ Stops .sum behind) ∨
      ∃ left op right, op ∈ comparisons ∧ Rank.sum.category.Contains left ∧
        Rank.sum.category.Contains right ∧ left ++ .operator op :: right = member ∧
        Stops .sum (.operator op :: (right ++ behind)) ∧ Stops .sum behind := by
  have endsSum : Stops .sum behind := ends.of_subset (by decide)
  rcases contains with ⟨phrase, derives, rfl⟩
  cases derives with
  | chain isChain => cases isChain
  | uncompared derives => exact .inl ⟨⟨phrase, derives, rfl⟩, endsSum⟩
  | @compared left right op isComparison leftSum rightSum =>
      exact .inr ⟨left.kinds, op, right.kinds, mem_comparisons_iff.mpr isComparison,
        ⟨left, leftSum, rfl⟩, ⟨right, rightSum, rfl⟩, rfl, stops_sum_comparison isComparison _,
        endsSum⟩

theorem contains_comparison {left right : List Kind} {op : BinaryOperator}
    (member : op ∈ comparisons) (containsLeft : Rank.sum.category.Contains left)
    (containsRight : Rank.sum.category.Contains right) :
    Rank.comparison.category.Contains (left ++ .operator op :: right) := by
  rcases containsLeft with ⟨leftPhrase, leftSum, rfl⟩
  rcases containsRight with ⟨rightPhrase, rightSum, rfl⟩
  exact ⟨leftPhrase.compare op rightPhrase,
    .compared (mem_comparisons_iff.mp member) leftSum rightSum, rfl⟩

theorem contains_uncompared (contains : Rank.sum.category.Contains kinds) :
    Rank.comparison.category.Contains kinds := by
  rcases contains with ⟨phrase, derives, rfl⟩
  exact ⟨phrase, .uncompared derives, rfl⟩

theorem comparison_within_left (kinds : List Kind) :
    Category.Within Rank.comparison.category Rank.sum.category [] kinds where
  completes _ contains := Category.viable_of_contains (contains_uncompared contains)
  descends more _ opens := by
    rcases opens with ⟨member, behind, contains, ends, same⟩
    rcases exists_sum_of_comparison contains ends with
      ⟨containsSum, endsSum⟩ | ⟨left, op, right, _, containsLeft, _, rfl, endsLeft, _⟩
    · exact ⟨member, behind, containsSum, endsSum, same⟩
    · exact ⟨left, _, containsLeft, endsLeft, by simpa using same⟩

section Comparisons

variable {left : List Kind} {op : BinaryOperator}

/-- After a settled sum and an operator that compares, a comparison goes on
with its second sum. -/
theorem exists_right_of_comparison (member : op ∈ comparisons) {more other behind : List Kind}
    (settled : Rank.sum.category.Settled left (.operator op :: rest))
    (contains : Rank.comparison.category.Contains other) (ends : Stops .comparison behind)
    (same : other ++ behind = left ++ .operator op :: more) :
    ∃ right, Rank.sum.category.Contains right ∧ Stops .sum behind ∧ right ++ behind = more := by
  rcases exists_sum_of_comparison contains ends with
    ⟨containsSum, endsSum⟩ |
    ⟨left', op', right, _, containsLeft, containsRight, rfl, endsLeft, endsSum⟩
  · cases settled (by rfl) containsSum endsSum same
    exact absurd ends (not_stops_comparison (mem_comparisons_iff.mp member) more)
  · rw [List.append_assoc, List.cons_append] at same
    have others := settled (by rfl) containsLeft endsLeft same
    exact ⟨right, containsRight, endsSum, (List.cons.inj others).2⟩

theorem comparison_within_right (member : op ∈ comparisons)
    (contains : Rank.sum.category.Contains left)
    (settled : Rank.sum.category.Settled left (.operator op :: rest)) :
    Category.Within Rank.comparison.category Rank.sum.category (left ++ [.operator op]) rest where
  completes _ containsRight := by
    rw [List.append_assoc]
    exact Category.viable_of_contains (contains_comparison member contains containsRight)
  descends more _ opens := by
    rcases opens with ⟨other, behind, containsOther, ends, same⟩
    rw [List.append_assoc] at same
    rcases exists_right_of_comparison member settled containsOther ends same with
      ⟨right, containsRight, endsRight, split⟩
    exact ⟨right, behind, containsRight, endsRight, split⟩

/-- A sum with no comparison behind it is all there is to a comparison. -/
theorem settled_uncompared (settled : Rank.sum.category.Settled left rest)
    (noComparison : ∀ kind ∈ rest.head?, operatorIn? comparisons kind = none) :
    Rank.comparison.category.Settled left rest := by
  intro more sameHead other behind contains ends same
  rcases exists_sum_of_comparison contains ends with
    ⟨containsSum, endsSum⟩ | ⟨left', op, right, member, containsLeft, _, rfl, endsLeft, _⟩
  · exact settled sameHead containsSum endsSum same
  · rw [List.append_assoc, List.cons_append] at same
    cases settled sameHead containsLeft endsLeft same
    have found := noComparison _ sameHead.symm
    rw [operatorIn?_operator_of_mem member] at found
    cases found

theorem settled_compared {right : List Kind} (member : op ∈ comparisons)
    (settledLeft : Rank.sum.category.Settled left (.operator op :: (right ++ rest)))
    (settledRight : Rank.sum.category.Settled right rest) :
    Rank.comparison.category.Settled (left ++ .operator op :: right) rest := by
  intro more sameHead other behind contains ends same
  rw [List.append_assoc, List.cons_append] at same
  rcases exists_right_of_comparison member settledLeft contains ends same with
    ⟨right', containsRight, endsRight, split⟩
  exact settledRight sameHead containsRight endsRight split

end Comparisons

theorem compared_settles {level : Level} (settlesLevel : level.Settles .sum) :
    Level.Settles .comparison (compared level) := by
  intro budget below settles kinds havePaths
  have readLeft := settlesLevel budget below settles havePaths
  apply readLeft.bind (comparison_within_left kinds)
  rintro value left rest rfl contains settled
  dsimp only
  split
  · exact .read rfl (contains_uncompared contains)
      (settled_uncompared settled fun _ impossible => nomatch impossible)
  · next kind rest =>
      split
      · next noComparison =>
          exact .read rfl (contains_uncompared contains)
            (settled_uncompared settled (by simpa using noComparison))
      · next op isComparison =>
          rcases operatorIn?_eq_some_iff.mp isComparison with ⟨rfl, member⟩
          have readRight := settlesLevel budget below settles havePaths.of_append.tail
          rw [List.nil_append, List.append_cons]
          apply readRight.bind (comparison_within_right member contains settled)
          rintro second right rest rfl containsRight settledRight
          have containsBoth := contains_comparison member contains containsRight
          have settledBoth := settled_compared member settled settledRight
          rw [← List.append_cons, ← List.cons_append, ← List.append_assoc]
          dsimp only
          split
          · next chained =>
              -- Both sums are settled, so every comparison here ends before this operator,
              -- and a comparison cannot end before one that compares.
              apply Category.settles_error (fun _ => Cause.noConfusion)
                (Category.viable_of_contains containsBoth)
              rintro kind more rfl more' ⟨other, behind, containsOther, ends, same⟩
              cases settledBoth (by rfl) containsOther ends same
              have noComparison : operatorIn? comparisons kind = none :=
                operatorIn?_of_subset (by decide) ends.2
              simp [next, noComparison] at chained
          · exact .read rfl containsBoth settledBoth

/-! ## Expressions -/

theorem disjunction_settles : Level.Settles .disjunction disjunction :=
  have product : Level.Settles .product product := chain_settles rfl prefixed_settles
  have sum : Level.Settles .sum sum := chain_settles rfl product
  have conjunction : Level.Settles .conjunction conjunction :=
    chain_settles rfl (compared_settles sum)
  chain_settles rfl conjunction

theorem expression_settles (budget : Nat) (havePaths : HavePaths kinds) :
    Rank.disjunction.category.Settles kinds (expression budget kinds) := by
  induction budget using Nat.strongRecOn generalizing kinds with
  | ind budget ih =>
      rw [expression_eq]
      exact disjunction_settles budget _ (fun smaller lt _ => ih smaller lt) havePaths

end OData.Expr
