import OData.Proofs.Expr.Derivation

/-!
# One phrase for every list of kinds

The grammar is unambiguous.  Of all phrases of a rank at the front of a list
of kinds, one at most is followed by kinds where the rank ends.  The induction
is on the derivation of one phrase; the other is taken apart by its last rule,
and `Stops` excludes that one of the two goes on where the other has ended.
As phrases carry their nesting, a list of kinds has one nesting as well as one
tree.
-/

namespace OData.Expr

open Token (Kind)

/-- No other phrase of this rank starts a list of kinds that a phrase starts,
if both end where the rank ends. -/
def Phrase.IsOnly (rank : Rank) (phrase : Phrase) : Prop :=
  ∀ ⦃other⦄, Derives rank other → ∀ ⦃rest rest'⦄, Stops rank rest → Stops rank rest' →
    phrase.kinds ++ rest = other.kinds ++ rest' → phrase = other ∧ rest = rest'

/-! ## Chains -/

section Chains

variable {rank operands : Rank} {ops : List BinaryOperator}

/-- A rank of chains does not end before one of its operators. -/
theorem not_stops_operator (isChain : rank.chain? = some (ops, operands)) {op : BinaryOperator}
    (member : op ∈ ops) (kinds : List Kind) : ¬ Stops rank (.operator op :: kinds) := by
  intro stops
  have noOperator := stops.operatorIn?_of_chain isChain
  rw [next, List.head?_cons, Option.getD_some, operatorIn?_operator_of_mem member] at noOperator
  cases noOperator

/-- Chains that go on with the same kinds go on with the same operands. -/
theorem operands_unique (isChain : rank.chain? = some (ops, operands))
    {others others' : List (BinaryOperator × Phrase)} (areOperands : Operands ops operands others)
    (areOperands' : Operands ops operands others')
    (only : ∀ other ∈ others, other.2.IsOnly operands) {rest rest' : List Kind}
    (stops : Stops rank rest) (stops' : Stops rank rest')
    (same : chainKinds others ++ rest = chainKinds others' ++ rest') :
    others = others' ∧ rest = rest' := by
  induction others generalizing others' with
  | nil =>
      cases others' with
      | nil => exact ⟨rfl, same⟩
      | cons other' others' =>
          rcases operands_cons_iff.mp areOperands' with ⟨⟨member, _⟩, _⟩
          rw [chainKinds_nil, List.nil_append, chainKinds_cons, List.cons_append] at same
          exact absurd (same ▸ stops) (not_stops_operator isChain member _)
  | cons other others ih =>
      rcases operands_cons_iff.mp areOperands with ⟨⟨member, _⟩, areOthers⟩
      rw [chainKinds_cons, List.cons_append, List.append_assoc] at same
      cases others' with
      | nil =>
          rw [chainKinds_nil, List.nil_append] at same
          exact absurd (same ▸ stops') (not_stops_operator isChain member _)
      | cons other' others' =>
          rcases operands_cons_iff.mp areOperands' with ⟨⟨_, derives'⟩, areOthers'⟩
          rw [chainKinds_cons, List.cons_append, List.append_assoc] at same
          rcases List.forall_mem_cons.mp only with ⟨onlyFirst, onlyOthers⟩
          rcases List.cons.inj same with ⟨sameOperator, sameKinds⟩
          rcases onlyFirst derives' (stops_chainKinds isChain areOthers stops)
            (stops_chainKinds isChain areOthers' stops') sameKinds with ⟨sameFirst, sameRest⟩
          rcases ih areOthers areOthers' onlyOthers sameRest with ⟨rfl, rfl⟩
          exact ⟨by rw [Prod.ext (Kind.operator.inj sameOperator) sameFirst], rfl⟩

end Chains

/-! ## Arguments -/

/-- The kinds of further arguments, each after its comma. -/
def furtherKinds (args : List Phrase) : List Kind :=
  args.flatMap fun arg => .comma :: arg.kinds

theorem furtherKinds_cons (arg : Phrase) (args : List Phrase) :
    furtherKinds (arg :: args) = .comma :: (arg.kinds ++ furtherKinds args) :=
  rfl

theorem intercalate_kinds_cons (arg : Phrase) (args : List Phrase) :
    [Kind.comma].intercalate ((arg :: args).map Phrase.kinds) = arg.kinds ++ furtherKinds args := by
  induction args generalizing arg with
  | nil => simp [furtherKinds]
  | cons second args ih =>
      rw [List.map_cons, List.map_cons, List.intercalate_cons_cons, ← List.map_cons, ih,
        furtherKinds_cons]
      simp

/-- Further arguments end before a comma or the closing parenthesis. -/
theorem stops_furtherKinds (args : List Phrase) (rest : List Kind) :
    Stops .disjunction (furtherKinds args ++ .rightParen :: rest) := by
  cases args with
  | nil => exact stops_rightParen _ rest
  | cons arg args => exact stops_comma _ _

theorem furtherKinds_unique {args args' : List Phrase}
    (only : ∀ arg ∈ args, arg.IsOnly .disjunction)
    (derive' : ∀ arg ∈ args', Derives .disjunction arg) {rest rest' : List Kind}
    (same : furtherKinds args ++ .rightParen :: rest =
      furtherKinds args' ++ .rightParen :: rest') :
    args = args' ∧ rest = rest' := by
  induction args generalizing args' with
  | nil =>
      cases args' with
      | nil => exact ⟨rfl, (List.cons.inj same).2⟩
      | cons arg' args' => cases same
  | cons arg args ih =>
      cases args' with
      | nil => cases same
      | cons arg' args' =>
          rcases List.forall_mem_cons.mp only with ⟨onlyFirst, onlyOthers⟩
          rcases List.forall_mem_cons.mp derive' with ⟨derivesFirst, deriveOthers⟩
          rw [furtherKinds_cons, furtherKinds_cons, List.cons_append, List.cons_append,
            List.append_assoc, List.append_assoc] at same
          rcases onlyFirst derivesFirst (stops_furtherKinds args rest)
            (stops_furtherKinds args' rest') (List.cons.inj same).2 with ⟨rfl, sameRest⟩
          rcases ih onlyOthers deriveOthers sameRest with ⟨rfl, rfl⟩
          exact ⟨rfl, rfl⟩

/-- No expression starts with the parenthesis that closes a call. -/
theorem kinds_append_ne_rightParen {phrase : Phrase} (derives : Derives .disjunction phrase)
    (kinds rest : List Kind) : phrase.kinds ++ kinds ≠ .rightParen :: rest := by
  intro same
  rcases derives.kinds_eq_cons with ⟨kind, more, kindsEq, starts⟩
  rw [kindsEq, List.cons_append] at same
  cases same
  rcases starts with starts | starts <;> cases starts

/-- Calls with the same kinds have the same arguments. -/
theorem arguments_unique {args args' : List Phrase}
    (derive : ∀ arg ∈ args, Derives .disjunction arg)
    (only : ∀ arg ∈ args, arg.IsOnly .disjunction)
    (derive' : ∀ arg ∈ args', Derives .disjunction arg) {rest rest' : List Kind}
    (same : [Kind.comma].intercalate (args.map Phrase.kinds) ++ .rightParen :: rest =
      [Kind.comma].intercalate (args'.map Phrase.kinds) ++ .rightParen :: rest') :
    args = args' ∧ rest = rest' := by
  cases args with
  | nil =>
      cases args' with
      | nil => exact ⟨rfl, (List.cons.inj same).2⟩
      | cons arg' args' =>
          rw [intercalate_kinds_cons, List.append_assoc] at same
          exact absurd same.symm (kinds_append_ne_rightParen (derive' _ List.mem_cons_self) _ _)
  | cons arg args =>
      rw [intercalate_kinds_cons, List.append_assoc] at same
      cases args' with
      | nil => exact absurd same (kinds_append_ne_rightParen (derive _ List.mem_cons_self) _ _)
      | cons arg' args' =>
          rw [intercalate_kinds_cons, List.append_assoc] at same
          apply furtherKinds_unique only derive'
          rw [furtherKinds_cons, furtherKinds_cons, List.cons_append, List.cons_append,
            List.append_assoc, List.append_assoc, same]

/-! ## Derivations -/

theorem isOnly_chain {rank operands : Rank} {ops : List BinaryOperator}
    (isChain : rank.chain? = some (ops, operands)) {first : Phrase}
    {others : List (BinaryOperator × Phrase)} (areOperands : Operands ops operands others)
    (onlyFirst : first.IsOnly operands) (onlyOthers : ∀ other ∈ others, other.2.IsOnly operands) :
    (first.chain others).IsOnly rank := by
  intro other derives rest rest' stops stops' same
  rcases (derives_chain_iff isChain).mp derives with ⟨first', others', start', areOperands', rfl⟩
  rw [Phrase.chain_kinds, Phrase.chain_kinds, List.append_assoc, List.append_assoc] at same
  rcases onlyFirst start' (stops_chainKinds isChain areOperands stops)
    (stops_chainKinds isChain areOperands' stops') same with ⟨rfl, sameOthers⟩
  rcases operands_unique isChain areOperands areOperands' onlyOthers stops stops' sameOthers with
    ⟨rfl, rfl⟩
  exact ⟨rfl, rfl⟩

/-- A comparison does not end before an operator that compares. -/
theorem not_stops_comparison {op : BinaryOperator} (isComparison : op.isComparison)
    (kinds : List Kind) : ¬ Stops .comparison (.operator op :: kinds) := by
  intro stops
  have member : op ∈ Rank.comparison.operators := by cases op <;> cases isComparison <;> decide
  have noOperator := stops.2
  rw [next, List.head?_cons, Option.getD_some, operatorIn?_operator_of_mem member] at noOperator
  cases noOperator

/-- A sum ends before an operator that compares. -/
theorem stops_sum_comparison {op : BinaryOperator} (isComparison : op.isComparison)
    (kinds : List Kind) : Stops .sum (.operator op :: kinds) :=
  stops_operator (by cases op <;> cases isComparison <;> decide) kinds

theorem isOnly_uncompared {phrase : Phrase} (only : phrase.IsOnly .sum) :
    phrase.IsOnly .comparison := by
  intro other derives rest rest' stops stops' same
  have stopsSum : Stops .sum rest := stops.of_subset (by decide)
  have stopsSum' : Stops .sum rest' := stops'.of_subset (by decide)
  cases derives with
  | chain isChain => cases isChain
  | uncompared derives => exact only derives stopsSum stopsSum' same
  | @compared left right op isComparison leftSum rightSum =>
      simp only [Phrase.compare, List.append_assoc, List.cons_append] at same
      rcases only leftSum stopsSum (stops_sum_comparison isComparison _) same with ⟨_, sameRest⟩
      exact absurd (sameRest ▸ stops) (not_stops_comparison isComparison _)

theorem isOnly_compared {left right : Phrase} {op : BinaryOperator}
    (isComparison : op.isComparison) (onlyLeft : left.IsOnly .sum) (onlyRight : right.IsOnly .sum) :
    (left.compare op right).IsOnly .comparison := by
  intro other derives rest rest' stops stops' same
  have stopsSum : Stops .sum rest := stops.of_subset (by decide)
  have stopsSum' : Stops .sum rest' := stops'.of_subset (by decide)
  simp only [Phrase.compare, List.append_assoc, List.cons_append] at same
  cases derives with
  | chain isChain => cases isChain
  | uncompared derives =>
      rcases onlyLeft derives (stops_sum_comparison isComparison _) stopsSum' same with
        ⟨_, sameRest⟩
      exact absurd (sameRest ▸ stops') (not_stops_comparison isComparison _)
  | @compared left' right' op' isComparison' leftSum' rightSum' =>
      simp only [Phrase.compare, List.append_assoc, List.cons_append] at same
      rcases onlyLeft leftSum' (stops_sum_comparison isComparison _)
        (stops_sum_comparison isComparison' _) same with ⟨rfl, sameRight⟩
      rcases List.cons.inj sameRight with ⟨sameOperator, sameKinds⟩
      rcases onlyRight rightSum' stopsSum stopsSum' sameKinds with ⟨rfl, rfl⟩
      cases sameOperator
      exact ⟨rfl, rfl⟩

/-- An operand does not start with a prefix operator. -/
theorem operand_kinds_ne_prefixed {phrase : Phrase} (derives : Derives .operand phrase)
    {kind : Kind} {op : UnaryOperator} (isPrefix : prefixOperator? kind = some op)
    (kinds rest : List Kind) : phrase.kinds ++ kinds ≠ kind :: rest := by
  intro same
  rcases operand_kinds_eq_cons derives with ⟨first, more, kindsEq, starts⟩
  rw [kindsEq, List.cons_append] at same
  rw [← (List.cons.inj same).1, prefixOperator?_of_startsOperand starts] at isPrefix
  cases isPrefix

theorem isOnly_bare {phrase : Phrase} (derives : Derives .operand phrase)
    (only : phrase.IsOnly .operand) : phrase.IsOnly .prefixed := by
  intro other derivesOther rest rest' stops stops' same
  cases derivesOther with
  | chain isChain => cases isChain
  | bare derivesOther =>
      exact only derivesOther (stops.of_subset (by decide)) (stops'.of_subset (by decide)) same
  | prefixed isPrefix => exact absurd same (operand_kinds_ne_prefixed derives isPrefix _ _)

theorem isOnly_prefixed {kind : Kind} {op : UnaryOperator} {inner : Phrase}
    (isPrefix : prefixOperator? kind = some op) (only : inner.IsOnly .prefixed) :
    (inner.prefixed kind op).IsOnly .prefixed := by
  intro other derivesOther rest rest' stops stops' same
  cases derivesOther with
  | chain isChain => cases isChain
  | bare derivesOther =>
      exact absurd same.symm (operand_kinds_ne_prefixed derivesOther isPrefix _ _)
  | @prefixed kind' op' inner' isPrefix' derivesInner =>
      rcases List.cons.inj same with ⟨rfl, sameKinds⟩
      rcases only derivesInner stops stops' sameKinds with ⟨rfl, rfl⟩
      rw [isPrefix] at isPrefix'
      cases isPrefix'
      exact ⟨rfl, rfl⟩

theorem isOnly_parenthesized {inner : Phrase} (only : inner.IsOnly .disjunction) :
    inner.parenthesized.IsOnly .operand := by
  intro other derivesOther rest rest' _ _ same
  cases derivesOther with
  | chain isChain => cases isChain
  | @parenthesized inner' any =>
      simp only [Phrase.parenthesized, List.cons_append, List.append_assoc, List.nil_append] at same
      rcases only any (stops_rightParen _ rest) (stops_rightParen _ rest') (List.cons.inj same).2
        with ⟨rfl, sameRest⟩
      exact ⟨rfl, (List.cons.inj sameRest).2⟩
  | call => cases same
  | property => cases same
  | literal => cases same

theorem isOnly_call {name : String} {args : List Phrase}
    (any : ∀ arg ∈ args, Derives .disjunction arg) (only : ∀ arg ∈ args, arg.IsOnly .disjunction) :
    (Phrase.call name args).IsOnly .operand := by
  intro other derivesOther rest rest' _ stops' same
  cases derivesOther with
  | chain isChain => cases isChain
  | parenthesized => cases same
  | @call name' args' _ any' =>
      simp only [Phrase.call, List.cons_append, List.append_assoc, List.nil_append] at same
      rcases List.cons.inj same with ⟨sameName, sameKinds⟩
      rcases arguments_unique any only any' (List.cons.inj sameKinds).2 with ⟨rfl, rfl⟩
      exact ⟨by rw [Kind.path.inj sameName], rfl⟩
  | property =>
      rcases List.cons.inj same with ⟨_, rfl⟩
      exact absurd rfl stops'.1
  | literal => cases same

theorem isOnly_property {text : String} {path : Path} (isPath : Path.read? text = some path) :
    (Phrase.mk [.path text] (.property path) 0).IsOnly .operand := by
  intro other derivesOther rest rest' stops _ same
  cases derivesOther with
  | chain isChain => cases isChain
  | parenthesized => cases same
  | call =>
      rcases List.cons.inj same with ⟨_, rfl⟩
      exact absurd rfl stops.1
  | property isPath' =>
      rcases List.cons.inj same with ⟨sameText, rfl⟩
      rw [← Kind.path.inj sameText, isPath] at isPath'
      cases isPath'
      rw [Kind.path.inj sameText]
      exact ⟨rfl, rfl⟩
  | literal => cases same

theorem isOnly_literal (value : Literal) :
    (Phrase.mk [.literal value] (.literal value) 0).IsOnly .operand := by
  intro other derivesOther rest rest' _ _ same
  cases derivesOther with
  | chain isChain => cases isChain
  | parenthesized => cases same
  | call => cases same
  | property => cases same
  | literal =>
      cases same
      exact ⟨rfl, rfl⟩

/-- Every phrase is the only one for its kinds. -/
theorem Derives.isOnly {rank : Rank} {phrase : Phrase} (derives : Derives rank phrase) :
    phrase.IsOnly rank := by
  induction derives with
  | chain isChain operators _ rest onlyFirst onlyOthers =>
      exact isOnly_chain isChain (fun other member => ⟨operators other member, rest other member⟩)
        onlyFirst onlyOthers
  | uncompared _ only => exact isOnly_uncompared only
  | compared isComparison _ _ onlyLeft onlyRight =>
      exact isOnly_compared isComparison onlyLeft onlyRight
  | bare operand only => exact isOnly_bare operand only
  | prefixed isPrefix _ only => exact isOnly_prefixed isPrefix only
  | parenthesized _ only => exact isOnly_parenthesized only
  | call _ any only => exact isOnly_call any only
  | property isPath => exact isOnly_property isPath
  | literal value => exact isOnly_literal value

/-- A list of kinds is an expression with one tree and one nesting at most. -/
theorem Derives.unique {kinds : List Kind} {expr expr' : Expr} {nesting nesting' : Nat}
    (derives : Derives .disjunction ⟨kinds, expr, nesting⟩)
    (derives' : Derives .disjunction ⟨kinds, expr', nesting'⟩) :
    expr = expr' ∧ nesting = nesting' := by
  rcases derives.isOnly derives' (stops_nil _) (stops_nil _) rfl with ⟨same, _⟩
  exact ⟨congrArg Phrase.expr same, congrArg Phrase.nesting same⟩

end OData.Expr
