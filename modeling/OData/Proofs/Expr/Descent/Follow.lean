import OData.Proofs.Expr.Completeness
import OData.Proofs.Expr.Descent.Run
import OData.Proofs.Expr.Soundness

/-!
# Procedures beside levels

The procedures of a descent and the readers of expressions take the same
decisions: where a reader has `budget` left, a procedure is `depth` levels deep
with `budget + depth` levels in all.  Each procedure follows its reader if the
procedure for nested expressions does, and the recursion over the rounds ties
them together.
-/

namespace OData.Expr.Descent

open Token (Kind)

variable {descent : Descent} {kinds : List Kind} {position depth budget : Nat}

/-- The readers of nested expressions. -/
def expressions (budget : Nat) : Below budget :=
  fun smaller _ => expression smaller

/-- Whether a procedure follows a reader of expressions from every token at
`first` or behind it, takes a token at least, and leaves the depth as it was. -/
def FollowsLevel (descent : Descent) (kinds : List Kind) (first : Nat)
    (procedure : Procedure Expr) (level : Level) : Prop :=
  ∀ ⦃position depth budget⦄, first ≤ position → position ≤ kinds.length →
    budget + depth = descent.maxNesting →
      Follows descent kinds ⟨position, depth⟩ (position + 1) depth (procedure ⟨position, depth⟩)
        (level budget (expressions budget) (kinds.drop position))

section Levels

variable (ended : descent.IsEnded kinds) {first rounds : Nat}
  {procedure : Procedure Expr} {level : Level}

/-! ### Operators -/

include ended

omit ended in
theorem ne_endOfInput_of_operatorIn? {ops : List BinaryOperator} {op : BinaryOperator}
    {kind : Kind} (isOperator : operatorIn? ops kind = some op) : kind ≠ .endOfInput := by
  rintro rfl
  cases isOperator

omit ended in
theorem prefixed_eq_of_next {below : Below budget}
    (noPrefix : prefixOperator? (next kinds) = none) :
    Expr.prefixed budget below kinds = Expr.operand budget below kinds := by
  cases kinds with
  | nil => rw [Expr.prefixed]
  | cons kind kinds => exact Expr.prefixed.eq_2 kind kinds budget below noPrefix

theorem prefixed_follows (operand : descent.FollowsLevel kinds first procedure Expr.operand)
    (enough : kinds.length < first + rounds) :
    descent.FollowsLevel kinds first (descent.prefixed procedure rounds) Expr.prefixed := by
  intro position depth budget first_le le total
  replace enough : kinds.length < position + rounds := by omega
  induction rounds generalizing position depth budget with
  | zero => omega
  | succ rounds ih =>
      rw [prefixed, current_bind]
      cases isPrefix : prefixOperator? (descent.kindAt position) with
      | none =>
          rw [prefixed_eq_of_next (by rwa [← ended.kindAt_eq le])]
          exact operand first_le le total
      | some op =>
          have notEnd : descent.kindAt position ≠ .endOfInput := by
            intro isEnd
            rw [isEnd] at isPrefix
            cases isPrefix
          rcases ended.drop_eq_cons le notEnd with ⟨lt, split⟩
          have starts : descent.Within ⟨position, depth⟩ ⟨position, depth⟩ :=
            within_refl ended le (by omega)
          have behind : descent.Within ⟨position, depth⟩ ⟨position + 1, depth + 1⟩ :=
            starts.move ended (Nat.le_succ position) lt (by omega) (by omega)
          apply follows_advance ended lt starts
          rw [split]
          cases budget with
          | zero =>
              rw [Expr.prefixed.eq_3 _ _ _ op isPrefix]
              obtain rfl : depth = descent.maxNesting := by omega
              exact (follows_enter_refused ended lt behind).andThen _
          | succ budget =>
              rw [Expr.prefixed.eq_4 _ _ op budget _ isPrefix]
              have totalInner : budget + (depth + 1) = descent.maxNesting := by omega
              have inner := ih (by omega) lt totalInner (by omega)
              have follows := follows_nested ended (by omega) (Nat.le_succ (position + 1)) behind
                (inner.rebase behind)
              exact follows.bind fun _ _ least_le le => .pure _ (by omega) le

/-- A round of a chain takes its operator and what its operand takes. -/
theorem foldRound_follows (operand : descent.FollowsLevel kinds first procedure level)
    {base : State} (first_le : first ≤ position + 1) (lt : position < kinds.length)
    (total : budget + (depth + 1) = descent.maxNesting)
    (within : descent.Within base ⟨position, depth + 1⟩) :
    Follows descent kinds base (position + 2) (depth + 1)
      (descent.foldRound procedure ⟨position, depth⟩)
      (level budget (expressions budget) (kinds.drop (position + 1))) := by
  apply follows_enter (by omega) within
  apply follows_advance ended lt within
  exact (operand first_le lt total).rebase (within.next ended lt)

/-- The folds of a chain that starts at `first`: each has gone one level deeper
and taken its operator, so there are no more of them than tokens behind the
first operand. -/
theorem folded_follows (ops : List BinaryOperator)
    (operand : descent.FollowsLevel kinds first procedure level)
    {folds start : Nat} (left : Expr) (first_le : first ≤ start) (gone : start + folds < position)
    (le : position ≤ kinds.length) (total : budget + (depth + folds) = descent.maxNesting)
    (enough : kinds.length < position + rounds) :
    Follows descent kinds ⟨start, depth⟩ position depth
      (descent.folded ops procedure rounds folds left ⟨position, depth + folds⟩)
      (Expr.folded ops level left budget (expressions budget) (kinds.drop position)) := by
  induction rounds generalizing position budget folds left with
  | zero => omega
  | succ rounds ih =>
      have begins : descent.Within ⟨start, depth⟩ ⟨start, depth⟩ :=
        within_refl ended (by omega) (by omega)
      have ends : descent.Within ⟨start, depth⟩ ⟨position, depth⟩ :=
        begins.move ended (by omega) le (by omega) (by omega)
      rw [folded, current_bind]
      cases isOperator : operatorIn? ops (descent.kindAt position) with
      | none =>
          rw [folded_eq_ok (by rwa [← ended.kindAt_eq le])]
          exact follows_lower folds ends (.pure left (Nat.le_refl position) le)
      | some op =>
          rcases ended.drop_eq_cons le (ne_endOfInput_of_operatorIn? isOperator) with ⟨lt, split⟩
          have deeper : descent.Within ⟨start, depth⟩ ⟨position, depth + folds + 1⟩ :=
            begins.move ended (by omega) le (by omega) (by omega)
          rw [split]
          cases budget with
          | zero =>
              rw [Expr.folded.eq_3 ops level left _ _ _ op isOperator, ← split]
              have isLimit : depth + folds = descent.maxNesting := by omega
              rw [isLimit] at deeper ⊢
              exact (follows_enter_refused ended le deeper).andThen _
          | succ budget =>
              rw [Expr.folded.eq_4 ops level left _ _ op budget _ isOperator]
              apply (foldRound_follows ended operand (by omega) lt (by omega) deeper).bind
              intro value reached least_le le
              have totalOthers : budget + (depth + (folds + 1)) = descent.maxNesting := by omega
              have others := ih (binary op left value) (by omega) le totalOthers (by omega)
              exact others.weaken (by omega)

theorem chain_follows (ops : List BinaryOperator)
    (operand : descent.FollowsLevel kinds first procedure level)
    (enough : kinds.length < first + rounds) :
    descent.FollowsLevel kinds first (descent.chain ops procedure rounds)
      (Expr.chain ops level) := by
  intro position depth budget first_le le total
  apply (operand first_le le total).bind
  intro left reached least_le le
  have enoughOthers : kinds.length < reached + rounds := by omega
  have totalOthers : budget + (depth + 0) = descent.maxNesting := total
  have others := folded_follows ended ops operand left first_le least_le le totalOthers enoughOthers
  exact others.weaken least_le

theorem compared_follows (sum : descent.FollowsLevel kinds first procedure level) :
    descent.FollowsLevel kinds first (descent.compared procedure) (Expr.compared level) := by
  intro position depth budget first_le le total
  have starts : descent.Within ⟨position, depth⟩ ⟨position, depth⟩ :=
    within_refl ended le (by omega)
  apply (sum first_le le total).bind
  intro left behind least_le le
  have here : descent.Within ⟨position, depth⟩ ⟨behind, depth⟩ :=
    starts.move ended (by omega) le (by omega) (by omega)
  rw [current_bind]
  cases isComparison : operatorIn? comparisons (descent.kindAt behind) with
  | none =>
      have stays : Follows descent kinds ⟨position, depth⟩ (position + 1) depth
          ((pure left : Procedure Expr) ⟨behind, depth⟩) (.ok (left, kinds.drop behind)) :=
        .pure left least_le le
      rw [ended.kindAt_eq le] at isComparison
      cases split : kinds.drop behind with
      | nil =>
          rw [split] at stays
          exact stays
      | cons kind rest =>
          rw [split] at stays isComparison
          have noComparison : operatorIn? comparisons kind = none := isComparison
          simp only [noComparison]
          exact stays
  | some op =>
      rcases ended.drop_eq_cons le (ne_endOfInput_of_operatorIn? isComparison) with ⟨lt, split⟩
      simp only [split, isComparison]
      apply follows_advance ended lt here
      have right := (sum (by omega) lt total).rebase (here.next ended lt)
      apply right.bind
      intro value reached least_le' le'
      rw [current_bind, ended.kindAt_eq le']
      by_cases another : (operatorIn? comparisons (next (kinds.drop reached))).isSome
      · simp only [if_pos another]
        exact follows_refuse ended le'
      · simp only [if_neg another]
        exact .pure _ (by omega) le'

end Levels

/-! ## Operands -/

/-- Read an argument, and whether a comma follows. -/
def commaRound (item : Reader Expr) : Reader (Expr × Bool) := fun kinds => do
  let (argument, kinds) ← item kinds
  match kinds with
  | .comma :: kinds => return ((argument, true), kinds)
  | _ => return ((argument, false), kinds)

theorem commaSeparated_succ (item : Reader Expr) (rounds : Nat) (kinds : List Kind) :
    commaSeparated item (rounds + 1) kinds = commaRound item kinds >>= fun read =>
      if read.1.2 then
        commaSeparated item rounds read.2 >>= fun others =>
          .ok (read.1.1 :: others.1, others.2)
      else
        .ok ([read.1.1], read.2) := by
  rw [commaSeparated, commaRound, bind_assoc]
  congr 1
  funext read
  rcases read with ⟨argument, rest⟩
  cases rest with
  | nil => rfl
  | cons kind rest => cases kind <;> rfl

section Operands

variable (ended : descent.IsEnded kinds) {first rounds : Nat} {procedure : Procedure Expr}
  (expression : descent.FollowsLevel kinds first procedure Expr.disjunction)
  {base : State}

include expression

theorem expression_follows (first_le : first ≤ position) (le : position ≤ kinds.length)
    (total : budget + depth = descent.maxNesting)
    (within : descent.Within base ⟨position, depth⟩) :
    Follows descent kinds base (position + 1) depth (procedure ⟨position, depth⟩)
      (Expr.expression budget (kinds.drop position)) := by
  rw [expression_eq]
  exact (expression first_le le total).rebase within

include ended

/-- An argument takes a token, and the comma behind it another. -/
theorem argumentRound_follows (first_le : first ≤ position) (le : position ≤ kinds.length)
    (total : budget + depth = descent.maxNesting)
    (within : descent.Within base ⟨position, depth⟩) :
    Follows descent kinds base (position + 1) depth
      (descent.argumentRound procedure ⟨position, depth⟩)
      (commaRound (Expr.expression budget) (kinds.drop position)) := by
  apply (expression_follows expression first_le le total within).bind
  intro argument reached least_le le'
  have here : descent.Within base ⟨reached, depth⟩ :=
    within.move ended (by omega) le' within.limited (by omega)
  rcases ended.has_or_lacks .comma Kind.noConfusion le' with
    ⟨found, lt, split⟩ | ⟨ne, lacks⟩
  · rw [split, ← found]
    apply follows_consume ended lt here
    rw [found]
    exact .pure (argument, true) (by omega) lt
  · rw [consume_bind_of_ne _ ne]
    dsimp only
    split
    · next rest split => exact absurd split (lacks rest)
    · exact .pure (argument, false) least_le le'

theorem arguments_follows {rounds' : Nat} (first_le : first ≤ position)
    (le : position ≤ kinds.length) (total : budget + depth = descent.maxNesting)
    (within : descent.Within base ⟨position, depth⟩) (enough : kinds.length < position + rounds)
    (enough' : kinds.length < position + rounds') :
    Follows descent kinds base (position + 1) depth
      (descent.arguments procedure rounds ⟨position, depth⟩)
      (commaSeparated (Expr.expression budget) rounds' (kinds.drop position)) := by
  induction rounds generalizing position rounds' with
  | zero => omega
  | succ rounds ih =>
      cases rounds' with
      | zero => omega
      | succ rounds' =>
          rw [arguments, commaSeparated_succ]
          apply (argumentRound_follows ended expression first_le le total within).bind
          rintro ⟨argument, goesOn⟩ reached least_le le'
          cases goesOn with
          | false => exact .pure [argument] least_le le'
          | true =>
              have here : descent.Within base ⟨reached, depth⟩ :=
                within.move ended (by omega) le' within.limited (by omega)
              have enoughOthers : kinds.length < reached + rounds' := by omega
              have others := ih (by omega) le' here (by omega) enoughOthers
              exact others.bind fun _ _ _ le => .pure _ (by omega) le

/-- The arguments of a call stand one level deeper, also if there are none. -/
theorem argumentList_follows (first_le : first ≤ position) (le : position ≤ kinds.length)
    (total : budget + depth = descent.maxNesting)
    (within : descent.Within base ⟨position, depth + 1⟩)
    (enough : kinds.length < position + rounds) :
    Follows descent kinds base position depth
      (descent.nested (descent.argumentList procedure rounds) ⟨position, depth⟩)
      (Expr.arguments budget (expressions budget) (kinds.drop position)) := by
  rcases ended.has_or_lacks .rightParen Kind.noConfusion le with
    ⟨found, lt, split⟩ | ⟨ne, lacks⟩
  · cases budget with
    | zero =>
        obtain rfl : depth = descent.maxNesting := by omega
        rw [split, Expr.arguments, if_pos rfl, ← split]
        exact follows_enter_refused ended le within
    | succ budget =>
        rw [split, Expr.arguments, if_neg (Nat.succ_ne_zero budget), ← split]
        apply follows_nested ended (by omega) (Nat.le_refl position) within
        rw [argumentList, current_bind, if_pos found]
        exact .pure [] (Nat.le_refl position) le
  · rw [Expr.arguments.eq_2 budget _ _ lacks]
    cases budget with
    | zero =>
        obtain rfl : depth = descent.maxNesting := by omega
        exact follows_enter_refused ended le within
    | succ budget =>
        apply follows_nested ended (by omega) (Nat.le_refl position) within
        rw [argumentList, current_bind, if_neg ne]
        have totalArgs : budget + (depth + 1) = descent.maxNesting := by omega
        have enoughArgs : kinds.length < position + ((kinds.drop position).length + 1) := by
          rw [List.length_drop]
          omega
        have args :=
          arguments_follows ended expression first_le le totalArgs within enough enoughArgs
        exact args.weaken (Nat.le_succ position)

omit expression in
theorem propertyOf_follows {text : String} (lt : position < kinds.length)
    (within : descent.Within base ⟨position, depth⟩) :
    Follows descent kinds base (position + 1) depth
      (descent.propertyOf text ⟨position, depth⟩)
      (match Path.read? text with
        | some path => .ok (property path, kinds.drop (position + 1))
        | none => .error ⟨.invalidPath text, kinds.drop position⟩) := by
  apply follows_advance ended lt within
  cases Path.read? text with
  | some path => exact .pure (property path) (Nat.le_refl _) lt
  | none => exact follows_refuseAt ended _ (Nat.le_of_lt lt)

/-- A call takes its name and its opening parenthesis, then its arguments, one
level deeper, and a closing parenthesis. -/
theorem callOf_follows {name : String} (first_le : first ≤ position + 1)
    (inside : position + 1 < kinds.length) (total : budget + depth = descent.maxNesting)
    (within : descent.Within base ⟨position, depth⟩)
    (enough : kinds.length < position + rounds) :
    Follows descent kinds base (position + 1) depth
      (descent.callOf procedure rounds name ⟨position, depth⟩)
      (if name.toList.contains '/' then
        .error ⟨.invalidFunctionName name, kinds.drop position⟩
      else do
        let (args, rest) ←
          Expr.arguments budget (expressions budget) (kinds.drop (position + 1 + 1))
        closing (call name args) rest) := by
  rw [callOf]
  by_cases slash : name.toList.contains '/'
  · rw [if_pos slash, if_pos slash]
    exact follows_refuse ended (by omega)
  · rw [if_neg slash, if_neg slash]
    have behindName := within.next ended (by omega)
    have behindParen := behindName.next ended inside
    apply follows_advance ended (by omega) within
    apply follows_advance ended inside behindName
    have deeper : descent.Within base ⟨position + 1 + 1, depth + 1⟩ :=
      within.move ended (by omega) inside (by omega) (by omega)
    apply (argumentList_follows ended expression (by omega) inside total deeper (by omega)).bind
    intro args reached least_le le
    exact follows_closing ended (call name args) (by omega) le
      (within.move ended (by omega) le (by omega) (by omega))

/-- An expression in parentheses stands one level deeper. -/
theorem nested_follows (first_le : first ≤ position) (le : position ≤ kinds.length)
    (total : budget + depth = descent.maxNesting)
    (within : descent.Within base ⟨position, depth + 1⟩) :
    Follows descent kinds base (position + 1) depth
      (descent.nested procedure ⟨position, depth⟩)
      (Expr.nested budget (expressions budget) (kinds.drop position)) := by
  cases budget with
  | zero =>
      obtain rfl : depth = descent.maxNesting := by omega
      exact follows_enter_refused ended le within
  | succ budget =>
      apply follows_nested ended (by omega) (Nat.le_succ position) within
      exact expression_follows expression first_le le (by omega) within

theorem operand_follows {start : Nat} (first_le : first ≤ start + 1)
    (enough : kinds.length < start + rounds) :
    descent.FollowsLevel kinds start (descent.operand procedure rounds) Expr.operand := by
  intro position depth budget start_le le total
  have starts : descent.Within ⟨position, depth⟩ ⟨position, depth⟩ :=
    within_refl ended le (by omega)
  rw [operand, current_bind]
  by_cases isEnd : descent.kindAt position = .endOfInput
  · rw [isEnd, ended.drop_eq_nil le isEnd, Expr.operand, ← ended.drop_eq_nil le isEnd]
    exact follows_refuse ended le
  · rcases ended.drop_eq_cons le isEnd with ⟨lt, split⟩
    generalize descent.kindAt position = kind at isEnd split
    rw [split]
    have behind := starts.next ended lt
    cases kind with
    | leftParen =>
        apply follows_advance ended lt starts
        have deeper : descent.Within ⟨position, depth⟩ ⟨position + 1, depth + 1⟩ :=
          starts.move ended (Nat.le_succ position) lt (by omega) (by omega)
        apply (nested_follows ended expression (by omega) lt total deeper).bind
        intro inner reached least_le le
        exact follows_closing ended inner (by omega) le
          (starts.move ended (by omega) le (by omega) (by omega))
    | path text =>
        dsimp only
        rw [peek?_bind, ended.map_kind_getElem? lt, ← ended.kindAt_eq lt]
        rcases ended.has_or_lacks .leftParen Kind.noConfusion lt with
          ⟨found, inside, splitNext⟩ | ⟨ne, lacks⟩
        · rw [if_pos (congrArg some found), splitNext, Expr.operand, ← splitNext, ← split]
          exact callOf_follows ended expression (by omega) inside total starts (by omega)
        · rw [if_neg (fun same => ne (Option.some.inj same)),
            Expr.operand.eq_3 budget _ text _ fun rest => lacks rest, ← split]
          exact propertyOf_follows ended lt starts
    | literal value =>
        exact follows_advance ended lt starts (.pure (literal value) (Nat.le_refl _) lt)
    | endOfInput => exact absurd rfl isEnd
    | _ =>
        change Follows descent kinds _ _ _ (descent.refuse _ _) (.error ⟨.notAnOperand _, _ :: _⟩)
        rw [← split]
        exact follows_refuse ended le

end Operands

/-! ## Ranks -/

/-- The readers of a rank. -/
def levelOf : Rank → Level
  | .operand => Expr.operand
  | .prefixed => Expr.prefixed
  | .product => Expr.product
  | .sum => Expr.sum
  | .comparison => Expr.comparison
  | .conjunction => Expr.conjunction
  | .disjunction => Expr.disjunction

theorem levelOf_sound (rank : Rank) : Level.Sound rank (levelOf rank) :=
  match rank with
  | .operand => operand_sound
  | .prefixed => prefixed_sound
  | .product => product_sound
  | .sum => sum_sound
  | .comparison => comparison_sound
  | .conjunction => conjunction_sound
  | .disjunction => disjunction_sound

theorem ranked_follows (ended : descent.IsEnded kinds) {first rounds : Nat}
    {expression : Procedure Expr}
    (nested : descent.FollowsLevel kinds (first + 1) expression Expr.disjunction)
    (enough : kinds.length < first + rounds) (rank : Rank) :
    descent.FollowsLevel kinds first (descent.ranked expression rounds rank) (levelOf rank) := by
  have operand := operand_follows ended nested (Nat.le_refl _) enough
  have factor := prefixed_follows ended operand enough
  have product := chain_follows ended [.mul, .div, .mod] factor enough
  have sum := chain_follows ended [.add, .sub] product enough
  have comparison := compared_follows ended sum
  have conjunction := chain_follows ended [.and] comparison enough
  have disjunction := chain_follows ended [.or] conjunction enough
  cases rank with
  | operand => exact operand
  | prefixed => exact factor
  | product => exact product
  | sum => exact sum
  | comparison => exact comparison
  | conjunction => exact conjunction
  | disjunction => exact disjunction

/-- With more rounds than tokens before the end, the procedure of a rank follows
its readers: a nested expression stands behind a token at least, and one round
less is enough for it. -/
theorem procedure_follows (ended : descent.IsEnded kinds) {first rounds : Nat}
    (enough : kinds.length < first + rounds) (rank : Rank) :
    descent.FollowsLevel kinds first (descent.procedure rounds rank) (levelOf rank) := by
  induction rounds generalizing first rank with
  | zero =>
      intro position depth budget first_le le total
      omega
  | succ rounds ih => exact ranked_follows ended (ih (by omega) .disjunction) enough rank

end OData.Expr.Descent
