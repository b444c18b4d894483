import OData.Expr.Descent

/-!
# Runs beside readers

Where a reader returns the kinds that are left, a run has its cursor in front
of them.  `Follows` says this of a run and what a reader returns, together with
what a run does on its way, which the readers cannot tell: every state that it
passes through lies within the tokens and the limit, and each level that it
goes deeper is paid with a token.

There is one law for runs after one another and one for each step that a run
takes and a reader does not.
-/

namespace OData.Expr.Descent

open Token (Kind)
open SyntaxError (Cause)

/-- Whether the tokens of a descent have these kinds and then the only end of
the input. -/
structure IsEnded (descent : Descent) (kinds : List Kind) : Prop where
  split : descent.tokens.map Token.kind = kinds ++ [.endOfInput]
  only : Kind.endOfInput ∉ kinds

variable {α β : Type} {descent : Descent} {kinds : List Kind} {position depth : Nat}

/-! ## The token at the cursor -/

section Tokens

variable (ended : descent.IsEnded kinds)

include ended

theorem IsEnded.length_tokens : descent.tokens.length = kinds.length + 1 := by
  simpa using congrArg List.length ended.split

theorem IsEnded.lt_last (lt : position < kinds.length) :
    position < descent.tokens.length - 1 := by
  rw [ended.length_tokens]
  exact lt

theorem IsEnded.kindsOf_tokens : kindsOf descent.tokens = kinds := by
  have notEnd : ∀ kind ∈ kinds, (decide (kind ≠ .endOfInput)) = true := by
    intro kind member
    exact decide_eq_true fun isEnd => ended.only (isEnd ▸ member)
  rw [kindsOf, ended.split, List.takeWhile_append_of_pos notEnd]
  simp

theorem IsEnded.map_kind_getElem? (le : position ≤ kinds.length) :
    descent.tokens[position]?.map Token.kind = some (next (kinds.drop position)) := by
  rw [← List.getElem?_map, ended.split, next, List.head?_drop]
  rcases Nat.lt_or_eq_of_le le with lt | rfl
  · rw [List.getElem?_append_left lt, List.getElem?_eq_getElem lt]
    rfl
  · simp

theorem IsEnded.tokenAt?_eq (le : position ≤ kinds.length) :
    descent.tokenAt? position = descent.tokens[position]? := by
  rw [tokenAt?, ended.length_tokens, Nat.add_sub_cancel, Nat.min_eq_left le]

theorem IsEnded.kindAt_eq (le : position ≤ kinds.length) :
    descent.kindAt position = next (kinds.drop position) := by
  rw [kindAt, ended.tokenAt?_eq le, ended.map_kind_getElem? le, Option.getD_some]

/-- A kind at the cursor that does not end the input is the first of those from
there on. -/
theorem IsEnded.drop_eq_cons (le : position ≤ kinds.length)
    (notEnd : descent.kindAt position ≠ .endOfInput) :
    position < kinds.length ∧
      kinds.drop position = descent.kindAt position :: kinds.drop (position + 1) := by
  rw [ended.kindAt_eq le] at notEnd ⊢
  rcases Nat.lt_or_eq_of_le le with lt | rfl
  · have split := List.drop_eq_getElem_cons lt
    exact ⟨lt, by rw [split]; rfl⟩
  · exact absurd (by rw [List.drop_length]; rfl) notEnd

theorem IsEnded.drop_eq_nil (le : position ≤ kinds.length)
    (isEnd : descent.kindAt position = .endOfInput) : kinds.drop position = [] := by
  rw [ended.kindAt_eq le] at isEnd
  cases split : kinds.drop position with
  | nil => rfl
  | cons kind rest =>
      rw [split] at isEnd
      cases isEnd
      exact absurd (List.mem_of_mem_drop (split ▸ List.mem_cons_self)) ended.only

/-- A kind stands at the cursor, or the kinds from there on do not start with
it. -/
theorem IsEnded.has_or_lacks (kind : Kind) (notEnd : kind ≠ .endOfInput)
    (le : position ≤ kinds.length) :
    (descent.kindAt position = kind ∧ position < kinds.length ∧
        kinds.drop position = kind :: kinds.drop (position + 1)) ∨
      (descent.kindAt position ≠ kind ∧ ∀ rest, kinds.drop position ≠ kind :: rest) := by
  by_cases found : descent.kindAt position = kind
  · subst found
    exact .inl ⟨rfl, ended.drop_eq_cons le notEnd⟩
  · refine .inr ⟨found, fun rest split => found ?_⟩
    rw [ended.kindAt_eq le, split]
    rfl

end Tokens

/-! ## States on the way -/

/-- Whether a state can come behind another: the cursor has not moved back or
over the end, the depth is at most one above the limit, and every level gained
is a token taken. -/
structure Within (descent : Descent) (base state : State) : Prop where
  forward : base.position ≤ state.position
  inside : state.position < descent.tokens.length
  limited : state.depth ≤ descent.maxNesting + 1
  paid : state.depth + base.position ≤ base.depth + state.position

theorem Within.trans {base middle state : State} (first : descent.Within base middle)
    (second : descent.Within middle state) : descent.Within base state where
  forward := Nat.le_trans first.forward second.forward
  inside := second.inside
  limited := second.limited
  paid := by
    have := first.paid
    have := second.paid
    omega

section Moves

variable (ended : descent.IsEnded kinds) {base : State} {position' depth' : Nat}

include ended

theorem within_refl (le : position ≤ kinds.length) (limited : depth ≤ descent.maxNesting + 1) :
    descent.Within ⟨position, depth⟩ ⟨position, depth⟩ where
  forward := Nat.le_refl position
  inside := by
    rw [ended.length_tokens]
    exact Nat.lt_succ_of_le le
  limited := limited
  paid := Nat.le_refl _

/-- From one state to another that is further on or less deep. -/
theorem Within.move (within : descent.Within base ⟨position, depth⟩)
    (forward : position ≤ position') (le : position' ≤ kinds.length)
    (limited : depth' ≤ descent.maxNesting + 1) (paid : depth' + position ≤ depth + position') :
    descent.Within base ⟨position', depth'⟩ := by
  refine within.trans ⟨forward, ?_, limited, paid⟩
  rw [ended.length_tokens]
  exact Nat.lt_succ_of_le le

theorem Within.next (within : descent.Within base ⟨position, depth⟩)
    (lt : position < kinds.length) : descent.Within base ⟨position + 1, depth⟩ :=
  within.move ended (Nat.le_succ position) lt within.limited (by omega)

end Moves

/-! ## Runs beside readers -/

/-- The error of a reader's failure, located at the offending token. -/
def located (descent : Descent) (failure : Failure) : SyntaxError :=
  let index := (kindsOf descent.tokens).length - failure.rest.length
  ⟨.filter, descent.tokens[index]?.map Token.start, failure.cause⟩

/-- A run and what a reader returns, with every state on the way behind `base`.
A run that ends with a value has its cursor at `least` or behind it, in front of
the kinds that the reader leaves, and is `depth` levels deep. -/
inductive Follows (descent : Descent) (kinds : List Kind) (base : State) (least depth : Nat) :
    Run α → Except Failure (α × List Kind) → Prop
  | done {visited : List State} {value : α} {position : Nat}
      (within : ∀ state ∈ visited, descent.Within base state)
      (least_le : least ≤ position) (le : position ≤ kinds.length) :
      Follows descent kinds base least depth ⟨visited, .ok (value, ⟨position, depth⟩)⟩
        (.ok (value, kinds.drop position))
  | refused {visited : List State} {failure : Failure}
      (within : ∀ state ∈ visited, descent.Within base state) :
      Follows descent kinds base least depth
        ⟨visited, .error (.refused (descent.located failure))⟩ (.error failure)

namespace Follows

variable {base start : State} {least least' depth' : Nat} {run : Run α}
  {result : Except Failure (α × List Kind)}

theorem within (follows : Follows descent kinds base least depth run result) :
    ∀ state ∈ run.visited, descent.Within base state := by
  cases follows with
  | done behind => exact behind
  | refused behind => exact behind

/-- What is behind a state is behind the states before it. -/
theorem rebase (follows : Follows descent kinds start least depth run result)
    (within : descent.Within base start) :
    Follows descent kinds base least depth run result := by
  cases follows with
  | done behind least_le le =>
      exact .done (fun state member => within.trans (behind state member)) least_le le
  | refused behind => exact .refused fun state member => within.trans (behind state member)

theorem weaken (follows : Follows descent kinds base least depth run result)
    (le : least' ≤ least) : Follows descent kinds base least' depth run result := by
  cases follows with
  | done behind least_le inside => exact .done behind (Nat.le_trans le least_le) inside
  | refused behind => exact .refused behind

/-- A run can have passed through a state before. -/
theorem visit (follows : Follows descent kinds base least depth run result) {state : State}
    (within : descent.Within base state) :
    Follows descent kinds base least depth ⟨state :: run.visited, run.outcome⟩ result := by
  cases follows with
  | done behind least_le inside =>
      exact .done (List.forall_mem_cons.mpr ⟨within, behind⟩) least_le inside
  | refused behind => exact .refused (List.forall_mem_cons.mpr ⟨within, behind⟩)

theorem pure (value : α) (least_le : least ≤ position) (le : position ≤ kinds.length) :
    Follows descent kinds base least depth ((Pure.pure value : Procedure α) ⟨position, depth⟩)
      (.ok (value, kinds.drop position)) :=
  .done (by simp) least_le le

/-- A run ends where a reader that returns a value has left off. -/
theorem exists_of_ok {value : α} {rest : List Kind}
    (follows : Follows descent kinds base least depth run (.ok (value, rest))) :
    ∃ position, least ≤ position ∧ position ≤ kinds.length ∧ kinds.drop position = rest ∧
      run.outcome = .ok (value, ⟨position, depth⟩) := by
  generalize isRead : Except.ok (value, rest) = result at follows
  cases follows with
  | refused => cases isRead
  | done _ least_le le =>
      cases isRead
      exact ⟨_, least_le, le, rfl, rfl⟩

/-- What a reader returns tells how the runs that follow it end. -/
theorem outcome_eq {base' : State} {run' : Run α}
    (follows : Follows descent kinds base least depth run result)
    (follows' : Follows descent kinds base' least' depth run' result) :
    run.outcome = run'.outcome := by
  cases follows with
  | refused =>
      cases follows'
      rfl
  | @done _ _ position _ _ le =>
      rcases follows'.exists_of_ok with ⟨position', _, le', split, isOk⟩
      have lengths := congrArg List.length split
      rw [List.length_drop, List.length_drop] at lengths
      have same : position = position' := by omega
      rw [isOk, same]

/-- A run that is refused does not go on. -/
theorem andThen {failure : Failure} (more : α → Procedure β)
    (follows : Follows descent kinds base least depth run (.error failure)) :
    Follows descent kinds base least depth (run.andThen more) (.error failure) := by
  cases follows with
  | refused behind => exact .refused behind

/-- What follows one after the other follows as a whole. -/
theorem bind {more : α → Procedure β} {go : α × List Kind → Except Failure (β × List Kind)}
    (follows : Follows descent kinds base least depth run result)
    (continues : ∀ ⦃value position⦄, least ≤ position → position ≤ kinds.length →
      Follows descent kinds base least' depth' (more value ⟨position, depth⟩)
        (go (value, kinds.drop position))) :
    Follows descent kinds base least' depth' (run.andThen more) (result >>= go) := by
  cases follows with
  | refused behind => exact .refused behind
  | @done visited value position behind least_le le =>
      have rest := @continues value position least_le le
      change Follows descent kinds base least' depth'
        ⟨visited ++ (more value ⟨position, depth⟩).visited, (more value ⟨position, depth⟩).outcome⟩
        (go (value, kinds.drop position))
      generalize more value ⟨position, depth⟩ = second at rest ⊢
      generalize go (value, kinds.drop position) = result at rest ⊢
      cases rest with
      | done behindSecond least_le' le' =>
          exact .done (List.forall_mem_append.mpr ⟨behind, behindSecond⟩) least_le' le'
      | refused behindSecond =>
          exact .refused (List.forall_mem_append.mpr ⟨behind, behindSecond⟩)

end Follows

/-! ## Steps that readers do not take -/

theorem current_bind (more : Kind → Procedure α) (state : State) :
    (descent.current >>= more) state = more (descent.kindAt state.position) state :=
  rfl

theorem peek?_bind (more : Option Kind → Procedure α) (state : State) :
    (descent.peek? >>= more) state =
      more (descent.tokens[state.position + 1]?.map Token.kind) state :=
  rfl

section Steps

variable {base : State} {least level : Nat} {result : Except Failure (α × List Kind)}

/-- A step to a state, and what follows from there on. -/
theorem follows_goTo {step : Procedure Unit} {more : Unit → Procedure α} {before state : State}
    (goes : step before = goTo state before) (within : descent.Within base state)
    (follows : Follows descent kinds base least depth (more () state) result) :
    Follows descent kinds base least depth ((step >>= more) before) result := by
  change Follows descent kinds base least depth ((step before).andThen more) result
  rw [goes]
  exact follows.visit within

theorem follows_lower {more : Unit → Procedure α} (levels : Nat)
    (within : descent.Within base ⟨position, level⟩)
    (follows : Follows descent kinds base least depth (more () ⟨position, level⟩) result) :
    Follows descent kinds base least depth ((lower levels >>= more) ⟨position, level + levels⟩)
      result := by
  apply follows_goTo _ within follows
  rw [lower, if_pos (Nat.le_add_left levels level), Nat.add_sub_cancel]

theorem follows_enter {more : Unit → Procedure α} (shallow : level < descent.maxNesting)
    (within : descent.Within base ⟨position, level + 1⟩)
    (follows : Follows descent kinds base least depth (more () ⟨position, level + 1⟩) result) :
    Follows descent kinds base least depth ((descent.enter >>= more) ⟨position, level⟩) result :=
  follows_goTo (if_neg (Nat.not_lt.mpr shallow)) within follows

variable (ended : descent.IsEnded kinds)

include ended

theorem follows_advance {more : Unit → Procedure α} (lt : position < kinds.length)
    (within : descent.Within base ⟨position, level⟩)
    (follows : Follows descent kinds base least depth (more () ⟨position + 1, level⟩) result) :
    Follows descent kinds base least depth ((descent.advance >>= more) ⟨position, level⟩)
      result :=
  follows_goTo (if_pos (ended.lt_last lt)) (within.next ended lt) follows

/-- A refusal is located at the token with the offset that is given. -/
theorem follows_refuseAt {cause : Cause} (state : State) (le : position ≤ kinds.length) :
    Follows descent kinds base least depth
      (refuseAt ((descent.tokenAt? position).map Token.start) cause state : Run α)
      (.error ⟨cause, kinds.drop position⟩) := by
  have place : kinds.length - (kinds.drop position).length = position := by
    rw [List.length_drop]
    omega
  have error : (⟨.filter, (descent.tokenAt? position).map Token.start, cause⟩ : SyntaxError) =
      descent.located ⟨cause, kinds.drop position⟩ := by
    rw [located, ended.kindsOf_tokens]
    dsimp only
    rw [place, ended.tokenAt?_eq le]
  rw [refuseAt, stop, error]
  exact .refused (by simp)

theorem follows_refuse {cause : Cause} (le : position ≤ kinds.length) :
    Follows descent kinds base least depth (descent.refuse cause ⟨position, level⟩ : Run α)
      (.error ⟨cause, kinds.drop position⟩) :=
  follows_refuseAt ended ⟨position, level⟩ le

/-- No level is entered beyond the limit. -/
theorem follows_enter_refused {more : Unit → Procedure α} (le : position ≤ kinds.length)
    (within : descent.Within base ⟨position, descent.maxNesting + 1⟩) :
    Follows descent kinds base least depth
      ((descent.enter >>= more) ⟨position, descent.maxNesting⟩)
      (.error ⟨.nestedTooDeeply, kinds.drop position⟩) := by
  have refused : Follows descent kinds base least depth
      (descent.enter ⟨position, descent.maxNesting⟩)
      (.error ⟨.nestedTooDeeply, kinds.drop position⟩) := by
    rw [enter, if_pos (Nat.lt_succ_self descent.maxNesting)]
    exact follows_goTo rfl within (follows_refuse ended le)
  exact refused.andThen more

/-- A token of the kind that is asked for is taken. -/
theorem follows_consume {more : Bool → Procedure α} (lt : position < kinds.length)
    (within : descent.Within base ⟨position, level⟩)
    (follows : Follows descent kinds base least depth (more true ⟨position + 1, level⟩) result) :
    Follows descent kinds base least depth
      ((descent.consume (descent.kindAt position) >>= more) ⟨position, level⟩) result := by
  have consumes : descent.consume (descent.kindAt position) ⟨position, level⟩ =
      ⟨[⟨position + 1, level⟩], .ok (true, ⟨position + 1, level⟩)⟩ := by
    rw [consume, current_bind, if_pos rfl]
    change (descent.advance ⟨position, level⟩).andThen _ = _
    rw [advance, if_pos (ended.lt_last lt)]
    rfl
  change Follows descent kinds base least depth
    ((descent.consume (descent.kindAt position) ⟨position, level⟩).andThen more) result
  rw [consumes]
  exact follows.visit (within.next ended lt)

omit ended in
/-- A token of another kind is left. -/
theorem consume_bind_of_ne {kind : Kind} (more : Bool → Procedure α)
    (ne : descent.kindAt position ≠ kind) :
    (descent.consume kind >>= more) ⟨position, level⟩ = more false ⟨position, level⟩ := by
  change (descent.consume kind ⟨position, level⟩).andThen more = _
  rw [consume, current_bind, if_neg ne]
  rfl

/-- A value is returned behind a closing parenthesis. -/
theorem follows_closing (value : α) (least_le : least ≤ position) (le : position ≤ kinds.length)
    (within : descent.Within base ⟨position, depth⟩) :
    Follows descent kinds base least depth
      ((descent.expect .rightParen >>= fun _ => pure value) ⟨position, depth⟩)
      (closing value (kinds.drop position)) := by
  rcases ended.has_or_lacks .rightParen Kind.noConfusion le with
    ⟨found, lt, split⟩ | ⟨ne, lacks⟩
  · have taken : Follows descent kinds base least depth
        (descent.expect .rightParen ⟨position, depth⟩) (.ok ((), kinds.drop (position + 1))) := by
      rw [expect, ← found]
      exact follows_consume ended lt within (.pure () (by omega) lt)
    rw [split]
    change Follows descent kinds base least depth _
      ((.ok ((), kinds.drop (position + 1)) : Except Failure (Unit × List Kind)) >>=
        fun left => .ok (value, left.2))
    exact taken.bind fun _ _ least_le le => .pure value least_le le
  · have refused : Follows descent kinds base least depth
        (descent.expect .rightParen ⟨position, depth⟩)
        (.error ⟨.expected .rightParen (descent.kindAt position), kinds.drop position⟩) := by
      rw [expect, consume_bind_of_ne _ ne]
      exact follows_refuse ended le
    rw [closing.eq_2 value _ lacks, ← ended.kindAt_eq le]
    exact refused.andThen _

/-- What is read one level deeper leaves the level behind it. -/
theorem follows_nested {inner : Procedure α} (shallow : depth < descent.maxNesting)
    (forward : position ≤ least) (within : descent.Within base ⟨position, depth + 1⟩)
    (follows : Follows descent kinds base least (depth + 1) (inner ⟨position, depth + 1⟩) result) :
    Follows descent kinds base least depth (descent.nested inner ⟨position, depth⟩) result := by
  apply follows_enter shallow within
  rw [← bind_pure result]
  apply follows.bind
  intro value reached least_le le
  have leaves : descent.Within base ⟨reached, depth⟩ :=
    within.move ended (Nat.le_trans forward least_le) le (by omega) (by omega)
  exact follows_lower 1 leaves (.pure value least_le le)

end Steps

end OData.Expr.Descent
