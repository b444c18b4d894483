import OData.Proofs.Expr.Settling
import OData.Proofs.Expr.Threshold
import OData.Proofs.Token.Places

/-!
# The first offending token

A filter that is refused is refused at its first token that no filter can have
in that place.  The tokens before it can be followed by others to a filter that
is accepted under the same limit, and no list that is accepted starts with them
and the token itself, under any limit.  The end of the input is such a token if
the tokens before it are no filter yet.

One error is reported a token early: a name that no function has.  Where the
parenthesis behind it cannot stand, the name still can, as a property.
-/

namespace OData.Expr

open Token (Kind)
open SyntaxError (Cause)

/-! ## Nesting of what is completed -/

/-- Completions take no nesting. -/
theorem IsCompletion.countP_eq_zero {completion : List Kind}
    (isCompletion : IsCompletion completion) : completion.countP takesNesting = 0 := by
  rw [List.countP_eq_zero]
  intro kind member
  rcases isCompletion kind member with rfl | rfl <;> simp [takesNesting]

/-! ## Whole filters -/

/-- The lists of kinds that are expressions. -/
def wholeFilter : Category where
  Contains := Rank.disjunction.category.Contains
  Ends rest := rest = []

theorem wholeFilter_within_disjunction (kinds : List Kind) :
    Category.Within wholeFilter Rank.disjunction.category [] kinds where
  completes _ contains := Category.viable_of_contains contains
  descends _ _ opens := by
    rcases opens with ⟨member, _, contains, rfl, split⟩
    exact ⟨member, [], contains, stops_nil _, split⟩

variable {kinds front : List Kind} {maxNesting : Nat}

/-- A filter that has ended does not go on. -/
theorem stuck_leftover {found : Kind} {rest : List Kind}
    (contains : Rank.disjunction.category.Contains front)
    (settled : Rank.disjunction.category.Settled front (found :: rest)) :
    (Failure.mk (.leftover found) (found :: rest)).offending = found :: rest ∧
      wholeFilter.Stuck front ⟨.leftover found, found :: rest⟩ := by
  have viable : wholeFilter.Viable front := Category.viable_of_contains contains
  apply Category.stuck_of_unnamed (fun _ => Cause.noConfusion) viable
  rintro _ _ ⟨⟩ more ⟨member, _, containsOther, rfl, same⟩
  cases settled (by rfl) containsOther (stops_nil _) same

/-- A list of kinds is refused where it stops to be the start of a filter. -/
theorem exists_stuck_of_ofKinds {failure : Failure} (havePaths : HavePaths kinds)
    (refused : ofKinds maxNesting kinds = .error failure)
    (shallow : failure.cause ≠ .nestedTooDeeply) :
    ∃ front, front ++ failure.offending = kinds ∧ wholeFilter.Stuck front failure := by
  have settles := expression_settles maxNesting havePaths
  rw [ofKinds, Except.bind_eq_error_iff] at refused
  rcases refused with failed | ⟨⟨expr, rest⟩, read, leftover⟩
  · rw [failed] at settles
    cases settles with
    | nestedTooDeeply => exact absurd rfl shallow
    | stuck split stuck =>
        subst split
        exact ⟨_, rfl, stuck.within (wholeFilter_within_disjunction _)⟩
  · rw [read] at settles
    cases settles with
    | read split contains settled =>
        dsimp only at leftover
        split at leftover
        · cases leftover
        · next found rest =>
            cases leftover
            rcases stuck_leftover contains settled with ⟨offending, stuck⟩
            exact ⟨_, by rw [offending, split], stuck⟩

/-- What can be completed is accepted when it is, with no more nesting than it
has kinds. -/
theorem Category.Viable.exists_ofKinds (viable : wholeFilter.Viable front)
    (enough : front.length ≤ maxNesting) :
    ∃ completion expr, IsCompletion completion ∧
      ofKinds maxNesting (front ++ completion) = .ok expr := by
  rcases viable with ⟨completion, isCompletion, phrase, derives, kindsEq⟩
  have bounded := derives.nesting_le_countP
  rw [kindsEq, List.countP_append, isCompletion.countP_eq_zero, Nat.add_zero] at bounded
  have shorter : front.countP takesNesting ≤ front.length := List.countP_le_length
  refine ⟨completion, phrase.expr, isCompletion, ofKinds_eq_ok_iff.mpr ⟨phrase.nesting, ?_, ?_⟩⟩
  · omega
  · rwa [← kindsEq]

/-! ## Tokens -/

/-- Whether tokens of some kinds can be followed by others to a list that is
accepted under a limit.  The texts of its paths are paths. -/
def CanGoOn (maxNesting : Nat) (kinds : List Kind) : Prop :=
  ∃ more tokens expr, HavePaths (kinds ++ more) ∧
    tokens.map Token.kind = kinds ++ more ++ [.endOfInput] ∧ ofTokens maxNesting tokens = .ok expr

/-- Whether no accepted list starts with tokens of some kinds, under any
limit. -/
def IsDeadEnd (kinds : List Kind) : Prop :=
  ∀ maxNesting tokens expr, ofTokens maxNesting tokens = .ok expr →
    ¬ kinds <+: tokens.map Token.kind

/-- Whether a token is the first that cannot stand where it does, or a name
with the first such token behind it. -/
def IsOffending (maxNesting : Nat) (kinds : List Kind) (cause : Cause) (index : Nat) : Prop :=
  match cause with
  | .invalidFunctionName name =>
      kinds[index]? = some (.path name) ∧ kinds[index + 1]? = some .leftParen ∧
        CanGoOn maxNesting (kinds.take (index + 1)) ∧ IsDeadEnd (kinds.take (index + 2))
  | _ => CanGoOn maxNesting (kinds.take index) ∧ IsDeadEnd (kinds.take (index + 1))

/-- Kinds that do not end the input stand before the end of a list that they
start. -/
theorem kindsOf_eq_append {tokens : List Token} {more : List Kind}
    (notEnd : ∀ kind ∈ kinds, kind ≠ .endOfInput) (split : tokens.map Token.kind = kinds ++ more) :
    kindsOf tokens = kinds ++ more.takeWhile (· ≠ .endOfInput) := by
  rw [kindsOf, split, List.takeWhile_append_of_pos (by simpa using notEnd)]

theorem exists_tokens (kinds : List Kind) :
    ∃ tokens : List Token, tokens.map Token.kind = kinds := by
  refine ⟨kinds.map fun kind => ⟨kind, "", 0, 0⟩, ?_⟩
  rw [List.map_map]
  exact List.map_id kinds

theorem Category.Viable.canGoOn (viable : wholeFilter.Viable front)
    (enough : front.length ≤ maxNesting) (havePaths : HavePaths front)
    (notEnd : ∀ kind ∈ front, kind ≠ .endOfInput) : CanGoOn maxNesting front := by
  rcases viable.exists_ofKinds enough with ⟨completion, expr, isCompletion, accepted⟩
  rcases exists_tokens (front ++ completion ++ [.endOfInput]) with ⟨tokens, split⟩
  have completionNotEnd : ∀ kind ∈ completion, kind ≠ .endOfInput := by
    intro kind member
    rcases isCompletion kind member with rfl | rfl <;> exact Kind.noConfusion
  have kindsEq := kindsOf_eq_append (List.forall_mem_append.mpr ⟨notEnd, completionNotEnd⟩) split
  have ends : [Kind.endOfInput].takeWhile (· ≠ .endOfInput) = [] := rfl
  rw [ends, List.append_nil] at kindsEq
  refine ⟨completion, tokens, expr, ?_, split, ofTokens_eq_ok_iff.mpr (kindsEq ▸ accepted)⟩
  intro text member
  rcases List.mem_append.mp member with inFront | inCompletion
  · exact havePaths text inFront
  · rcases isCompletion _ inCompletion with impossible | impossible <;> cases impossible

theorem contains_kindsOf {tokens : List Token} {expr : Expr}
    (accepted : ofTokens maxNesting tokens = .ok expr) : wholeFilter.Contains (kindsOf tokens) := by
  rcases ofKinds_eq_ok_iff.mp (ofTokens_eq_ok_iff.mp accepted) with ⟨nesting, _, derives⟩
  exact ⟨_, derives, rfl⟩

/-- No accepted list starts with what no filter starts with. -/
theorem isDeadEnd_of_not_opens (notEnd : ∀ kind ∈ front, kind ≠ .endOfInput)
    (dead : ∀ more, ¬ wholeFilter.Opens (front ++ more)) : IsDeadEnd front := by
  rintro maxNesting tokens expr accepted ⟨more, split⟩
  have contains := contains_kindsOf accepted
  rw [kindsOf_eq_append notEnd split.symm] at contains
  exact dead _ ⟨_, [], contains, rfl, List.append_nil _⟩

/-- No accepted list starts with what is no filter and the end of the input. -/
theorem isDeadEnd_of_not_contains (notEnd : ∀ kind ∈ front, kind ≠ .endOfInput)
    (refused : ¬ wholeFilter.Contains front) : IsDeadEnd (front ++ [.endOfInput]) := by
  rintro maxNesting tokens expr accepted ⟨more, split⟩
  rw [List.append_assoc] at split
  have contains := contains_kindsOf accepted
  rw [kindsOf_eq_append notEnd split.symm] at contains
  simp at contains
  exact refused contains

theorem isDeadEnd_of_next {kind : Kind} {more : List Kind}
    (notEnd : ∀ other ∈ front ++ kind :: more, other ≠ .endOfInput)
    (dead : ∀ more', ¬ wholeFilter.Opens (front ++ kind :: more')) :
    IsDeadEnd (front ++ [kind]) := by
  rw [List.append_cons] at notEnd
  apply isDeadEnd_of_not_opens fun other member => notEnd other (List.mem_append_left more member)
  intro more'
  rw [List.append_assoc]
  exact dead more'

section Place

variable {rest : List Kind} (notEnd : ∀ kind ∈ front ++ rest, kind ≠ .endOfInput)
  (havePaths : HavePaths (front ++ rest)) (enough : (front ++ rest).length ≤ maxNesting)

include notEnd havePaths enough

/-- Kinds in front of others can go on if a filter can start with them. -/
theorem canGoOn_front (viable : wholeFilter.Viable front) : CanGoOn maxNesting front := by
  have shorter : front.length ≤ maxNesting := by
    rw [List.length_append] at enough
    omega
  exact viable.canGoOn shorter
    (fun text member => havePaths text (List.mem_append_left rest member))
    fun kind member => notEnd kind (List.mem_append_left rest member)

theorem isOffending_of_unnamed {cause : Cause}
    (unnamed : ∀ name, cause ≠ .invalidFunctionName name)
    (refused : ¬ wholeFilter.Contains (front ++ rest)) (viable : wholeFilter.Viable front)
    (dead : ∀ ⦃kind more⦄, rest = kind :: more →
      ∀ more', ¬ wholeFilter.Opens (front ++ kind :: more')) :
    IsOffending maxNesting (front ++ rest ++ [.endOfInput]) cause front.length := by
  have goesOn := canGoOn_front notEnd havePaths enough viable
  have deadEnd : IsDeadEnd ((front ++ rest ++ [Kind.endOfInput]).take (front.length + 1)) := by
    rw [List.append_assoc, List.take_length_add_append]
    cases rest with
    | nil =>
        rw [List.append_nil] at refused notEnd
        exact isDeadEnd_of_not_contains notEnd refused
    | cons kind more => exact isDeadEnd_of_next notEnd (dead rfl)
  unfold IsOffending
  split
  · next name => exact absurd rfl (unnamed name)
  · refine ⟨?_, deadEnd⟩
    rw [List.append_assoc, List.take_left]
    exact goesOn

theorem isOffending_of_named {name : String} {before after : List Kind}
    (frontEq : front = before ++ [.path name]) (restEq : rest = .leftParen :: after)
    (viable : wholeFilter.Viable front)
    (dead : ∀ more, ¬ wholeFilter.Opens (front ++ .leftParen :: more)) :
    IsOffending maxNesting (front ++ rest ++ [.endOfInput]) (.invalidFunctionName name)
      before.length := by
  have goesOn := canGoOn_front notEnd havePaths enough viable
  subst frontEq restEq
  have deadEnd := isDeadEnd_of_next notEnd dead
  have split : before ++ [.path name] ++ .leftParen :: after ++ [Kind.endOfInput] =
      before ++ .path name :: .leftParen :: (after ++ [.endOfInput]) := by
    simp
  rw [split]
  refine ⟨by simp, by simp, ?_, ?_⟩
  · rw [List.take_length_add_append]
    exact goesOn
  · rw [List.take_length_add_append]
    rwa [List.append_assoc] at deadEnd

end Place

/-- What a list of kinds is refused for, counted from its end. -/
theorem isOffending_of_stuck {failure : Failure} (stuck : wholeFilter.Stuck front failure)
    (notEnd : ∀ kind ∈ front ++ failure.offending, kind ≠ .endOfInput)
    (havePaths : HavePaths (front ++ failure.offending))
    (enough : (front ++ failure.offending).length ≤ maxNesting)
    (refused : ¬ wholeFilter.Contains (front ++ failure.offending)) :
    IsOffending maxNesting (front ++ failure.offending ++ [.endOfInput]) failure.cause
      ((front ++ failure.offending).length - failure.rest.length) := by
  by_cases named : ∃ name, failure.cause = .invalidFunctionName name
  · rcases named with ⟨name, isNamed⟩
    rcases stuck.named isNamed with ⟨⟨before, frontEq⟩, after, restEq⟩
    have offending : failure.offending = .leftParen :: after := by
      rw [Failure.offending, isNamed, restEq]
      rfl
    have index : (front ++ failure.offending).length - failure.rest.length = before.length := by
      rw [offending, frontEq, restEq]
      simp only [List.length_append, List.length_cons, List.length_nil]
      omega
    rw [isNamed, index]
    exact isOffending_of_named notEnd havePaths enough frontEq offending stuck.viable
      (stuck.dead offending)
  · have unnamed : ∀ name, failure.cause ≠ .invalidFunctionName name :=
      fun name isNamed => named ⟨name, isNamed⟩
    have index : (front ++ failure.offending).length - failure.rest.length = front.length := by
      rw [failure.offending_of_unnamed unnamed, List.length_append, Nat.add_sub_cancel]
    rw [index]
    exact isOffending_of_unnamed notEnd havePaths enough unnamed refused stuck.viable stuck.dead

/-- A filter that is refused is refused at the first of its tokens that cannot
stand where it does, or at the name before that one where the name is none of a
function. -/
theorem isOffending_of_refused {source : String} {tokens : List Token}
    (tokenized : Token.tokenize source = .ok tokens) (enough : tokens.length ≤ maxNesting + 1)
    {error : SyntaxError} (refused : ofTokens maxNesting tokens = .error error) :
    error.part = .filter ∧ ∃ index, ∃ lt : index < tokens.length,
      error.offset = some tokens[index].start ∧
      (∀ other (ltOther : other < tokens.length),
        tokens[other].start = tokens[index].start → other = index) ∧
      IsOffending maxNesting (tokens.map Token.kind) error.cause index := by
  rcases Token.kinds_of_tokenize tokenized with ⟨kindsEq, lexical⟩
  have lengths := length_eq_of_tokenize tokenized
  rw [ofTokens, Except.mapError_eq_error_iff] at refused
  rcases refused with ⟨failure, refused, rfl⟩
  have havePaths : HavePaths (kindsOf tokens) := fun text member => (lexical _ member).exists_path
  have shallow : failure.cause ≠ .nestedTooDeeply := by
    rcases failure with ⟨cause, rest⟩
    rintro rfl
    have tooLong := lt_length_of_nestedTooDeeply refused
    omega
  have notContained : ¬ wholeFilter.Contains (kindsOf tokens) := by
    rintro ⟨phrase, derives, kindsEq⟩
    have accepted : Denotes (kindsOf tokens) phrase.expr := ⟨phrase.nesting, by rwa [← kindsEq]⟩
    rw [(ofKinds_eq_ok_iff_denotes (by omega)).mpr accepted] at refused
    cases refused
  rcases exists_stuck_of_ofKinds havePaths refused shallow with ⟨front, split, stuck⟩
  have notEnd : ∀ kind ∈ kindsOf tokens, kind ≠ .endOfInput :=
    fun kind member => (lexical kind member).ne_endOfInput
  have enoughKinds : (kindsOf tokens).length ≤ maxNesting := by omega
  -- A failure knows the kinds that it leaves, so its token is counted from the end.
  have isOffending : IsOffending maxNesting (tokens.map Token.kind) failure.cause
      ((kindsOf tokens).length - failure.rest.length) := by
    rw [kindsEq]
    rw [← split] at notEnd havePaths enoughKinds notContained ⊢
    exact isOffending_of_stuck stuck notEnd havePaths enoughKinds notContained
  have lt : (kindsOf tokens).length - failure.rest.length < tokens.length := by omega
  refine ⟨rfl, _, lt, ?_, ?_, isOffending⟩
  · dsimp only
    rw [List.getElem?_eq_getElem lt]
    rfl
  · intro other ltOther same
    by_contra different
    rcases Nat.lt_or_gt_of_ne different with before | after
    · have less := Token.start_lt_start_of_tokenize tokenized before ltOther lt
      omega
    · have less := Token.start_lt_start_of_tokenize tokenized after lt ltOther
      omega

theorem isOffending_argument_and_name :
    let first : List Token :=
      [⟨.path "f", "f", 0, 1⟩, ⟨.leftParen, "(", 1, 2⟩, ⟨.path "a", "a", 2, 3⟩,
        ⟨.path "b", "b", 4, 5⟩, ⟨.rightParen, ")", 5, 6⟩, ⟨.endOfInput, "", 6, 6⟩]
    let second : List Token :=
      [⟨.path "a/b", "a/b", 0, 3⟩, ⟨.leftParen, "(", 3, 4⟩, ⟨.rightParen, ")", 4, 5⟩,
        ⟨.endOfInput, "", 5, 5⟩]
    Token.tokenize "f(a b)" = .ok first ∧ first.length ≤ 5 + 1 ∧
      ofTokens 5 first = .error ⟨.filter, some 4, .expected .rightParen (.path "b")⟩ ∧
      CanGoOn 5 [.path "f", .leftParen, .path "a"] ∧
      IsDeadEnd [.path "f", .leftParen, .path "a", .path "b"] ∧
      Token.tokenize "a/b()" = .ok second ∧ second.length ≤ 5 + 1 ∧
      ofTokens 5 second = .error ⟨.filter, some 0, .invalidFunctionName "a/b"⟩ ∧
      CanGoOn 5 [.path "a/b"] ∧ IsDeadEnd [.path "a/b", .leftParen] := by
  intro first second
  have tokenizedFirst : Token.tokenize "f(a b)" = .ok first := by decide +kernel
  have tokenizedSecond : Token.tokenize "a/b()" = .ok second := by decide +kernel
  have enoughFirst : first.length ≤ 5 + 1 := by decide
  have enoughSecond : second.length ≤ 5 + 1 := by decide
  have refusedFirst : ofTokens 5 first =
      .error ⟨.filter, some 4, .expected .rightParen (.path "b")⟩ := by with_unfolding_all rfl
  have refusedSecond : ofTokens 5 second =
      .error ⟨.filter, some 0, .invalidFunctionName "a/b"⟩ := by with_unfolding_all rfl
  rcases isOffending_of_refused tokenizedFirst enoughFirst refusedFirst with
    ⟨_, index, _, place, only, isOffending⟩
  rcases isOffending_of_refused tokenizedSecond enoughSecond refusedSecond with
    ⟨_, index', _, place', only', isOffending'⟩
  cases only 3 (by decide) (Option.some.inj place)
  cases only' 0 (by decide) (Option.some.inj place')
  exact ⟨tokenizedFirst, enoughFirst, refusedFirst, isOffending.1, isOffending.2, tokenizedSecond,
    enoughSecond, refusedSecond, isOffending'.2.2.1, isOffending'.2.2.2⟩

end OData.Expr
