import OData.Expr.Reader
import OData.Proofs.Outcome

/-!
# Categories of kinds

What a reader is for is a category of lists of kinds, with what may stand after
them.  A reader settles some kinds if it has either read the one member of its
category that can stand at their front, or is stuck at the first kind that
keeps every member from standing there.

Readers are made of others, one after the other.  What the parts say about the
whole is the subject of this module: a part that is stuck makes the whole stuck
at the same place, if the whole needs that part there.
-/

namespace OData.Expr

open Token (Kind)
open SyntaxError (Cause)

/-- Lists of kinds that belong together, and which kinds may follow them. -/
structure Category where
  Contains : List Kind → Prop
  Ends : List Kind → Prop

/-- Kinds that bring what has been started to its end: a parenthesis closes a
call or a group, and a `null` is the operand that is still missing. -/
def IsCompletion (kinds : List Kind) : Prop :=
  ∀ kind ∈ kinds, kind = .rightParen ∨ kind = .literal .null

theorem isCompletion_nil : IsCompletion [] :=
  fun _ member => absurd member List.not_mem_nil

theorem isCompletion_rightParen : IsCompletion [.rightParen] :=
  List.forall_mem_singleton.mpr (.inl rfl)

theorem isCompletion_null : IsCompletion [.literal .null] :=
  List.forall_mem_singleton.mpr (.inr rfl)

theorem IsCompletion.append {kinds more : List Kind} (first : IsCompletion kinds)
    (second : IsCompletion more) : IsCompletion (kinds ++ more) :=
  List.forall_mem_append.mpr ⟨first, second⟩

/-- The kinds from the first one on that cannot stand in its place.  After a
name that is no name of a function, that is the parenthesis. -/
def Failure.offending (failure : Failure) : List Kind :=
  match failure.cause with
  | .invalidFunctionName _ => failure.rest.tail
  | _ => failure.rest

theorem Failure.offending_of_unnamed {failure : Failure}
    (unnamed : ∀ name, failure.cause ≠ .invalidFunctionName name) :
    failure.offending = failure.rest := by
  unfold Failure.offending
  split
  · next name named => exact absurd named (unnamed name)
  · rfl

namespace Category

variable {category outer inner : Category} {kinds front rest : List Kind} {α β : Type}

/-- Whether some kinds start with a member of a category. -/
def Opens (category : Category) (kinds : List Kind) : Prop :=
  ∃ member behind, category.Contains member ∧ category.Ends behind ∧ member ++ behind = kinds

/-- Whether a member of a category can start with some kinds. -/
def Viable (category : Category) (kinds : List Kind) : Prop :=
  ∃ completion, IsCompletion completion ∧ category.Contains (kinds ++ completion)

/-- Whether a member ends after `front` wherever the same kind follows. -/
def Settled (category : Category) (front rest : List Kind) : Prop :=
  ∀ ⦃more⦄, more.head? = rest.head? → ∀ ⦃member behind⦄, category.Contains member →
    category.Ends behind → member ++ behind = front ++ more → behind = more

/-- What a failure says about a category: its members can start with `front`,
and with no other kind than the ones that they can start with after it. -/
structure Stuck (category : Category) (front : List Kind) (failure : Failure) : Prop where
  viable : category.Viable front
  dead : ∀ ⦃kind more⦄, failure.offending = kind :: more →
    ∀ more', ¬ category.Opens (front ++ kind :: more')
  named : ∀ ⦃name⦄, failure.cause = .invalidFunctionName name →
    (∃ before, front = before ++ [.path name]) ∧
      ∃ after, failure.rest = .path name :: .leftParen :: after

/-- What the outcome of a reader says about the category it is for.  Nothing is
said about what is nested too deeply. -/
inductive Settles (category : Category) (kinds : List Kind) :
    Except Failure (α × List Kind) → Prop
  | read {value : α} {front rest : List Kind} (split : front ++ rest = kinds)
      (contains : category.Contains front) (settled : category.Settled front rest) :
      Settles category kinds (.ok (value, rest))
  | nestedTooDeeply (rest : List Kind) :
      Settles category kinds (.error ⟨.nestedTooDeeply, rest⟩)
  | stuck {failure : Failure} {front : List Kind} (split : front ++ failure.offending = kinds)
      (stuck : category.Stuck front failure) : Settles category kinds (.error failure)

theorem viable_of_contains (contains : category.Contains kinds) : category.Viable kinds :=
  ⟨[], isCompletion_nil, by rwa [List.append_nil]⟩

theorem Viable.of_append {completion : List Kind} (isCompletion : IsCompletion completion)
    (viable : category.Viable (kinds ++ completion)) : category.Viable kinds := by
  rcases viable with ⟨more, isMore, contains⟩
  exact ⟨completion ++ more, isCompletion.append isMore, by rwa [← List.append_assoc]⟩

/-- A failure that is reported where it is noticed. -/
theorem stuck_of_unnamed {cause : Cause} (unnamed : ∀ name, cause ≠ .invalidFunctionName name)
    (viable : category.Viable front)
    (dead : ∀ ⦃kind more⦄, rest = kind :: more →
      ∀ more', ¬ category.Opens (front ++ kind :: more')) :
    (Failure.mk cause rest).offending = rest ∧ category.Stuck front ⟨cause, rest⟩ := by
  have offending : (Failure.mk cause rest).offending = rest :=
    Failure.offending_of_unnamed unnamed
  refine ⟨offending, viable, ?_, fun name named => absurd named (unnamed name)⟩
  rw [offending]
  exact dead

theorem settles_error {cause : Cause} (unnamed : ∀ name, cause ≠ .invalidFunctionName name)
    (viable : category.Viable front)
    (dead : ∀ ⦃kind more⦄, rest = kind :: more →
      ∀ more', ¬ category.Opens (front ++ kind :: more')) :
    category.Settles (front ++ rest) (.error ⟨cause, rest⟩ : Except Failure (α × List Kind)) := by
  rcases stuck_of_unnamed unnamed viable dead with ⟨offending, stuck⟩
  exact .stuck (by rw [offending]) stuck

/-! ## One category within another -/

/-- Whether a member of `outer` that starts with `front` goes on with a member
of `inner`, where the next kind is the first one of `kinds`. -/
structure Within (outer inner : Category) (front kinds : List Kind) : Prop where
  completes : ∀ ⦃member⦄, inner.Contains member → outer.Viable (front ++ member)
  descends : ∀ ⦃more⦄, more.head? = kinds.head? → outer.Opens (front ++ more) → inner.Opens more

/-- Whether that member of `inner` is also what the member of `outer` ends
with. -/
structure Finishes (outer inner : Category) (front kinds : List Kind) : Prop where
  contains : ∀ ⦃member⦄, inner.Contains member → outer.Contains (front ++ member)
  descends : ∀ ⦃more⦄, more.head? = kinds.head? → ∀ ⦃member behind⦄, outer.Contains member →
    outer.Ends behind → member ++ behind = front ++ more →
    ∃ inside, inner.Contains inside ∧ inner.Ends behind ∧ inside ++ behind = more

theorem Finishes.within (finishes : Finishes outer inner front kinds) :
    Within outer inner front kinds where
  completes _ contains := viable_of_contains (finishes.contains contains)
  descends _ sameHead opens := by
    rcases opens with ⟨member, behind, contains, ends, split⟩
    rcases finishes.descends sameHead contains ends split with ⟨inside, containsInside, insideEnds⟩
    exact ⟨inside, behind, containsInside, insideEnds⟩

/-- Kinds that go on with the same kind start with the same kind. -/
theorem head?_append_eq {more : List Kind} (sameHead : more.head? = rest.head?)
    (front : List Kind) : (front ++ more).head? = (front ++ rest).head? := by
  cases front with
  | nil => exact sameHead
  | cons => rfl

/-- Where a part of a member is stuck, so is the member. -/
theorem Stuck.within {failure : Failure} {member : List Kind} (stuck : inner.Stuck member failure)
    (within : Within outer inner front (member ++ failure.offending)) :
    outer.Stuck (front ++ member) failure where
  viable := by
    rcases stuck.viable with ⟨completion, isCompletion, contains⟩
    have viable := within.completes contains
    rw [← List.append_assoc] at viable
    exact viable.of_append isCompletion
  dead kind more offending more' opens := by
    have sameHead : (member ++ kind :: more').head? = (member ++ failure.offending).head? := by
      rw [offending]
      exact head?_append_eq (by rfl) member
    rw [List.append_assoc] at opens
    exact stuck.dead offending more' (within.descends sameHead opens)
  named name isNamed := by
    rcases stuck.named isNamed with ⟨⟨before, split⟩, after⟩
    exact ⟨⟨front ++ before, by rw [split, List.append_assoc]⟩, after⟩

/-- What a reader that goes on after another one settles. -/
theorem Settles.bind {first : Except Failure (α × List Kind)}
    {more : α × List Kind → Except Failure (β × List Kind)} (settles : inner.Settles kinds first)
    (within : Within outer inner front kinds)
    (goesOn : ∀ value member rest, member ++ rest = kinds → inner.Contains member →
      inner.Settled member rest → outer.Settles (front ++ kinds) (more (value, rest))) :
    outer.Settles (front ++ kinds) (first >>= more) := by
  cases settles with
  | read split contains settled => exact goesOn _ _ _ split contains settled
  | nestedTooDeeply rest => exact .nestedTooDeeply rest
  | stuck split stuck =>
      subst split
      exact .stuck (by rw [List.append_assoc]) (stuck.within within)

/-- What the last of several readers settles. -/
theorem Settles.finish {outcome : Except Failure (α × List Kind)}
    (settles : inner.Settles kinds outcome) (finishes : Finishes outer inner front kinds) :
    outer.Settles (front ++ kinds) outcome := by
  cases settles with
  | @read value member rest split contains settled =>
      subst split
      refine .read (List.append_assoc _ _ _) (finishes.contains contains) ?_
      intro more sameHead other behind containsOther ends same
      rw [List.append_assoc] at same
      rcases finishes.descends (head?_append_eq sameHead member) containsOther ends same with
        ⟨inside, containsInside, endsInside, split⟩
      exact settled sameHead containsInside endsInside split
  | nestedTooDeeply rest => exact .nestedTooDeeply rest
  | stuck split stuck =>
      subst split
      exact .stuck (by rw [List.append_assoc]) (stuck.within finishes.within)

/-- The value that is read makes no difference. -/
theorem Settles.map {outcome : Except Failure (α × List Kind)} (f : α → β)
    (settles : category.Settles kinds outcome) :
    category.Settles kinds (outcome >>= fun result => .ok (f result.1, result.2)) := by
  cases settles with
  | read split contains settled => exact .read split contains settled
  | nestedTooDeeply rest => exact .nestedTooDeeply rest
  | stuck split stuck => exact .stuck split stuck

/-! ## A category in parentheses -/

/-- Whether the members of `outer` that start with `front` go on with a member
of `inner` and a closing parenthesis. -/
structure Encloses (outer inner : Category) (front : List Kind) : Prop where
  contains : ∀ ⦃member⦄, inner.Contains member →
    outer.Contains (front ++ (member ++ [.rightParen]))
  descends : ∀ ⦃more member behind⦄, outer.Contains member → outer.Ends behind →
    member ++ behind = front ++ more →
    ∃ inside, inner.Contains inside ∧ inner.Ends (.rightParen :: behind) ∧
      inside ++ .rightParen :: behind = more

theorem Encloses.within (encloses : Encloses outer inner front) (kinds : List Kind) :
    Within outer inner front kinds where
  completes member contains := by
    have closed := viable_of_contains (encloses.contains contains)
    rw [← List.append_assoc] at closed
    exact closed.of_append isCompletion_rightParen
  descends more _ opens := by
    rcases opens with ⟨member, behind, contains, ends, split⟩
    rcases encloses.descends contains ends split with ⟨inside, containsInside, endsInside⟩
    exact ⟨inside, _, containsInside, endsInside⟩

theorem Settles.closing {outcome : Except Failure (α × List Kind)} (f : α → β)
    (settles : inner.Settles kinds outcome) (encloses : Encloses outer inner front) :
    outer.Settles (front ++ kinds) (outcome >>= fun result => closing (f result.1) result.2) := by
  have within := encloses.within kinds
  apply settles.bind within
  rintro value member rest rfl contains settled
  unfold Expr.closing
  dsimp only
  split
  · next afterParen =>
      refine .read (by simp) (encloses.contains contains) ?_
      intro more sameHead other behind containsOther ends same
      simp only [List.append_assoc, List.singleton_append] at same
      rcases encloses.descends containsOther ends same with
        ⟨inside, containsInside, endsInside, split⟩
      exact (List.cons.inj (settled (by rfl) containsInside endsInside split)).2
  · next noParen =>
      rw [← List.append_assoc]
      apply settles_error (fun _ => Cause.noConfusion) (within.completes contains)
      rintro kind more rfl more' ⟨other, behind, containsOther, ends, same⟩
      rw [List.append_assoc] at same
      rcases encloses.descends containsOther ends same with
        ⟨inside, containsInside, endsInside, split⟩
      cases settled (by rfl) containsInside endsInside split
      exact noParen more rfl

end Category

end OData.Expr
