import OData.Logged
import OData.Proofs.Outcome

/-!
# Steps that tell events

A step that succeeds tells its events, and one that fails tells nothing.  So a
sequence of steps tells the events of those before the first failure.
-/

namespace OData.Logged

variable {ε α : Type}

/-- Tell some events. -/
def tellAll (events : List Event) : Logged ε Unit :=
  ⟨events, .ok ()⟩

/-- Take a step and tell some events if it succeeds. -/
def step (outcome : Except ε Unit) (events : List Event) : Logged ε Unit := do
  ofExcept outcome
  tellAll events

@[simp]
theorem events_step_ok (events : List Event) :
    (step (.ok () : Except ε Unit) events).events = events :=
  rfl

@[simp]
theorem events_step_error (error : ε) (events : List Event) :
    (step (.error error) events).events = [] :=
  rfl

@[simp]
theorem outcome_step (outcome : Except ε Unit) (events : List Event) :
    (step outcome events).outcome = outcome := by
  cases outcome with
  | error error => rfl
  | ok value => rfl

variable {outcome : α → Except ε Unit} {told : α → List Event} {before after : List α}

/-- Steps that succeed tell their events before those of the steps behind
them. -/
theorem events_forM_append (succeed : ∀ item ∈ before, outcome item = .ok ()) :
    ((before ++ after).forM fun item => step (outcome item) (told item)).events =
      before.flatMap told ++ (after.forM fun item => step (outcome item) (told item)).events := by
  induction before with
  | nil => rfl
  | cons item before ih =>
      rcases List.forall_mem_cons.mp succeed with ⟨first, others⟩
      have firstOutcome : (step (outcome item) (told item)).outcome = .ok () := by
        rw [outcome_step, first]
      have firstEvents : (step (outcome item) (told item)).events = told item := by
        rw [first, events_step_ok]
      rw [List.forM_eq_forM] at ih ⊢
      rw [List.cons_append, List.forM_cons, events_bind_of_ok firstOutcome, firstEvents, ih others,
        List.flatMap_cons, List.append_assoc]

/-- If all steps succeed, all tell their events. -/
theorem events_forM_of_forall_ok {items : List α}
    (succeed : ∀ item ∈ items, outcome item = .ok ()) :
    (items.forM fun item => step (outcome item) (told item)).events = items.flatMap told := by
  calc (items.forM fun item => step (outcome item) (told item)).events
      = ((items ++ []).forM fun item => step (outcome item) (told item)).events := by
        rw [List.append_nil]
    _ = items.flatMap told ++ [] := events_forM_append succeed
    _ = items.flatMap told := List.append_nil _

/-- Only the steps before the first failure tell their events. -/
theorem events_forM_of_error {item : α} {error : ε}
    (succeed : ∀ earlier ∈ before, outcome earlier = .ok ())
    (fails : outcome item = .error error) :
    ((before ++ item :: after).forM fun item => step (outcome item) (told item)).events =
      before.flatMap told := by
  have failsHere : (step (outcome item) (told item)).outcome = .error error := by
    rw [outcome_step, fails]
  rw [events_forM_append succeed, List.forM_eq_forM, List.forM_cons,
    events_bind_of_error failsHere, fails, events_step_error, List.append_nil]

end OData.Logged
