import OData.Event

/-!
# Logged computations

A computation that tells events and then gives a value or fails.  What was told
before a failure stays told.
-/

namespace OData

/-- The events and the outcome of a computation. -/
structure Logged (ε α : Type) where
  events : List Event
  outcome : Except ε α

namespace Logged

variable {ε δ α β : Type}

/-- Go on with a value, after the events told so far. -/
def bind (first : Logged ε α) (more : α → Logged ε β) : Logged ε β :=
  match first.outcome with
  | .error error => ⟨first.events, .error error⟩
  | .ok value => ⟨first.events ++ (more value).events, (more value).outcome⟩

instance : Monad (Logged ε) where
  pure value := ⟨[], .ok value⟩
  bind := bind

instance : LawfulMonad (Logged ε) :=
  LawfulMonad.mk' (Logged ε)
    (by
      rintro α ⟨events, _ | value⟩
      · rfl
      · simp [Functor.map, bind])
    (by
      intro α β value more
      simp [Pure.pure, Bind.bind, bind])
    (by
      rintro α β γ ⟨events, _ | value⟩ more further
      · rfl
      · simp only [Bind.bind, bind]
        cases (more value).outcome <;> simp)

/-- Tell one event. -/
def tell (event : Event) : Logged ε Unit :=
  ⟨[event], .ok ()⟩

/-- A computation that tells nothing. -/
def ofExcept (outcome : Except ε α) : Logged ε α :=
  ⟨[], outcome⟩

/-- Tell what follows from the outcome. -/
def conclude (run : Logged ε α) (events : Except ε α → List Event) : Logged ε α :=
  ⟨run.events ++ events run.outcome, run.outcome⟩

/-- Change the error. -/
def mapError (f : ε → δ) (run : Logged ε α) : Logged δ α :=
  ⟨run.events, run.outcome.mapError f⟩

/-! ## Outcomes -/

@[simp]
theorem outcome_pure (value : α) : (pure value : Logged ε α).outcome = .ok value :=
  rfl

@[simp]
theorem outcome_bind (first : Logged ε α) (more : α → Logged ε β) :
    (first >>= more).outcome = first.outcome >>= fun value => (more value).outcome := by
  rcases first with ⟨events, error | value⟩
  · rfl
  · rfl

@[simp]
theorem outcome_tell (event : Event) : (tell event : Logged ε Unit).outcome = .ok () :=
  rfl

@[simp]
theorem outcome_ofExcept (outcome : Except ε α) : (ofExcept outcome).outcome = outcome :=
  rfl

@[simp]
theorem outcome_conclude (run : Logged ε α) (events : Except ε α → List Event) :
    (run.conclude events).outcome = run.outcome :=
  rfl

@[simp]
theorem outcome_mapError (f : ε → δ) (run : Logged ε α) :
    (run.mapError f).outcome = run.outcome.mapError f :=
  rfl

/-! ## Events -/

@[simp]
theorem events_pure (value : α) : (pure value : Logged ε α).events = [] :=
  rfl

@[simp]
theorem events_conclude (run : Logged ε α) (events : Except ε α → List Event) :
    (run.conclude events).events = run.events ++ events run.outcome :=
  rfl

@[simp]
theorem events_mapError (f : ε → δ) (run : Logged ε α) : (run.mapError f).events = run.events :=
  rfl

/-- What follows a value tells its events behind those told so far. -/
theorem events_bind_of_ok {first : Logged ε α} {value : α} (succeeds : first.outcome = .ok value)
    (more : α → Logged ε β) :
    (first >>= more).events = first.events ++ (more value).events := by
  rcases first with ⟨events, outcome⟩
  cases succeeds
  rfl

/-- Nothing is told after a failure. -/
theorem events_bind_of_error {first : Logged ε α} {error : ε} (fails : first.outcome = .error error)
    (more : α → Logged ε β) : (first >>= more).events = first.events := by
  rcases first with ⟨events, outcome⟩
  cases fails
  rfl

end Logged

end OData
