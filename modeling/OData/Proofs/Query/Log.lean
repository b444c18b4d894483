import OData.Proofs.Logged
import OData.Proofs.Query.Verdict

/-!
# What is told about a query

The log of a query follows from its options and ends with what comes of it.
Each option that is read is told of, up to the first that cannot be, then the
outcome of reading; a query that was read goes on with the checks that pass, up
to the first that does not.  So the events that are told for debugging show the
outcome: a failure is told once, with the option and the message of the error
that is returned.  The last section says the same of the log in words.
-/

namespace OData

namespace Query

variable {maxNesting : Nat} {model : Model} {limits : Limits} {options : Options} {query : Query}

/-! ## Reading -/

/-- What is told after an option does not depend on its value, if the rest does
not. -/
theorem events_readOption_bind {α β : Type} {part : Part} {outcome : Except SyntaxError α}
    {more : α → Logged SyntaxError β} {other : Unit → Logged SyntaxError Unit}
    (same : ∀ value, (more value).events = (other ()).events) :
    (readOption part outcome >>= more).events =
      (Logged.step (outcome.map fun _ => ()) [.readOption part] >>= other).events := by
  cases outcome with
  | error error => rfl
  | ok value => exact congrArg ([Event.readOption part] ++ ·) (same value)

/-- Reading a query tells what reading its options one after the other does. -/
theorem events_readOptions :
    (readOptions maxNesting options).events =
      (Part.all.forM fun part =>
        Logged.step (readPart maxNesting options part) [.readOption part]).events := by
  apply events_readOption_bind
  intro filter
  apply events_readOption_bind
  intro orderBy
  apply events_readOption_bind
  intro top
  apply events_readOption_bind
  intro skip
  apply events_readOption_bind
  intro select
  apply events_readOption_bind
  intro expand
  rfl

/-- Reading that fails tells of the options before the one that fails, and then
of the error. -/
theorem events_read_of_error {before after : List Part} {error : SyntaxError}
    (order : Part.all = before ++ error.part :: after)
    (areRead : ∀ part ∈ before, readPart maxNesting options part = .ok ())
    (failed : readPart maxNesting options error.part = .error error)
    (outcome : (read maxNesting options).outcome = .error error) :
    (read maxNesting options).events =
      before.map .readOption ++ [.refusedOption error.part error.message] := by
  rw [read, Logged.outcome_conclude] at outcome
  rw [read, Logged.events_conclude, outcome, events_readOptions, order,
    Logged.events_forM_of_error areRead failed, List.map_eq_flatMap]

/-- Reading that succeeds tells of all options, and then of the query. -/
theorem events_read_of_ok (holds : Holds maxNesting options query) :
    (read maxNesting options).events =
      Part.all.map .readOption ++ [.readQuery query.isEmpty] := by
  have outcome := read_eq_ok_iff.mpr holds
  have areRead : ∀ part ∈ Part.all, readPart maxNesting options part = .ok () := by
    intro part _
    cases part with
    | filter => exact congrArg (Except.map _) holds.filter
    | orderBy => exact congrArg (Except.map _) holds.orderBy
    | top => exact congrArg (Except.map _) holds.top
    | skip => exact congrArg (Except.map _) holds.skip
    | select => exact congrArg (Except.map _) holds.select
    | expand => exact congrArg (Except.map _) holds.expand
  rw [read, Logged.outcome_conclude] at outcome
  rw [read, Logged.events_conclude, outcome, events_readOptions,
    Logged.events_forM_of_forall_ok areRead, List.map_eq_flatMap]

/-! ## Checking -/

/-- What is told of the filter before it has passed: its type, if there is a
filter and it has one. -/
def inferredEvents (model : Model) (query : Query) : List Event :=
  match query.filter.map (Expr.inferType model) with
  | some (.ok ty) => [.inferredType ty]
  | some (.error _) | none => []

/-- What is told once an option has passed.  Nothing is told of the number of
results to return before the number to leave out has passed too. -/
def checkedEvents : Part → List Event
  | .top => []
  | .skip => [.checkedPaging]
  | part => [.checkedOption part]

theorem checkFilter_eq (limits : Limits) :
    checkFilter model query.filter =
      Logged.tellAll (inferredEvents model query) >>= fun _ =>
        Logged.ofExcept (checkPart model limits query .filter) := by
  unfold inferredEvents checkPart
  cases query.filter with
  | none => rfl
  | some filter =>
      simp only [checkFilter, Option.map_some]
      cases filter.inferType model with
      | error error => rfl
      | ok ty => cases ty <;> rfl

/-- Checking a query tells of the type of its filter and then what checking its
options one after the other does. -/
theorem checkOptions_eq :
    checkOptions model limits query =
      Logged.tellAll (inferredEvents model query) >>= fun _ =>
        Part.all.forM fun part =>
          Logged.step (checkPart model limits query part) (checkedEvents part) := by
  have nothing : (Logged.tellAll [] : Logged ValidationError Unit) = pure () := rfl
  have single (event : Event) :
      (Logged.tellAll [event] : Logged ValidationError Unit) = Logged.tell event := rfl
  have skip : Logged.ofExcept (checkPart model limits query .skip) = pure () := rfl
  rw [checkOptions, checkFilter_eq limits]
  simp only [Part.all, List.forM_eq_forM, List.forM_cons, List.forM_nil, Logged.step,
    checkedEvents, nothing, single, skip, bind_assoc, pure_bind, bind_pure_unit]
  rfl

/-- Checking that fails tells of the options before the one that fails, and then
of the error. -/
theorem events_validate_of_error {before after : List Part} {error : ValidationError}
    (order : Part.all = before ++ error.part :: after)
    (passed : ∀ part ∈ before, checkPart model limits query part = .ok ())
    (failed : checkPart model limits query error.part = .error error)
    (outcome : (query.validate model limits).outcome = .error error) :
    (query.validate model limits).events =
      inferredEvents model query ++ before.flatMap checkedEvents ++
        [.failedCheck error.part error.message] := by
  rw [validate, Logged.outcome_conclude] at outcome
  rw [validate, Logged.events_conclude, outcome, checkOptions_eq, order,
    Logged.events_bind_of_ok rfl, Logged.events_forM_of_error passed failed]
  rfl

/-- Checking that succeeds tells of all options. -/
theorem events_validate_of_ok (passed : ∀ part, checkPart model limits query part = .ok ()) :
    (query.validate model limits).events =
      inferredEvents model query ++ Part.all.flatMap checkedEvents := by
  have outcome : (query.validate model limits).outcome = .ok () := by
    rw [outcome_validate, Part.forM_all_eq_ok_iff]
    exact passed
  rw [validate, Logged.outcome_conclude] at outcome
  rw [validate, Logged.events_conclude, outcome, checkOptions_eq, Logged.events_bind_of_ok rfl,
    Logged.events_forM_of_forall_ok fun part _ => passed part, List.append_nil]
  rfl

/-! ## Whole queries -/

/-- What comes of the options of a query, and what is told on the way. -/
inductive IsStory (maxNesting : Nat) (model : Model) (limits : Limits) (options : Options) :
    Except QueryError Query → List Event → Prop
  | refused {before after : List Part} {error : SyntaxError}
      (order : Part.all = before ++ error.part :: after)
      (areRead : ∀ part ∈ before, readPart maxNesting options part = .ok ())
      (refused : readPart maxNesting options error.part = .error error) :
      IsStory maxNesting model limits options (.error (.reading error))
        (before.map .readOption ++ [.refusedOption error.part error.message])
  | failed {query : Query} {before after : List Part} {error : ValidationError}
      (holds : Holds maxNesting options query)
      (order : Part.all = before ++ error.part :: after)
      (pass : ∀ part ∈ before, checkPart model limits query part = .ok ())
      (failed : checkPart model limits query error.part = .error error) :
      IsStory maxNesting model limits options (.error (.checking error))
        (Part.all.map .readOption ++ [.readQuery query.isEmpty] ++
          (inferredEvents model query ++ before.flatMap checkedEvents ++
            [.failedCheck error.part error.message]))
  | passed {query : Query} (holds : Holds maxNesting options query)
      (pass : ∀ part, checkPart model limits query part = .ok ()) :
      IsStory maxNesting model limits options (.ok query)
        (Part.all.map .readOption ++ [.readQuery query.isEmpty] ++
          (inferredEvents model query ++ Part.all.flatMap checkedEvents))

/-- What is told of a query that is not read. -/
theorem isStory_of_refused {error : SyntaxError}
    (refused : (read maxNesting options).outcome = .error error) :
    let run := readAndValidate maxNesting model limits options
    IsStory maxNesting model limits options run.outcome run.events := by
  intro run
  rcases read_eq_error_iff.mp refused with ⟨part, first, failed⟩
  rcases part_of_readPart failed with rfl
  rcases first.exists_before with ⟨before, after, order, areRead⟩
  have outcome : run.outcome = .error (.reading error) :=
    readAndValidate_eq_reading_iff.mpr refused
  have readFails :
      ((read maxNesting options).mapError QueryError.reading).outcome =
        .error (.reading error) := by
    rw [Logged.outcome_mapError, refused]
    rfl
  have events :
      run.events = before.map .readOption ++ [.refusedOption error.part error.message] := by
    rw [← events_read_of_error order areRead failed refused]
    exact Logged.events_bind_of_error readFails _
  rw [outcome, events]
  exact .refused order areRead failed

/-- A query that is read is told of, and then what checking it tells. -/
theorem events_readAndValidate_of_holds (holds : Holds maxNesting options query) :
    (readAndValidate maxNesting model limits options).events =
      Part.all.map .readOption ++ [.readQuery query.isEmpty] ++
        (query.validate model limits).events := by
  have isRead :
      ((read maxNesting options).mapError QueryError.reading).outcome = .ok query := by
    rw [Logged.outcome_mapError, read_eq_ok_iff.mpr holds]
    rfl
  rw [readAndValidate, Logged.events_bind_of_ok isRead, Logged.events_mapError,
    events_read_of_ok holds]
  congr 1
  cases outcome : ((query.validate model limits).mapError QueryError.checking).outcome with
  | error error => rw [Logged.events_bind_of_error outcome, Logged.events_mapError]
  | ok value =>
      rw [Logged.events_bind_of_ok outcome, Logged.events_pure, List.append_nil,
        Logged.events_mapError]

/-- What is told of a query that is read. -/
theorem isStory_of_holds (holds : Holds maxNesting options query) :
    let run := readAndValidate maxNesting model limits options
    IsStory maxNesting model limits options run.outcome run.events := by
  intro run
  have events : run.events = _ := events_readAndValidate_of_holds holds
  cases checked : (query.validate model limits).outcome with
  | error error =>
      have outcome : run.outcome = .error (.checking error) :=
        readAndValidate_eq_checking_iff.mpr ⟨query, holds, checked⟩
      rcases Part.forM_all_eq_error_iff.mp (outcome_validate.symm.trans checked) with
        ⟨part, first, failed⟩
      rcases (fault_of_checkPart holds.top_ne_zero failed).1 with rfl
      rcases first.exists_before with ⟨before, after, order, pass⟩
      rw [events_validate_of_error order pass failed checked] at events
      rw [outcome, events]
      exact .failed holds order pass failed
  | ok value =>
      have outcome : run.outcome = .ok query := readAndValidate_eq_ok_iff.mpr ⟨holds, checked⟩
      have pass := Part.forM_all_eq_ok_iff.mp (outcome_validate.symm.trans checked)
      rw [events_validate_of_ok pass] at events
      rw [outcome, events]
      exact .passed holds pass

/-! ## Debugging -/

/-- What is told for debugging of a query, by what comes of it. -/
def debugEvents : Except QueryError Query → List Event
  | .ok query => [.readQuery query.isEmpty]
  | .error (.reading error) => [.refusedOption error.part error.message]
  | .error (.checking error) => [.readQuery false, .failedCheck error.part error.message]

/-- A query that asks for nothing fails no check. -/
theorem isEmpty_eq_false_of_checkPart {part : Part} {error : ValidationError}
    (failed : checkPart model limits query part = .error error) : query.isEmpty = false := by
  rw [← Bool.not_eq_true, isEmpty_iff]
  rintro rfl
  cases part <;> cases failed

theorem filter_debug_eq_nil {events : List Event}
    (traces : ∀ event ∈ events, event.level = .trace) :
    events.filter (fun event => event.level = .debug) = [] := by
  rw [List.filter_eq_nil_iff]
  intro event member
  simp [traces event member]

theorem level_readOption {parts : List Part} :
    ∀ event ∈ parts.map Event.readOption, event.level = .trace := by
  intro event member
  rcases List.mem_map.mp member with ⟨part, _, rfl⟩
  rfl

theorem level_inferredEvents : ∀ event ∈ inferredEvents model query, event.level = .trace := by
  intro event member
  unfold inferredEvents at member
  split at member
  · rw [List.mem_singleton.mp member]
    rfl
  · cases member
  · cases member

theorem level_checkedEvents {parts : List Part} :
    ∀ event ∈ parts.flatMap checkedEvents, event.level = .trace := by
  intro event member
  rcases List.mem_flatMap.mp member with ⟨part, _, told⟩
  cases part with
  | top => cases told
  | _ =>
      rw [List.mem_singleton.mp told]
      rfl

/-- The steps on the way are not told for debugging, what comes of it is. -/
theorem IsStory.filter_debug {outcome : Except QueryError Query} {events : List Event}
    (story : IsStory maxNesting model limits options outcome events) :
    events.filter (fun event => event.level = .debug) = debugEvents outcome := by
  cases story with
  | refused =>
      rw [List.filter_append, filter_debug_eq_nil level_readOption]
      rfl
  | failed _ _ _ failed =>
      simp only [List.filter_append, filter_debug_eq_nil level_readOption,
        filter_debug_eq_nil level_inferredEvents, filter_debug_eq_nil level_checkedEvents,
        isEmpty_eq_false_of_checkPart failed]
      rfl
  | passed =>
      simp only [List.filter_append, filter_debug_eq_nil level_readOption,
        filter_debug_eq_nil level_inferredEvents, filter_debug_eq_nil level_checkedEvents]
      rfl

/-! ## In words -/

/-- What is written down of an option that is read. -/
def readRecord (part : Part) : Event.Record :=
  ⟨"trace", [("message", "parsed option"), ("part", part.name)]⟩

/-- What is written down of a query that is read. -/
def queryRecord (query : Query) : Event.Record :=
  ⟨"debug", [("message", "parsed query options"),
    ("empty", if query.isEmpty then "true" else "false")]⟩

/-- What is written down of the filter before it has passed. -/
def inferredRecords (model : Model) (query : Query) : List Event.Record :=
  match query.filter.map (Expr.inferType model) with
  | some (.ok ty) => [⟨"trace", [("message", "inferred filter type"), ("ty", ty.name)]⟩]
  | some (.error _) | none => []

/-- What is written down once an option has passed. -/
def checkedRecords : Part → List Event.Record
  | .top => []
  | .skip => [⟨"trace", [("message", "validated top and skip")]⟩]
  | part => [⟨"trace", [("message", "validated option"), ("part", part.name)]⟩]

/-- What comes of the options of a query, and what is written down on the
way. -/
inductive IsLog (maxNesting : Nat) (model : Model) (limits : Limits) (options : Options) :
    Except QueryError Query → List Event.Record → Prop
  | refused {before after : List Part} {error : SyntaxError}
      (order : Part.all = before ++ error.part :: after)
      (areRead : ∀ part ∈ before, readPart maxNesting options part = .ok ())
      (refused : readPart maxNesting options error.part = .error error) :
      IsLog maxNesting model limits options (.error (.reading error))
        (before.map readRecord ++
          [⟨"debug", [("message", "query option rejected"), ("part", error.part.name),
            ("error", error.message)]⟩])
  | failed {query : Query} {before after : List Part} {error : ValidationError}
      (holds : Holds maxNesting options query)
      (order : Part.all = before ++ error.part :: after)
      (pass : ∀ part ∈ before, checkPart model limits query part = .ok ())
      (failed : checkPart model limits query error.part = .error error) :
      IsLog maxNesting model limits options (.error (.checking error))
        (Part.all.map readRecord ++ [queryRecord query] ++
          (inferredRecords model query ++ before.flatMap checkedRecords ++
            [⟨"debug", [("message", "query failed validation"), ("part", error.part.name),
              ("error", error.message)]⟩]))
  | passed {query : Query} (holds : Holds maxNesting options query)
      (pass : ∀ part, checkPart model limits query part = .ok ()) :
      IsLog maxNesting model limits options (.ok query)
        (Part.all.map readRecord ++ [queryRecord query] ++
          (inferredRecords model query ++ Part.all.flatMap checkedRecords))

theorem map_record_inferredEvents :
    (inferredEvents model query).map Event.record = inferredRecords model query := by
  unfold inferredEvents inferredRecords
  split <;> rfl

theorem map_record_checkedEvents (parts : List Part) :
    (parts.flatMap checkedEvents).map Event.record = parts.flatMap checkedRecords := by
  rw [List.map_flatMap]
  congr 1
  funext part
  cases part <;> rfl

theorem map_record_readOption (parts : List Part) :
    (parts.map Event.readOption).map Event.record = parts.map readRecord := by
  rw [List.map_map]
  rfl

/-- A story is written down word by word. -/
theorem IsStory.isLog {outcome : Except QueryError Query} {events : List Event}
    (story : IsStory maxNesting model limits options outcome events) :
    IsLog maxNesting model limits options outcome (events.map Event.record) := by
  cases story with
  | refused order areRead refused =>
      rw [List.map_append, map_record_readOption]
      exact .refused order areRead refused
  | failed holds order pass failed =>
      simp only [List.map_append, map_record_readOption, map_record_inferredEvents,
        map_record_checkedEvents]
      exact .failed holds order pass failed
  | passed holds pass =>
      simp only [List.map_append, map_record_readOption, map_record_inferredEvents,
        map_record_checkedEvents]
      exact .passed holds pass

/-- The log of a query is the story of what comes of it, and is written down in
these words.  Told for debugging is the outcome of reading, and then a failed
check, so a failure is told once, with what is returned. -/
theorem isStory_readAndValidate (maxNesting : Nat) (model : Model) (limits : Limits)
    (options : Options) :
    let run := readAndValidate maxNesting model limits options
    IsStory maxNesting model limits options run.outcome run.events ∧
      run.events.filter (fun event => event.level = .debug) = debugEvents run.outcome ∧
      IsLog maxNesting model limits options run.outcome (run.events.map Event.record) := by
  intro run
  have story : IsStory maxNesting model limits options run.outcome run.events := by
    cases outcome : (read maxNesting options).outcome with
    | error error => exact isStory_of_refused outcome
    | ok query => exact isStory_of_holds (read_eq_ok_iff.mp outcome)
  exact ⟨story, story.filter_debug, story.isLog⟩

/-- Nothing is told of the options behind one that is refused. -/
example : (readAndValidate 8 model limits { top := "2", skip := "x", expand := "a" }).events =
    [.readOption .filter, .readOption .orderBy, .readOption .top,
      .refusedOption .skip "'x' is not a non-negative integer"] := by
  rfl

end Query

end OData
