import OData.Part
import OData.Typing.Ty

/-!
# Events

What is told about a query while it is read and checked.  Single steps are
traces; the outcome of reading and every failure is told once, for debugging.
-/

namespace OData

/-- How much an event matters. -/
inductive Event.Level
  | trace
  | debug
deriving DecidableEq, Repr

/-- The name of a level. -/
def Event.Level.name : Event.Level → String
  | trace => "trace"
  | debug => "debug"

/-- An event in words: the name of its level and its named values. -/
structure Event.Record where
  level : String
  fields : List (String × String)
deriving DecidableEq

/-- Something that is told about a query. -/
inductive Event
  | readOption (part : Part)
  | readQuery (isEmpty : Bool)
  | refusedOption (part : Part) (message : String)
  | inferredType (ty : Ty)
  | checkedOption (part : Part)
  | checkedPaging
  | failedCheck (part : Part) (message : String)
deriving DecidableEq

namespace Event

/-- How much this event matters. -/
def level : Event → Level
  | readQuery _ | refusedOption _ _ | failedCheck _ _ => .debug
  | readOption _ | inferredType _ | checkedOption _ | checkedPaging => .trace

/-- The text of an event. -/
def message : Event → String
  | readOption _ => "parsed option"
  | readQuery _ => "parsed query options"
  | refusedOption _ _ => "query option rejected"
  | inferredType _ => "inferred filter type"
  | checkedOption _ => "validated option"
  | checkedPaging => "validated top and skip"
  | failedCheck _ _ => "query failed validation"

/-- The named values of an event, with its text under `message`. -/
def fields (event : Event) : List (String × String) :=
  let values :=
    match event with
    | readOption part | checkedOption part => [("part", part.name)]
    | readQuery isEmpty => [("empty", if isEmpty then "true" else "false")]
    | refusedOption part error | failedCheck part error =>
        [("part", part.name), ("error", error)]
    | inferredType ty => [("ty", ty.name)]
    | checkedPaging => []
  ("message", event.message) :: values

/-- An event as it is written down. -/
def record (event : Event) : Record :=
  ⟨event.level.name, event.fields⟩

end Event

end OData
