import OData.Error.Query
import OData.Text.Utf8
import OData.Word

/-!
# Diagnostics

What is shown of an error: its text, a code for its kind, and for a located
syntax error a label of one byte.  A report also carries the text that the
error is about, and its label lies within that text or at its end.

`diagnostic` and `report` say what is to be shown, with numbers of any size.
`diagnosticIn` and `reportIn` compute it with places that are machine words.
They differ at one offset only, the last word: there is no word for the place
behind it.
-/

namespace OData

/-- The bytes from `start` up to `stop`, of which `stop` is the first outside. -/
structure Span where
  start : Nat
  stop : Nat
deriving DecidableEq

/-- How bad a diagnostic is. -/
inductive Severity
  | error
deriving DecidableEq, Repr

/-- The name of a severity. -/
def Severity.name : Severity → String
  | error => "Error"

/-- A note at some bytes of a text.  The primary label is where the fault
lies. -/
structure Label where
  text : String
  offset : Nat
  length : Nat
  isPrimary : Bool
deriving DecidableEq

/-- The text of an option with a name to show it under. -/
structure Source where
  content : String
  name : Option String := none
deriving DecidableEq

/-- What is shown of an error. -/
structure Diagnostic where
  message : String
  code : String
  severity : Severity
  label : Option Label
  source : Option Source
deriving DecidableEq

namespace Source

/-- The number of bytes of a text. -/
def length (source : Source) : Nat :=
  Text.byteLength source.content.toList

/-- The nearest span within a text. -/
def clamp (source : Source) (span : Span) : Span :=
  let start := min span.start source.length
  ⟨start, max (min span.stop source.length) start⟩

end Source

namespace SyntaxError

/-- The byte at which an error points, if it is located. -/
def span (error : SyntaxError) : Option Span :=
  error.offset.map fun offset => ⟨offset, offset + 1⟩

/-- The label of an error, if it is located. -/
def label (error : SyntaxError) : Option Label :=
  error.span.map fun span => ⟨"here", span.start, span.stop - span.start, true⟩

/-- What is shown of a syntax error. -/
def diagnostic (error : SyntaxError) : Diagnostic where
  message := error.description
  code := "odata::syntax"
  severity := .error
  label := error.label
  source := none

/-- The error with its offset moved into a text: one beyond the text becomes its
end. -/
def clampTo (error : SyntaxError) (source : Source) : SyntaxError :=
  { error with offset := error.span.map fun span => (source.clamp span).start }

/-- What is shown of a syntax error together with its text. -/
def report (error : SyntaxError) (source : Source) : Diagnostic :=
  { (error.clampTo source).diagnostic with source := some source }

end SyntaxError

/-- What is shown of a validation error. -/
def ValidationError.diagnostic (error : ValidationError) : Diagnostic where
  message := error.description
  code := "odata::validation"
  severity := .error
  label := none
  source := none

/-! ## In machine words -/

namespace SyntaxError

/-- The byte at which an error points, if it is located, up to the next. -/
def spanIn (arithmetic : Arithmetic) (error : SyntaxError) : Except Overflow (Option Span) :=
  error.offset.mapM fun offset => do
    let stop ← Word.add arithmetic offset 1
    return ⟨offset, stop⟩

/-- The label of an error, if it is located. -/
def labelIn (arithmetic : Arithmetic) (error : SyntaxError) : Except Overflow (Option Label) := do
  let span ← error.spanIn arithmetic
  span.mapM fun span => do
    let length ← Word.sub arithmetic span.stop span.start
    return ⟨"here", span.start, length, true⟩

/-- What is shown of a syntax error. -/
def diagnosticIn (arithmetic : Arithmetic) (error : SyntaxError) : Except Overflow Diagnostic := do
  let label ← error.labelIn arithmetic
  return { error.diagnostic with label }

/-- The error with its offset moved into a text. -/
def clampToIn (arithmetic : Arithmetic) (error : SyntaxError) (source : Source) :
    Except Overflow SyntaxError := do
  let span ← error.spanIn arithmetic
  return { error with offset := span.map fun span => (source.clamp span).start }

/-- What is shown of a syntax error together with its text. -/
def reportIn (arithmetic : Arithmetic) (error : SyntaxError) (source : Source) :
    Except Overflow Diagnostic := do
  let clamped ← error.clampToIn arithmetic source
  let shown ← clamped.diagnosticIn arithmetic
  return { shown with source := some source }

end SyntaxError

/-- What is shown of an error of either phase. -/
def QueryError.diagnosticIn (arithmetic : Arithmetic) : QueryError → Except Overflow Diagnostic
  | reading error => error.diagnosticIn arithmetic
  | checking error => .ok error.diagnostic

end OData
