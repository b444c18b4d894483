import OData.Decimal.Basic
import OData.Decimal.Double
import OData.Decimal.Numeral
import OData.Diagnostic
import OData.Document
import OData.Error.Query
import OData.Error.Syntax
import OData.Error.Validation
import OData.Event
import OData.Expr.Basic
import OData.Expr.Descent
import OData.Expr.Grammar
import OData.Expr.Printer
import OData.Expr.Reader
import OData.Form
import OData.Literal
import OData.Logged
import OData.Operator
import OData.Part
import OData.Path
import OData.Proofs.Decimal.Numeral
import OData.Proofs.Expr.Acceptance
import OData.Proofs.Expr.Completeness
import OData.Proofs.Expr.Depth
import OData.Proofs.Expr.Derivation
import OData.Proofs.Expr.Readable
import OData.Proofs.Expr.RoundTrip
import OData.Proofs.Expr.Soundness
import OData.Proofs.Expr.Unique
import OData.Proofs.Outcome
import OData.Proofs.Path
import OData.Proofs.Token.Cutting
import OData.Proofs.Token.Numeral
import OData.Proofs.Token.Spelling
import OData.Proofs.Token.Words
import OData.Proofs.Typing.Inference
import OData.Query.Basic
import OData.Query.Check
import OData.Query.Options
import OData.Query.Reader
import OData.Query.Terms
import OData.Query.Validation
import OData.Schema.Basic
import OData.Schema.Standard
import OData.Text.Blank
import OData.Text.Folding
import OData.Text.Quoted
import OData.Text.Utf8
import OData.Token.Basic
import OData.Token.Lexer
import OData.Typing.Inference
import OData.Typing.Judgment
import OData.Typing.Model
import OData.Typing.Ty
import OData.Proofs.Expr.Budget
import OData.Proofs.Token.Places
import OData.Proofs.Token.Refusal
import OData.Proofs.Expr.Threshold
import OData.Proofs.Expr.Rereading
import OData.Proofs.Query.Reading
import OData.Proofs.Typing.Fault
import OData.Proofs.Query.Checking
import OData.Proofs.Query.Verdict
import OData.Proofs.Token.Tiling
import OData.Proofs.Expr.Composition
import OData.Proofs.Expr.Category
import OData.Proofs.Expr.Settling
import OData.Proofs.Expr.Offense
import OData.Proofs.Query.Ordering
import OData.Proofs.Expr.Occurrence
import OData.Proofs.Query.Support
import OData.Proofs.Typing.Agreement
import OData.Proofs.Schema.Registration
import OData.Proofs.Query.Mention
import OData.Proofs.Query.Selection
import OData.Proofs.Token.Lookahead
import OData.Proofs.Token.Truncation
import OData.Proofs.Query.Location
import OData.Proofs.Last
import OData.Proofs.Schema.History
import OData.Proofs.Schema.Collection
import OData.Proofs.Typing.Extension
import OData.Proofs.Query.Growth
import OData.Proofs.Form
import OData.Proofs.Query.Options
import OData.Proofs.Query.Concatenation
import OData.Proofs.Typing.Replacement
import OData.Proofs.Typing.Comparison
import OData.Proofs.Expr.Layout
import OData.Proofs.Logged
import OData.Proofs.Query.Number
import OData.Proofs.Query.Log
import OData.Proofs.Pattern
import OData.Proofs.Expr.Refusal
import OData.Proofs.Expr.Descent.Run
import OData.Proofs.Expr.Descent.Follow
import OData.Proofs.Expr.Descent
import OData.Proofs.Query.Recognition
import OData.Proofs.Document
import OData.Word
import OData.Proofs.Path.Notation
import OData.Proofs.Query.Absence
import OData.Proofs.Diagnostic
