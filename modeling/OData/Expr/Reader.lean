import OData.Error.Syntax
import OData.Expr.Basic
import OData.Token.Lexer

/-!
# Reading expressions

An expression is read from token kinds by recursive descent.  From the weakest
to the strongest, the levels are `or`, `and`, the comparisons, `add` and `sub`,
`mul` with `div` and `mod`, and the prefix operators.  Operators of one level
fold to the left; comparisons do not chain.

A reader works within a nesting budget.  A parenthesis, a call, a prefix
operator and every fold of a chain each take one from the budget of what they
hold, and where nothing is left to take, reading fails.  Every step into a
nested expression has a smaller budget, so the recursion is on the budget.
-/

namespace OData.Expr

open Token (Kind)
open SyntaxError (Cause)

/-- Why no expression could be read, and the kinds from the offending one on. -/
structure Failure where
  cause : Cause
  rest : List Kind
deriving DecidableEq

/-- Reads a value off the front of a list of kinds and returns what is left. -/
abbrev Reader (α : Type) :=
  List Kind → Except Failure (α × List Kind)

/-- Readers of whole expressions for every budget below `budget`. -/
abbrev Below (budget : Nat) :=
  (smaller : Nat) → smaller < budget → Reader Expr

/-- The readers below a smaller budget. -/
def Below.lower {budget smaller : Nat} (below : Below budget)
    (le : smaller ≤ budget) : Below smaller :=
  fun smallest lt => below smallest (Nat.lt_of_lt_of_le lt le)

/-- A reader for the expressions of one precedence level, given the budget it
works within and readers for what is nested. -/
abbrev Level :=
  (budget : Nat) → Below budget → Reader Expr

/-- The kind that stands next. -/
def next (kinds : List Kind) : Kind :=
  kinds.head?.getD .endOfInput

/-! ## Operands -/

/-- Read an expression one level deeper. -/
def nested : Level
  | 0, _ => fun kinds => .error ⟨.nestedTooDeeply, kinds⟩
  | budget + 1, below => below budget (Nat.lt_succ_self budget)

/-- Read a closing parenthesis after a value that has been read. -/
def closing {α : Type} (value : α) : Reader α
  | .rightParen :: kinds => .ok (value, kinds)
  | kinds => .error ⟨.expected .rightParen (next kinds), kinds⟩

/-- Read one or more items with commas between them.  Each item takes a kind,
so as many rounds as there are kinds are enough. -/
def commaSeparated (item : Reader Expr) : (rounds : Nat) → Reader (List Expr)
  | 0, kinds => .error ⟨.unexpectedEnd, kinds⟩
  | rounds + 1, kinds => do
      let (first, kinds) ← item kinds
      match kinds with
      | .comma :: kinds =>
          let (others, kinds) ← commaSeparated item rounds kinds
          return (first :: others, kinds)
      | _ => return ([first], kinds)

/-- Read the arguments of a call after its opening parenthesis.  The call
takes from the budget even if it has no arguments. -/
def arguments (budget : Nat) (below : Below budget) : Reader (List Expr)
  | .rightParen :: kinds =>
      if budget = 0 then
        .error ⟨.nestedTooDeeply, .rightParen :: kinds⟩
      else
        .ok ([], .rightParen :: kinds)
  | kinds => commaSeparated (nested budget below) (kinds.length + 1) kinds

/-- Read an operand: an expression in parentheses, a call, a property or a
literal.  The name of a function has no slash. -/
def operand : Level := fun budget below kinds =>
  match kinds with
  | .leftParen :: kinds => do
      let (inner, kinds) ← nested budget below kinds
      closing inner kinds
  | .path name :: .leftParen :: rest =>
      if name.toList.contains '/' then
        .error ⟨.invalidFunctionName name, kinds⟩
      else do
        let (args, rest) ← arguments budget below rest
        closing (call name args) rest
  | .path text :: rest =>
      match Path.read? text with
      | some path => .ok (property path, rest)
      | none => .error ⟨.invalidPath text, kinds⟩
  | .literal value :: rest => .ok (literal value, rest)
  | [] => .error ⟨.unexpectedEnd, []⟩
  | found :: _ => .error ⟨.notAnOperand found, kinds⟩

/-! ## Operators -/

/-- The prefix operator of a kind. -/
def prefixOperator? : Kind → Option UnaryOperator
  | .not => some .not
  | .minus => some .neg
  | _ => none

/-- The binary operator of a kind, if it is one of `ops`. -/
def operatorIn? (ops : List BinaryOperator) : Kind → Option BinaryOperator
  | .operator op => if op ∈ ops then some op else none
  | _ => none

/-- Read an operand with the prefix operators in front of it. -/
def prefixed : Level
  | budget, below, [] => operand budget below []
  | budget, below, kind :: kinds =>
      match prefixOperator? kind, budget, below with
      | none, budget, below => operand budget below (kind :: kinds)
      | some _, 0, _ => .error ⟨.nestedTooDeeply, kinds⟩
      | some op, budget + 1, below => do
          let (inner, kinds) ← prefixed budget (below.lower (Nat.le_succ budget)) kinds
          return (unary op inner, kinds)

/-- Fold further operands of a chain into its first, from the left. -/
def folded (ops : List BinaryOperator) (level : Level) (left : Expr) : Level
  | _, _, [] => .ok (left, [])
  | budget, below, kind :: kinds =>
      match operatorIn? ops kind, budget, below with
      | none, _, _ => .ok (left, kind :: kinds)
      | some _, 0, _ => .error ⟨.nestedTooDeeply, kind :: kinds⟩
      | some op, budget + 1, below => do
          let below := below.lower (Nat.le_succ budget)
          let (right, kinds) ← level budget below kinds
          folded ops level (binary op left right) budget below kinds

/-- Read a chain of operands of a stronger level. -/
def chain (ops : List BinaryOperator) (level : Level) : Level :=
  fun budget below kinds => do
    let (first, kinds) ← level budget below kinds
    folded ops level first budget below kinds

/-- The operators of comparisons. -/
def comparisons : List BinaryOperator :=
  [.eq, .ne, .gt, .ge, .lt, .le]

/-- Read one operand of a stronger level, or two with a comparison between
them. -/
def compared (level : Level) : Level := fun budget below kinds => do
  let (left, kinds) ← level budget below kinds
  match kinds with
  | [] => return (left, [])
  | kind :: rest =>
      match operatorIn? comparisons kind with
      | none => return (left, kinds)
      | some op =>
          let (right, rest) ← level budget below rest
          if (operatorIn? comparisons (next rest)).isSome then
            .error ⟨.chainedComparison, rest⟩
          else
            return (binary op left right, rest)

/-- Read a product. -/
def product : Level :=
  chain [.mul, .div, .mod] prefixed

/-- Read a sum. -/
def sum : Level :=
  chain [.add, .sub] product

/-- Read a comparison. -/
def comparison : Level :=
  compared sum

/-- Read a conjunction. -/
def conjunction : Level :=
  chain [.and] comparison

/-- Read a disjunction, which is any expression. -/
def disjunction : Level :=
  chain [.or] conjunction

/-- Read an expression within a budget. -/
def expression (budget : Nat) : Reader Expr :=
  disjunction budget fun smaller _ => expression smaller
  termination_by budget

/-- An expression is a disjunction of which the nested expressions are read
within smaller budgets. -/
theorem expression_eq (budget : Nat) :
    expression budget = disjunction budget fun smaller _ => expression smaller := by
  rw [expression]

/-! ## Whole filters -/

/-- Read a whole list of kinds as one expression. -/
def ofKinds (budget : Nat) (kinds : List Kind) : Except Failure Expr := do
  let (expr, rest) ← expression budget kinds
  match rest with
  | [] => return expr
  | found :: _ => .error ⟨.leftover found, rest⟩

/-- The kinds of the tokens before the one that ends a list. -/
def kindsOf (tokens : List Token) : List Kind :=
  (tokens.map Token.kind).takeWhile (· ≠ .endOfInput)

/-- Read tokens as one expression.  Errors are located at the offending
token. -/
def ofTokens (maxNesting : Nat) (tokens : List Token) : Except SyntaxError Expr :=
  let kinds := kindsOf tokens
  (ofKinds maxNesting kinds).mapError fun failure =>
    let index := kinds.length - failure.rest.length
    ⟨.filter, tokens[index]?.map Token.start, failure.cause⟩

/-- The nesting that filters have if nothing else is asked for. -/
def defaultMaxNesting : Nat :=
  256

/-- Read the text of a filter.  A blank text is no filter. -/
def read (maxNesting : Nat) (source : String) : Except SyntaxError (Option Expr) :=
  if Text.trim source.toList = [] then
    .ok none
  else do
    let tokens ← Token.tokenize source
    some <$> ofTokens maxNesting tokens

end OData.Expr
