import OData.Expr.Grammar

/-!
# Reading with a cursor and a counter

The readers of expressions hand a budget down and return the kinds that are
left.  A descent reads the same with one cursor and one counter that are moved
on the way: the cursor goes over the tokens and stops at the last of them, the
counter tells how deep the construct at the cursor is nested.  It is raised
before a nested construct is read and lowered behind it, and a chain lowers it
at its end by all of its folds at once.

A run records every state that it passes through.  Nothing in the procedures
says that they end or that the counter can be lowered; a run that goes wrong
ends for a reason of its own, out of rounds or below zero.
-/

namespace OData.Expr

open Token (Kind)
open SyntaxError (Cause)

/-- Tokens to be read as an expression, and how deep it can be nested. -/
structure Descent where
  tokens : List Token
  maxNesting : Nat

namespace Descent

/-! ## Runs -/

/-- Where a run stands: at a token, within as many constructs as `depth`. -/
structure State where
  position : Nat
  depth : Nat
deriving DecidableEq

/-- Why a run ends without a value. -/
inductive Stop
  | refused (error : SyntaxError)
  /-- The depth was to be lowered by more than there is. -/
  | underflow
  /-- There was no round left for a loop or for a nested construct. -/
  | exhausted
deriving DecidableEq

/-- The states that a run passes through behind its first, and its end. -/
structure Run (α : Type) where
  visited : List State
  outcome : Except Stop (α × State)

/-- A run from every state. -/
def Procedure (α : Type) : Type :=
  State → Run α

variable {α β : Type}

/-- Go on where a run ends with a value. -/
def Run.andThen (run : Run α) (more : α → Procedure β) : Run β :=
  match run.outcome with
  | .error stop => ⟨run.visited, .error stop⟩
  | .ok (value, state) =>
      ⟨run.visited ++ (more value state).visited, (more value state).outcome⟩

instance : Monad Procedure where
  pure value := fun state => ⟨[], .ok (value, state)⟩
  bind first more := fun state => (first state).andThen more

/-- End a run. -/
def stop (reason : Stop) : Procedure α :=
  fun _ => ⟨[], .error reason⟩

/-- Pass to another state. -/
def goTo (state : State) : Procedure Unit :=
  fun _ => ⟨[state], .ok ((), state)⟩

/-- Lower the depth. -/
def lower (levels : Nat) : Procedure Unit := fun state =>
  if levels ≤ state.depth then
    goTo ⟨state.position, state.depth - levels⟩ state
  else
    stop .underflow state

section

variable (descent : Descent)

/-! ## Tokens -/

/-- The token at a position, or the last one if the position lies behind it. -/
def tokenAt? (position : Nat) : Option Token :=
  descent.tokens[min position (descent.tokens.length - 1)]?

/-- The kind of the token at a position. -/
def kindAt (position : Nat) : Kind :=
  ((descent.tokenAt? position).map Token.kind).getD .endOfInput

/-- The kind of the token at the cursor. -/
def current : Procedure Kind :=
  fun state => ⟨[], .ok (descent.kindAt state.position, state)⟩

/-- The kind of the token behind the one at the cursor, if there is one. -/
def peek? : Procedure (Option Kind) :=
  fun state => ⟨[], .ok (descent.tokens[state.position + 1]?.map Token.kind, state)⟩

/-- Where the token at the cursor starts. -/
def offset? : Procedure (Option Nat) :=
  fun state => ⟨[], .ok ((descent.tokenAt? state.position).map Token.start, state)⟩

/-- Refuse the tokens at an offset. -/
def refuseAt (offset : Option Nat) (cause : Cause) : Procedure α :=
  stop (.refused ⟨.filter, offset, cause⟩)

/-- Refuse the token at the cursor. -/
def refuse (cause : Cause) : Procedure α := do
  refuseAt (← descent.offset?) cause

/-- Move the cursor to the next token, unless it stands at the last. -/
def advance : Procedure Unit := fun state =>
  if state.position < descent.tokens.length - 1 then
    goTo ⟨state.position + 1, state.depth⟩ state
  else
    goTo state state

/-- Move behind a token of this kind, if there is one at the cursor. -/
def consume (kind : Kind) : Procedure Bool := do
  if (← descent.current) = kind then
    descent.advance
    return true
  else
    return false

/-- Move behind a token of this kind. -/
def expect (kind : Kind) : Procedure Unit := do
  unless ← descent.consume kind do
    descent.refuse (.expected kind (← descent.current))

/-! ## Nesting -/

/-- Raise the depth, which is refused beyond the limit. -/
def enter : Procedure Unit := fun state =>
  let deeper : State := ⟨state.position, state.depth + 1⟩
  if descent.maxNesting < deeper.depth then
    (goTo deeper >>= fun _ => descent.refuse .nestedTooDeeply) state
  else
    goTo deeper state

/-- Read something one level deeper. -/
def nested (inner : Procedure α) : Procedure α := do
  descent.enter
  let value ← inner
  lower 1
  return value

/-! ## Operands -/

/-- One round of reading arguments: an argument, and whether a comma follows. -/
def argumentRound (expression : Procedure Expr) : Procedure (Expr × Bool) := do
  let argument ← expression
  let goesOn ← descent.consume .comma
  return (argument, goesOn)

/-- Read one or more arguments with commas between them. -/
def arguments (expression : Procedure Expr) : (rounds : Nat) → Procedure (List Expr)
  | 0 => stop .exhausted
  | rounds + 1 => do
      let (argument, goesOn) ← descent.argumentRound expression
      if goesOn then
        let others ← arguments expression rounds
        return argument :: others
      else
        return [argument]

/-- Read the arguments of a call, if there are any. -/
def argumentList (expression : Procedure Expr) (rounds : Nat) : Procedure (List Expr) := do
  if (← descent.current) = .rightParen then
    return []
  else
    descent.arguments expression rounds

/-- Read a call of a function with this name, which stands at the cursor. -/
def callOf (expression : Procedure Expr) (rounds : Nat) (name : String) : Procedure Expr := do
  if name.toList.contains '/' then
    descent.refuse (.invalidFunctionName name)
  else
    descent.advance
    descent.advance
    let args ← descent.nested (descent.argumentList expression rounds)
    descent.expect .rightParen
    return call name args

/-- Read the property with this name, which stands at the cursor. -/
def propertyOf (name : String) : Procedure Expr := do
  let offset ← descent.offset?
  descent.advance
  match Path.read? name with
  | some path => return property path
  | none => refuseAt offset (.invalidPath name)

/-- Read an operand. -/
def operand (expression : Procedure Expr) (rounds : Nat) : Procedure Expr := do
  match ← descent.current with
  | .leftParen =>
      descent.advance
      let inner ← descent.nested expression
      descent.expect .rightParen
      return inner
  | .path text =>
      if (← descent.peek?) = some .leftParen then
        descent.callOf expression rounds text
      else
        descent.propertyOf text
  | .literal value =>
      descent.advance
      return literal value
  | .endOfInput => descent.refuse .unexpectedEnd
  | found => descent.refuse (.notAnOperand found)

/-! ## Operators -/

/-- Read an operand with the prefix operators in front of it. -/
def prefixed (operand : Procedure Expr) : (rounds : Nat) → Procedure Expr
  | 0 => stop .exhausted
  | rounds + 1 => do
      match prefixOperator? (← descent.current) with
      | none => operand
      | some op =>
          descent.advance
          let inner ← descent.nested (prefixed operand rounds)
          return unary op inner

/-- One round of reading a chain: the operator at the cursor, which leads one
level deeper, and the operand behind it. -/
def foldRound (operand : Procedure Expr) : Procedure Expr := do
  descent.enter
  descent.advance
  operand

/-- Fold further operands of a chain into its first, from the left.  The last
round leaves all levels of the folds at once. -/
def folded (ops : List BinaryOperator) (operand : Procedure Expr) :
    (rounds folds : Nat) → Expr → Procedure Expr
  | 0, _, _ => stop .exhausted
  | rounds + 1, folds, left => do
      match operatorIn? ops (← descent.current) with
      | none =>
          lower folds
          return left
      | some op =>
          let right ← descent.foldRound operand
          folded ops operand rounds (folds + 1) (binary op left right)

/-- Read a chain of operands. -/
def chain (ops : List BinaryOperator) (operand : Procedure Expr) (rounds : Nat) :
    Procedure Expr := do
  let first ← operand
  descent.folded ops operand rounds 0 first

/-- Read one operand, or two with a comparison between them. -/
def compared (operand : Procedure Expr) : Procedure Expr := do
  let left ← operand
  match operatorIn? comparisons (← descent.current) with
  | none => return left
  | some op =>
      descent.advance
      let right ← operand
      if (operatorIn? comparisons (← descent.current)).isSome then
        descent.refuse .chainedComparison
      else
        return binary op left right

/-! ## Expressions -/

section

variable (expression : Procedure Expr) (rounds : Nat)

/-- Read an operand with its prefix operators. -/
def factor : Procedure Expr :=
  descent.prefixed (descent.operand expression rounds) rounds

/-- Read a product. -/
def product : Procedure Expr :=
  descent.chain [.mul, .div, .mod] (descent.factor expression rounds) rounds

/-- Read a sum. -/
def sum : Procedure Expr :=
  descent.chain [.add, .sub] (descent.product expression rounds) rounds

/-- Read a comparison. -/
def comparison : Procedure Expr :=
  descent.compared (descent.sum expression rounds)

/-- Read a conjunction. -/
def conjunction : Procedure Expr :=
  descent.chain [.and] (descent.comparison expression rounds) rounds

/-- Read a disjunction, which is any expression. -/
def disjunction : Procedure Expr :=
  descent.chain [.or] (descent.conjunction expression rounds) rounds

/-- Read what a rank stands for, given a procedure for nested expressions. -/
def ranked : Rank → Procedure Expr
  | .operand => descent.operand expression rounds
  | .prefixed => descent.factor expression rounds
  | .product => descent.product expression rounds
  | .sum => descent.sum expression rounds
  | .comparison => descent.comparison expression rounds
  | .conjunction => descent.conjunction expression rounds
  | .disjunction => descent.disjunction expression rounds

end

/-- Read what a rank stands for, with one round less for nested expressions. -/
def procedure : (rounds : Nat) → Rank → Procedure Expr
  | 0, _ => stop .exhausted
  | rounds + 1, rank => descent.ranked (procedure rounds .disjunction) (rounds + 1) rank

/-- Read all tokens as one expression, with as many rounds as there are tokens. -/
def parse : Run Expr :=
  let whole : Procedure Expr := do
    let expr ← descent.procedure descent.tokens.length .disjunction
    match ← descent.current with
    | .endOfInput => return expr
    | found => descent.refuse (.leftover found)
  whole ⟨0, 0⟩

end

end Descent

end OData.Expr
