import OData.Expr.Reader
import OData.Logged
import OData.Query.Basic
import OData.Query.Options
import OData.Query.Terms
import OData.Text.Folding

/-!
# Reading queries

One reader for each option, and `Query.read` for all six.  The options are
read in the order of `Part.all`; the first that cannot be read decides the
error.
-/

namespace OData.Query

open Text
open SyntaxError (Cause)

/-! ## Lists -/

/-- Refuse a term of a list. -/
def refuse {α : Type} (part : Part) (term : Term) (cause : Cause) : Except SyntaxError α :=
  .error ⟨part, some term.offset, cause⟩

/-- Read the path of a term. -/
def readPath (part : Part) (term : Term) (text : List Char) : Except SyntaxError Path :=
  match Path.read? (String.ofList text) with
  | some path => .ok path
  | none => refuse part term (.invalidPath (String.ofList text))

/-- Whether a text is a path up to case folding. -/
def foldsToPath (text : List Char) : Bool :=
  (text.splitOn '/').all fun segment =>
    segment ≠ [] && segment.all fun c => (foldCase c).isAlphanum

/-- The direction for a keyword.  The keyword is known up to case folding, but
only an ASCII spelling of `desc` turns the order around. -/
def direction? (keyword : List Char) : Option Direction :=
  if foldsTo "asc" keyword || foldsTo "desc" keyword then
    some (if equalsIgnoringAsciiCase "desc" keyword then .desc else .asc)
  else
    none

/-- The direction at the end of a term, after its path.  Without a keyword it
is ascending. -/
def directionAfter? (after : List Char) : Option Direction :=
  if after = [] then some .asc else direction? (after.dropWhile isBlank)

/-- Read a term to order by: a path, then perhaps blanks and a direction. -/
def readOrderTerm (term : Term) : Except SyntaxError OrderTerm :=
  let word := term.text.takeWhile fun c => !isBlank c
  let after := term.text.dropWhile fun c => !isBlank c
  match directionAfter? after, foldsToPath word with
  | some direction, true =>
      (readPath .orderBy term word).map fun path => ⟨path, direction⟩
  | _, _ => refuse .orderBy term (.invalidOrdering (String.ofList term.text))

/-- Read a term to select: a star or a path. -/
def readSelectTerm (term : Term) : Except SyntaxError SelectTerm :=
  if term.text = ['*'] then
    .ok .wildcard
  else if Path.fits term.text then
    (readPath .select term term.text).map .property
  else
    refuse .select term (.invalidSelection (String.ofList term.text))

/-- Read a term to expand: a path. -/
def readExpandTerm (term : Term) : Except SyntaxError Path :=
  if Path.fits term.text then
    readPath .expand term term.text
  else
    refuse .expand term (.invalidExpansion (String.ofList term.text))

/-- Read the terms to order by. -/
def readOrderBy (raw : String) : Except SyntaxError (List OrderTerm) :=
  (terms raw).mapM readOrderTerm

/-- Read the terms to select. -/
def readSelect (raw : String) : Except SyntaxError (List SelectTerm) :=
  (terms raw).mapM readSelectTerm

/-- Read the terms to expand. -/
def readExpand (raw : String) : Except SyntaxError (List Path) :=
  (terms raw).mapM readExpandTerm

/-! ## Numbers -/

/-- Numbers lie below this bound, two to the 64th power. -/
def numberBound : Nat :=
  18446744073709551616

/-- The value of a numeral: digits, of which the first is a zero only if it is
the only one. -/
def numeralValue? (text : List Char) : Option Nat :=
  if text.all Char.isDigit ∧ (text.head? = some '0' → text = ['0']) then
    some (Nat.ofDigitChars 10 text 0)
  else
    none

/-- Read a number.  A blank text is no number. -/
def readNumber (part : Part) (raw : String) : Except SyntaxError (Option Nat) :=
  let text := trim raw.toList
  if text = [] then
    .ok none
  else
    match (numeralValue? text).filter (· < numberBound) with
    | some value => .ok (some value)
    | none => .error ⟨part, none, .notAnInteger (String.ofList text)⟩

/-- Read how many results to return.  None at all is not a choice. -/
def readTop (raw : String) : Except SyntaxError (Option Nat) := do
  let top ← readNumber .top raw
  if top = some 0 then
    .error ⟨.top, none, .zeroTop⟩
  else
    return top

/-- Read how many results to leave out. -/
def readSkip (raw : String) : Except SyntaxError (Option Nat) :=
  readNumber .skip raw

/-! ## Whole queries -/

/-- Tell that an option has been read, if it has. -/
def readOption {α : Type} (part : Part) (outcome : Except SyntaxError α) :
    Logged SyntaxError α := do
  let value ← Logged.ofExcept outcome
  Logged.tell (.readOption part)
  return value

/-- Read the options one after the other. -/
def readOptions (maxNesting : Nat) (options : Options) : Logged SyntaxError Query := do
  let filter ← readOption .filter (Expr.read maxNesting options.filter)
  let orderBy ← readOption .orderBy (readOrderBy options.orderBy)
  let top ← readOption .top (readTop options.top)
  let skip ← readOption .skip (readSkip options.skip)
  let select ← readOption .select (readSelect options.select)
  let expand ← readOption .expand (readExpand options.expand)
  return ⟨filter, orderBy, top, skip, select, expand⟩

/-- Read a query and tell the outcome. -/
def read (maxNesting : Nat) (options : Options) : Logged SyntaxError Query :=
  (readOptions maxNesting options).conclude fun
    | .ok query => [.readQuery query.isEmpty]
    | .error error => [.refusedOption error.part error.message]

end OData.Query
