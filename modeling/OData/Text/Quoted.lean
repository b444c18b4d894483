/-!
# Quoted text

A text in quotes writes a quote inside it twice.  `splitQuoted` finds where a
quoted text ends: at the first quote that is not followed by a second one.
`undouble` reads the text between the quotes and `double` writes it.
-/

namespace OData.Text

/-- Write every quote twice. -/
def double : List Char → List Char
  | [] => []
  | c :: text => if c = '\'' then '\'' :: '\'' :: double text else c :: double text

/-- Read two quotes in a row as one. -/
def undouble : List Char → List Char
  | '\'' :: '\'' :: text => '\'' :: undouble text
  | c :: text => c :: undouble text
  | [] => []

/-- Split after an opening quote: the text up to the closing quote, with
its quotes still doubled, and what follows that quote.  There is no result
without a closing quote. -/
def splitQuoted : List Char → Option (List Char × List Char)
  | [] => none
  | '\'' :: '\'' :: text =>
      (splitQuoted text).map fun (body, rest) => ('\'' :: '\'' :: body, rest)
  | '\'' :: rest => some ([], rest)
  | c :: text => (splitQuoted text).map fun (body, rest) => (c :: body, rest)

/-- A text in quotes. -/
def quote (text : List Char) : List Char :=
  '\'' :: double text ++ ['\'']

@[simp]
theorem double_nil : double [] = [] :=
  rfl

/-- Reading undoes writing. -/
@[simp]
theorem undouble_double (text : List Char) : undouble (double text) = text := by
  induction text with
  | nil => rfl
  | cons c text ih =>
      by_cases isQuote : c = '\'' <;> simp [double, undouble, isQuote, ih]

/-- Splitting loses nothing but the closing quote. -/
theorem append_of_splitQuoted {text body rest : List Char}
    (split : splitQuoted text = some (body, rest)) :
    body ++ '\'' :: rest = text := by
  fun_induction splitQuoted text generalizing body with
  | case1 => cases split
  | case2 text ih =>
      simp only [Option.map_eq_some_iff, Prod.exists, Prod.mk.injEq] at split
      obtain ⟨inner, _, found, rfl, rfl⟩ := split
      simp [ih found]
  | case3 =>
      simp only [Option.some.injEq, Prod.mk.injEq] at split
      obtain ⟨rfl, rfl⟩ := split
      rfl
  | case4 c text _ _ ih =>
      simp only [Option.map_eq_some_iff, Prod.exists, Prod.mk.injEq] at split
      obtain ⟨inner, _, found, rfl, rfl⟩ := split
      simp [ih found]

end OData.Text
