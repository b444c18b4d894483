import OData.Decimal.Basic

/-!
# Decimal numerals

A numeral is an optional sign, digits, and optionally a point and more digits.
`read?` keeps every fraction digit, trailing zeros too, as long as the
coefficient and the scale stay in range; the first fraction digit that does
not fit is rounded into the coefficient, a five upwards, and the digits after
it are dropped.  An integer part that does not fit has no decimal.  `write`
writes exactly `scale` fraction digits.
-/

namespace OData.Decimal

/-! ## Writing -/

/-- The last `count` digits of a number, with leading zeros. -/
def paddedDigits : Nat → Nat → List Char
  | 0, _ => []
  | count + 1, n => paddedDigits count (n / 10) ++ [(n % 10).digitChar]

@[simp]
theorem length_paddedDigits (count n : Nat) : (paddedDigits count n).length = count := by
  induction count generalizing n with
  | zero => rfl
  | succ count ih => simp [paddedDigits, ih]

/-- The numeral of a decimal, with exactly `scale` fraction digits. -/
def write (d : Decimal) : List Char :=
  let magnitude := d.coefficient.natAbs
  let sign := if d.coefficient < 0 then ['-'] else []
  let whole := Nat.toDigits 10 (magnitude / unit d.scale)
  let fraction := if d.scale = 0 then [] else '.' :: paddedDigits d.scale magnitude
  sign ++ whole ++ fraction

instance : ToString Decimal where
  toString d := String.ofList d.write

/-! ## Reading -/

/-- The value of a decimal digit. -/
def digitValue (c : Char) : Nat :=
  c.toNat - '0'.toNat

/-- Round by the first digit that is left out: from five on, one is added.  A
coefficient that outgrows its range by that loses its last digit. -/
def round (coefficient scale : Nat) (digit : Char) : Option (Nat × Nat) :=
  if digitValue digit < 5 then
    some (coefficient, scale)
  else if coefficient + 1 < coefficientBound then
    some (coefficient + 1, scale)
  else if scale = 0 then
    none
  else
    some ((coefficient + 5) / 10, scale - 1)

/-- Append fraction digits to a coefficient while they fit, then round. -/
def appendFraction (coefficient scale : Nat) : List Char → Option (Nat × Nat)
  | [] => some (coefficient, scale)
  | digit :: digits =>
      let next := 10 * coefficient + digitValue digit
      if scale < maxScale ∧ next < coefficientBound then
        appendFraction next (scale + 1) digits
      else
        round coefficient scale digit

/-- The sign at the front of a numeral, and the numeral after it. -/
def splitSign : List Char → Bool × List Char
  | '-' :: text => (true, text)
  | '+' :: text => (false, text)
  | text => (false, text)

/-- The fraction digits of what follows the integer part. -/
def fractionDigits? : List Char → Option (List Char)
  | [] => some []
  | '.' :: digits =>
      if digits ≠ [] ∧ digits.all Char.isDigit then some digits else none
  | _ => none

/-- Read a numeral. -/
def read? (text : List Char) : Option Decimal := do
  let (negative, unsigned) := splitSign text
  let whole := unsigned.takeWhile Char.isDigit
  let fraction ← fractionDigits? (unsigned.dropWhile Char.isDigit)
  let integer := Nat.ofDigitChars 10 whole 0
  if whole = [] ∨ coefficientBound ≤ integer then
    none
  else
    let (coefficient, scale) ← appendFraction integer 0 fraction
    ofParts? (if negative then -coefficient else coefficient) scale

end OData.Decimal
