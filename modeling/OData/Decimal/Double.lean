import OData.Decimal.Basic

/-!
# Decimals as doubles

Where a decimal has to be given as an IEEE-754 double, an integer is rounded
once, to the nearest double with ties to even.  Any other number is put
together from the doubles of its integer part and of its fraction and then
rounded to `scale` places in double arithmetic; every step rounds, so the
result can differ from the nearest double.
-/

namespace OData.Decimal

/-- A nonnegative double rounded to multiples of `1 / units`, halves
upwards. -/
def roundToUnits (units value : Float) : Float :=
  (value * units).round / units

/-- The double for the number `magnitude / unit scale`. -/
def magnitudeToDouble (magnitude scale : Nat) : Float :=
  let units := unit scale
  let whole := Float.ofNat (magnitude / units)
  let fraction := Float.ofNat (magnitude % units) / Float.ofNat units
  if scale = 0 ∨ fraction == 0 then
    whole
  else
    roundToUnits (Float.ofNat units) (whole + fraction)

/-- The double for a decimal. -/
def toDouble (d : Decimal) : Float :=
  let magnitude := magnitudeToDouble d.coefficient.natAbs d.scale
  if d.coefficient < 0 then -magnitude else magnitude

end OData.Decimal
