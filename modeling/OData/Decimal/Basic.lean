/-!
# Decimal numbers

A decimal is an integer coefficient over a power of ten.  The coefficient has
96 bits besides its sign and the power is at most 28.  A number has several
decimals, one for each number of fraction digits it is written with; `same`
compares the numbers.  Zero has no sign, since the coefficient is an integer.
-/

namespace OData

namespace Decimal

/-- Every coefficient lies below this bound, two to the 96th power. -/
def coefficientBound : Nat :=
  79228162514264337593543950336

/-- The largest number of fraction digits. -/
def maxScale : Nat :=
  28

/-- Ten to the power of `scale`: how many units of the last fraction digit
make one. -/
def unit : (scale : Nat) → Nat
  | 0 => 1
  | scale + 1 => 10 * unit scale

theorem unit_pos (scale : Nat) : 0 < unit scale := by
  induction scale with
  | zero => exact Nat.one_pos
  | succ scale ih => exact Nat.mul_pos (by decide) ih

end Decimal

/-- The number `coefficient / unit scale`, written with `scale` fraction
digits. -/
structure Decimal where
  coefficient : Int
  scale : Nat
  coefficient_lt : coefficient.natAbs < Decimal.coefficientBound
  scale_le : scale ≤ Decimal.maxScale
deriving DecidableEq

namespace Decimal

/-- The decimal with these parts, if they are in range. -/
def ofParts? (coefficient : Int) (scale : Nat) : Option Decimal :=
  if inRange : coefficient.natAbs < coefficientBound ∧ scale ≤ maxScale then
    some ⟨coefficient, scale, inRange.1, inRange.2⟩
  else
    none

@[simp]
theorem ofParts?_parts (d : Decimal) : ofParts? d.coefficient d.scale = some d :=
  dif_pos ⟨d.coefficient_lt, d.scale_le⟩

/-- Whether two decimals are the same number. -/
def same (left right : Decimal) : Bool :=
  left.coefficient * unit right.scale == right.coefficient * unit left.scale

@[simp]
theorem same_refl (d : Decimal) : d.same d = true := by
  simp [same]

/-- The number as an integer, if it is one. -/
def toInt? (d : Decimal) : Option Int :=
  if d.coefficient % unit d.scale = 0 then
    some (d.coefficient / unit d.scale)
  else
    none

/-- Integer values need no fraction digits beyond zeros. -/
theorem toInt?_eq_some_iff {d : Decimal} {n : Int} :
    d.toInt? = some n ↔ d.coefficient = n * unit d.scale := by
  have unitPos : (0 : Int) < unit d.scale := Int.natCast_pos.mpr (unit_pos d.scale)
  unfold toInt?
  split
  · next divides =>
      rw [Option.some.injEq]
      have exact := Int.ediv_mul_cancel (Int.dvd_of_emod_eq_zero divides)
      constructor
      · rintro rfl
        exact exact.symm
      · intro value
        rw [value, Int.mul_ediv_cancel _ (Int.ne_of_gt unitPos)]
  · next notDivides =>
      constructor
      · intro impossible
        cases impossible
      · intro value
        exact absurd (by rw [value]; exact Int.mul_emod_left _ _) notDivides

end Decimal

end OData
