import Mathlib.Data.List.TakeWhile
import OData.Decimal.Numeral

/-!
# Numerals of decimals

A decimal is read back from its numeral, scale and all.  The coefficients that
arise while the fraction digits are appended are never larger than the one that
is reached in the end, so every digit fits and nothing is rounded.
-/

namespace OData.Decimal

/-! ## Digits -/

theorem isDigit_of_mem_paddedDigits {count n : Nat} {c : Char}
    (member : c ∈ paddedDigits count n) : c.isDigit := by
  induction count generalizing n with
  | zero => cases member
  | succ count ih =>
      rcases List.mem_append.mp member with earlier | last
      · exact ih earlier
      · rw [List.mem_singleton.mp last, Nat.isDigit_digitChar]
        exact decide_eq_true (Nat.mod_lt n (by decide))

/-- Padded digits stand for the last digits of a number. -/
theorem ofDigitChars_paddedDigits (count n start : Nat) :
    Nat.ofDigitChars 10 (paddedDigits count n) start = start * unit count + n % unit count := by
  induction count generalizing n with
  | zero => simp [paddedDigits, unit, Nat.mod_one]
  | succ count ih =>
      have lastDigit : n % 10 < 10 := Nat.mod_lt n (by decide)
      calc Nat.ofDigitChars 10 (paddedDigits (count + 1) n) start
          = 10 * (start * unit count + n / 10 % unit count) + n % 10 := by
            rw [paddedDigits, Nat.ofDigitChars_append, ih,
              Nat.ofDigitChars_cons_digitChar_of_lt_ten lastDigit, Nat.ofDigitChars_nil]
        _ = start * (10 * unit count) + (n % 10 + 10 * (n / 10 % unit count)) := by
            rw [Nat.mul_add, Nat.mul_left_comm 10 start]
            omega
        _ = start * unit (count + 1) + n % unit (count + 1) := by
            rw [unit, Nat.mod_mul]

theorem le_ofDigitChars (digits : List Char) (start : Nat) :
    start ≤ Nat.ofDigitChars 10 digits start := by
  induction digits generalizing start with
  | nil => exact Nat.le_refl start
  | cons digit digits ih =>
      rw [Nat.ofDigitChars_cons]
      have rest := ih (10 * start + (digit.toNat - '0'.toNat))
      omega

/-! ## Reading -/

/-- Fraction digits are appended one by one if the last coefficient and the
last scale are in range. -/
theorem appendFraction_eq_some {coefficient scale : Nat} {digits : List Char}
    (coefficientFits : Nat.ofDigitChars 10 digits coefficient < coefficientBound)
    (scaleFits : scale + digits.length ≤ maxScale) :
    appendFraction coefficient scale digits =
      some (Nat.ofDigitChars 10 digits coefficient, scale + digits.length) := by
  induction digits generalizing coefficient scale with
  | nil => rfl
  | cons digit digits ih =>
      rw [Nat.ofDigitChars_cons] at coefficientFits ⊢
      rw [List.length_cons] at scaleFits ⊢
      have next := Nat.lt_of_le_of_lt (le_ofDigitChars digits _) coefficientFits
      have room : scale < maxScale := by omega
      rw [appendFraction, if_pos ⟨room, next⟩, digitValue, ih coefficientFits (by omega),
        Nat.add_right_comm scale 1, Nat.add_assoc scale]

/-! ## The parts of a numeral -/

/-- The sign of a numeral. -/
def signText (d : Decimal) : List Char :=
  if d.coefficient < 0 then ['-'] else []

/-- The digits of a numeral before its point. -/
def wholeText (d : Decimal) : List Char :=
  Nat.toDigits 10 (d.coefficient.natAbs / unit d.scale)

/-- The digits of a numeral after its point. -/
def fractionDigits (d : Decimal) : List Char :=
  paddedDigits d.scale d.coefficient.natAbs

/-- The point of a numeral and the digits after it. -/
def fractionText (d : Decimal) : List Char :=
  if d.scale = 0 then [] else '.' :: d.fractionDigits

theorem write_eq_append (d : Decimal) :
    d.write = d.signText ++ (d.wholeText ++ d.fractionText) :=
  List.append_assoc _ _ _

theorem wholeText_ne_nil (d : Decimal) : d.wholeText ≠ [] :=
  Nat.toDigits_ne_nil

theorem isDigit_of_mem_wholeText {d : Decimal} {c : Char} (member : c ∈ d.wholeText) :
    c.isDigit :=
  Nat.isDigit_of_mem_toDigits (by decide) (by decide) member

/-- A fraction is nothing or a point with digits after it. -/
theorem fractionText_cases (d : Decimal) :
    (d.fractionDigits = [] ∧ d.fractionText = []) ∨
      (d.fractionDigits ≠ [] ∧ d.fractionText = '.' :: d.fractionDigits) := by
  have length : d.fractionDigits.length = d.scale := length_paddedDigits _ _
  unfold fractionText
  by_cases scale : d.scale = 0
  · exact .inl ⟨List.length_eq_zero_iff.mp (length.trans scale), if_pos scale⟩
  · have nonempty : d.fractionDigits ≠ [] := by
      intro empty
      rw [empty] at length
      exact scale length.symm
    exact .inr ⟨nonempty, if_neg scale⟩

theorem isDigit_of_mem_fractionDigits {d : Decimal} {c : Char}
    (member : c ∈ d.fractionDigits) : c.isDigit :=
  isDigit_of_mem_paddedDigits member

/-- Digits end where something follows that is not a digit. -/
theorem span_digits {digits rest : List Char} (areDigits : ∀ c ∈ digits, c.isDigit)
    (restEnds : ¬ rest.head?.any Char.isDigit) :
    (digits ++ rest).takeWhile Char.isDigit = digits ∧
      (digits ++ rest).dropWhile Char.isDigit = rest := by
  rw [List.takeWhile_append_of_pos areDigits, List.dropWhile_append_of_pos areDigits]
  cases rest with
  | nil => simp
  | cons c rest => simpa using restEnds

/-- The digits before the point end where the fraction begins. -/
theorem span_wholeText (d : Decimal) {rest : List Char}
    (restEnds : ¬ rest.head?.any Char.isDigit) :
    (d.wholeText ++ (d.fractionText ++ rest)).takeWhile Char.isDigit = d.wholeText ∧
      (d.wholeText ++ (d.fractionText ++ rest)).dropWhile Char.isDigit =
        d.fractionText ++ rest := by
  apply span_digits fun c => isDigit_of_mem_wholeText
  rcases d.fractionText_cases with ⟨_, none⟩ | ⟨_, some⟩
  · rwa [none]
  · have noDigit : '.'.isDigit = false := by decide
    simp [some, noDigit]

theorem fractionDigits?_fractionText (d : Decimal) :
    fractionDigits? d.fractionText = some d.fractionDigits := by
  rcases d.fractionText_cases with ⟨digits, none⟩ | ⟨nonempty, some⟩
  · rw [none, digits, fractionDigits?]
  · have valid : d.fractionDigits.all Char.isDigit :=
      List.all_eq_true.mpr fun c => isDigit_of_mem_fractionDigits
    rw [some, fractionDigits?, if_pos ⟨nonempty, valid⟩]

/-- The digits of a numeral stand for the coefficient without its sign. -/
theorem ofDigitChars_texts (d : Decimal) :
    Nat.ofDigitChars 10 d.fractionDigits (Nat.ofDigitChars 10 d.wholeText 0) =
      d.coefficient.natAbs := by
  rw [fractionDigits, ofDigitChars_paddedDigits, wholeText, Nat.ofDigitChars_ten_toDigits]
  exact Nat.div_add_mod' _ _

/-- The sign of a numeral is told apart from its digits. -/
theorem splitSign_write (d : Decimal) :
    splitSign d.write = (decide (d.coefficient < 0), d.wholeText ++ d.fractionText) := by
  rw [write_eq_append, signText]
  by_cases negative : d.coefficient < 0
  · simp [negative, splitSign]
  · rw [if_neg negative, decide_eq_false negative, List.nil_append]
    cases digits : d.wholeText with
    | nil => exact absurd digits d.wholeText_ne_nil
    | cons c more =>
        have isDigit : c.isDigit := isDigit_of_mem_wholeText (digits ▸ List.mem_cons_self)
        rw [List.cons_append]
        unfold splitSign
        split
        · next equal => cases equal; exact absurd isDigit (by decide)
        · next equal => cases equal; exact absurd isDigit (by decide)
        · rfl

/-- A decimal is read back from its numeral. -/
@[simp]
theorem read?_write (d : Decimal) : read? d.write = some d := by
  have spans := span_wholeText d (by simp : ¬ ([] : List Char).head?.any Char.isDigit)
  rw [List.append_nil] at spans
  have digits := d.ofDigitChars_texts
  have wholeFits : Nat.ofDigitChars 10 d.wholeText 0 < coefficientBound :=
    Nat.lt_of_le_of_lt (le_ofDigitChars d.fractionDigits _) (digits ▸ d.coefficient_lt)
  have scale : 0 + d.fractionDigits.length = d.scale := by
    rw [fractionDigits, length_paddedDigits, Nat.zero_add]
  have appended : appendFraction (Nat.ofDigitChars 10 d.wholeText 0) 0 d.fractionDigits =
      some (d.coefficient.natAbs, d.scale) := by
    rw [appendFraction_eq_some (digits ▸ d.coefficient_lt) (scale ▸ d.scale_le), digits, scale]
  have sign : (if decide (d.coefficient < 0) then -(d.coefficient.natAbs : Int)
      else d.coefficient.natAbs) = d.coefficient := by
    by_cases negative : d.coefficient < 0
    · rw [decide_eq_true negative, if_pos rfl]
      omega
    · rw [decide_eq_false negative, if_neg Bool.false_ne_true]
      omega
  have fits : ¬ (d.wholeText = [] ∨ coefficientBound ≤ Nat.ofDigitChars 10 d.wholeText 0) := by
    rintro (empty | tooLarge)
    · exact d.wholeText_ne_nil empty
    · exact absurd wholeFits (Nat.not_lt.mpr tooLarge)
  simp only [read?, splitSign_write, spans.1, spans.2, fractionDigits?_fractionText,
    Option.bind_eq_bind, Option.bind_some, if_neg fits, appended, sign, ofParts?_parts]

end OData.Decimal
