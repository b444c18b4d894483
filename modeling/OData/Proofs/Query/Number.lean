import OData.Proofs.Query.Reading
import OData.Proofs.Query.Selection

/-!
# Numbers in options

The numbers of results to return and to leave out are read from their decimal
numerals and from nothing else.  A numeral is what a number is written as, with
no sign and no zero in front, so a number has one spelling besides the blanks
around it.  Both options take the numbers of 64 bits, and the number of results
to return is not zero.
-/

namespace OData.Query

open Text

/-! ## Digits -/

theorem digitChar_toNat_sub {c : Char} (isDigit : c.isDigit) : (c.toNat - 48).digitChar = c := by
  rw [isDigit_iff_toNat] at isDigit
  have small : c.toNat - 48 < 10 := by omega
  have sameCode : (c.toNat - 48).digitChar.toNat = c.toNat := by
    rw [Nat.toNat_digitChar_of_lt_ten small]
    omega
  exact Char.toNat_inj.mp sameCode

/-- Digits behind a number that is not zero are written behind its own. -/
theorem toDigits_ofDigitChars {digits : List Char} (areDigits : ∀ c ∈ digits, c.isDigit)
    {start : Nat} (positive : 0 < start) :
    Nat.toDigits 10 (Nat.ofDigitChars 10 digits start) = Nat.toDigits 10 start ++ digits := by
  induction digits generalizing start with
  | nil => rw [Nat.ofDigitChars_nil, List.append_nil]
  | cons c digits ih =>
      rcases List.forall_mem_cons.mp areDigits with ⟨isDigit, others⟩
      have codes := isDigit_iff_toNat.mp isDigit
      have small : c.toNat - 48 < 10 := by omega
      calc Nat.toDigits 10 (Nat.ofDigitChars 10 (c :: digits) start)
          = Nat.toDigits 10 (10 * start + (c.toNat - 48)) ++ digits := by
            rw [Nat.ofDigitChars_cons]
            exact ih others (by omega)
        _ = Nat.toDigits 10 start ++ Nat.toDigits 10 (c.toNat - 48) ++ digits := by
            rw [Nat.toDigits_append_toDigits (by decide) positive small]
        _ = Nat.toDigits 10 start ++ c :: digits := by
            rw [Nat.toDigits_of_lt_base small, digitChar_toNat_sub isDigit, List.append_assoc,
              List.singleton_append]

/-- A digit that is not zero and the digits behind it are how their value is
written. -/
theorem toDigits_ofDigitChars_cons {c : Char} {digits : List Char} (nonzero : c ≠ '0')
    (areDigits : ∀ d ∈ c :: digits, d.isDigit) :
    Nat.toDigits 10 (Nat.ofDigitChars 10 (c :: digits) 0) = c :: digits := by
  rcases List.forall_mem_cons.mp areDigits with ⟨isDigit, others⟩
  have codes := isDigit_iff_toNat.mp isDigit
  have notZero : c.toNat ≠ 48 := fun isZero => nonzero (Char.toNat_inj.mp isZero)
  have small : c.toNat - 48 < 10 := by omega
  have positive : 0 < 10 * 0 + (c.toNat - 48) := by omega
  calc Nat.toDigits 10 (Nat.ofDigitChars 10 (c :: digits) 0)
      = Nat.toDigits 10 (10 * 0 + (c.toNat - 48)) ++ digits := by
        rw [Nat.ofDigitChars_cons]
        exact toDigits_ofDigitChars others positive
    _ = c :: digits := by
        rw [Nat.mul_zero, Nat.zero_add, Nat.toDigits_of_lt_base small,
          digitChar_toNat_sub isDigit, List.singleton_append]

/-- No number but zero is written with a zero in front. -/
theorem toDigits_eq_zero_of_head? {n : Nat} (zero : (Nat.toDigits 10 n).head? = some '0') :
    Nat.toDigits 10 n = ['0'] := by
  induction n using Nat.strongRecOn with
  | ind n ih =>
      by_cases single : n < 10
      · rw [Nat.toDigits_of_lt_base single] at zero ⊢
        rw [Option.some.inj zero]
      · rw [Nat.toDigits_of_base_le (by decide) (Nat.le_of_not_lt single),
          List.head?_append_of_ne_nil _ Nat.toDigits_ne_nil] at zero
        have front := ih (n / 10) (by omega) zero
        have value : n / 10 = 0 := by
          rw [← Nat.ofDigitChars_ten_toDigits (n := n / 10), front]
          rfl
        omega

/-! ## Numerals -/

/-- The numerals with a value are the texts that numbers are written as. -/
theorem numeralValue?_eq_some_iff {text : List Char} (nonempty : text ≠ []) {n : Nat} :
    numeralValue? text = some n ↔ text = Nat.toDigits 10 n := by
  rw [numeralValue?]
  constructor
  · intro isValue
    split at isValue
    · next canonical =>
        cases isValue
        rcases canonical with ⟨areDigits, noZero⟩
        cases text with
        | nil => exact absurd rfl nonempty
        | cons c digits =>
            by_cases zero : c = '0'
            · rw [noZero (congrArg some zero)]
              rfl
            · exact (toDigits_ofDigitChars_cons zero (List.all_eq_true.mp areDigits)).symm
    · cases isValue
  · rintro rfl
    have areDigits : (Nat.toDigits 10 n).all Char.isDigit :=
      List.all_eq_true.mpr fun c => Nat.isDigit_of_mem_toDigits (by decide) (by decide)
    rw [if_pos ⟨areDigits, toDigits_eq_zero_of_head?⟩, Nat.ofDigitChars_ten_toDigits]

/-- Numerals have no blanks to trim. -/
theorem trim_toDigits (n : Nat) : trim (Nat.toDigits 10 n) = Nat.toDigits 10 n := by
  have none : ∀ c ∈ ([] : List Char), isBlank c := List.forall_mem_nil _
  have solid : IsSolid (Nat.toDigits 10 n) := by
    refine ⟨Nat.toDigits_ne_nil, fun c member => ?_⟩
    have isDigit : c.isDigit := Nat.isDigit_of_mem_toDigits (by decide) (by decide) member
    have alphanum : c.isAlphanum := by simp [Char.isAlphanum, isDigit]
    exact ⟨not_isBlank_of_isAlphanum alphanum, (ne_punctuation_of_isAlphanum alphanum).2.2.1⟩
  have trimmed := trim_padded none none solid
  rwa [List.nil_append, List.append_nil] at trimmed

/-! ## Options -/

variable {part : Part} {raw : String}

/-- There is no number exactly if there is nothing but blanks. -/
theorem readNumber_eq_ok_none_iff :
    readNumber part raw = .ok none ↔ ∀ c ∈ raw.toList, isBlank c := by
  rw [readNumber, ← trim_eq_nil_iff]
  by_cases blank : trim raw.toList = []
  · simp [blank]
  · simp only [blank, if_false, iff_false]
    split
    · rintro ⟨⟩
    · rintro ⟨⟩

/-- A number of 64 bits is read exactly from the text that it is written as. -/
theorem readNumber_eq_ok_some_iff {n : Nat} :
    readNumber part raw = .ok (some n) ↔
      n < UInt64.size ∧ trim raw.toList = Nat.toDigits 10 n := by
  by_cases blank : trim raw.toList = []
  · have isNone : readNumber part raw = .ok none :=
      readNumber_eq_ok_none_iff.mpr (trim_eq_nil_iff.mp blank)
    rw [isNone, blank]
    apply iff_of_false
    · rintro ⟨⟩
    · rintro ⟨_, written⟩
      exact Nat.toDigits_ne_nil written.symm
  · have accepted : (numeralValue? (trim raw.toList)).filter (· < numberBound) = some n ↔
        n < UInt64.size ∧ trim raw.toList = Nat.toDigits 10 n := by
      rw [Option.filter_eq_some_iff, numeralValue?_eq_some_iff blank, and_comm,
        decide_eq_true_iff]
      exact Iff.rfl
    rw [← accepted, readNumber]
    simp only [blank, if_false]
    split
    · next value isValue => simp [isValue]
    · next noValue => simp [noValue]

/-- The part of an option decides nothing but the part of its error. -/
theorem readNumber_eq_of_part (other : Part) :
    readNumber part raw =
      (readNumber other raw).mapError fun error => { error with part := part } := by
  unfold readNumber
  dsimp only
  split
  · rfl
  · split
    · rfl
    · rfl

/-- A number of results to return for an outcome of reading the same text as a
number of results to leave out: none at all is refused, and errors are about
the other option. -/
def atLeastOne : Except SyntaxError (Option Nat) → Except SyntaxError (Option Nat)
  | .ok (some 0) => .error ⟨.top, none, .zeroTop⟩
  | .ok number => .ok number
  | .error error => .error { error with part := .top }

theorem readTop_eq_atLeastOne (raw : String) : readTop raw = atLeastOne (readSkip raw) := by
  rw [readTop, readSkip, readNumber_eq_of_part .skip]
  cases readNumber .skip raw with
  | error error => rfl
  | ok number =>
      cases number with
      | none => rfl
      | some n =>
          cases n with
          | zero => rfl
          | succ n => rfl

theorem readSkip_eq_ok_some_iff {n : Nat} :
    readSkip raw = .ok (some n) ↔ n < UInt64.size ∧ trim raw.toList = (toString n).toList := by
  rw [Nat.toString_eq_repr, Nat.toList_repr]
  exact readNumber_eq_ok_some_iff

/-- Without blanks around it, the text of a number is its numeral. -/
theorem existsUnique_readSkip_iff (n : Nat) :
    (∃! text : List Char, trim text = text ∧ readSkip (String.ofList text) = .ok (some n)) ↔
      n < UInt64.size := by
  simp only [readSkip_eq_ok_some_iff, String.toList_ofList]
  constructor
  · rintro ⟨_, ⟨_, fits, _⟩, _⟩
    exact fits
  · intro fits
    have trimmed : trim (toString n).toList = (toString n).toList := by
      rw [Nat.toString_eq_repr, Nat.toList_repr]
      exact trim_toDigits n
    refine ⟨(toString n).toList, ⟨trimmed, fits, trimmed⟩, ?_⟩
    rintro text ⟨isTrimmed, _, written⟩
    rw [← isTrimmed, written]

/-- A number of results to leave out is read from the decimal numeral of a
number of 64 bits, so every such number has one spelling besides the blanks
around it; a blank text is no number, and anything else an error without a
place.  A number of results to return is read from the same texts, but is not
zero. -/
theorem readSkip_eq_ok_iff_and_readTop_eq (raw : String) :
    (∀ n, readSkip raw = .ok (some n) ↔
      n < UInt64.size ∧ trim raw.toList = (toString n).toList) ∧
    (readSkip raw = .ok none ↔ ∀ c ∈ raw.toList, isBlank c) ∧
    (∀ error, readSkip raw = .error error → error.part = .skip ∧ error.offset = none) ∧
    readTop raw = atLeastOne (readSkip raw) ∧
    ∀ n, (∃! text : List Char, trim text = text ∧
      readSkip (String.ofList text) = .ok (some n)) ↔ n < UInt64.size :=
  ⟨fun _ => readSkip_eq_ok_some_iff, readNumber_eq_ok_none_iff, fun _ => place_of_readNumber,
    readTop_eq_atLeastOne raw, existsUnique_readSkip_iff⟩

/-- The largest number of 64 bits is read, and the next one is not. -/
example :
    readTop "\u30005 " = .ok (some 5) ∧
      readSkip "18446744073709551615" = .ok (some 18446744073709551615) ∧
      readSkip "18446744073709551616" =
        .error ⟨.skip, none, .notAnInteger "18446744073709551616"⟩ := by
  decide

end OData.Query
