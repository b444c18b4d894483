import OData.Proofs.Decimal.Numeral
import OData.Proofs.Token.Words

/-!
# Numerals in a text

A number is read from a numeral: perhaps a sign, digits, perhaps a point with
digits, and perhaps a letter that names a type.  It is read up to where nothing
follows that continues it, and its value is that of the numeral without the
letter.  That is all that reading a number does, so what holds of numbers in a
text is derived from numerals here and in other modules.
-/

namespace OData.Token

open Text

/-! ## Numerals -/

/-- The parts of the text of a number: perhaps a minus, digits, perhaps a point
and digits after it, and perhaps a letter that names a type.  Without digits
after it there is no point. -/
structure Numeral where
  negative : Bool
  whole : List Char
  fraction : List Char
  suffix : Option Char
  whole_ne_nil : whole ≠ []
  isDigit_of_mem_whole : ∀ c ∈ whole, c.isDigit
  isDigit_of_mem_fraction : ∀ c ∈ fraction, c.isDigit
  isSuffix : ∀ c ∈ suffix, c ∈ suffixLetters

namespace Numeral

/-- The numeral without its suffix, which is what its value is read from. -/
def unsuffixed (numeral : Numeral) : List Char :=
  (if numeral.negative then ['-'] else []) ++ numeral.whole ++
    (if numeral.fraction = [] then [] else '.' :: numeral.fraction)

/-- The whole text of a numeral. -/
def text (numeral : Numeral) : List Char :=
  numeral.unsuffixed ++ numeral.suffix.toList

/-- The sign of a numeral. -/
def sign (numeral : Numeral) : List Char :=
  if numeral.negative then ['-'] else []

/-- The point of a numeral and the digits after it. -/
def fractionText (numeral : Numeral) : List Char :=
  if numeral.fraction = [] then [] else '.' :: numeral.fraction

/-- The numeral that has no suffix and is otherwise the same. -/
def stripped (numeral : Numeral) : Numeral :=
  { numeral with suffix := none, isSuffix := fun _ member => nomatch member }

/-- The numeral that a decimal is written as. -/
def ofDecimal (d : Decimal) : Numeral where
  negative := d.coefficient < 0
  whole := d.wholeText
  fraction := d.fractionDigits
  suffix := none
  whole_ne_nil := d.wholeText_ne_nil
  isDigit_of_mem_whole _ member := Decimal.isDigit_of_mem_wholeText member
  isDigit_of_mem_fraction _ member := Decimal.isDigit_of_mem_fractionDigits member
  isSuffix _ member := nomatch member

variable (numeral : Numeral) {other : List Char}

theorem text_stripped : numeral.stripped.text = numeral.unsuffixed :=
  List.append_nil _

theorem unsuffixed_ofDecimal (d : Decimal) : (ofDecimal d).unsuffixed = d.write := by
  have sign : (if decide (d.coefficient < 0) then ['-'] else []) = d.signText := by
    simp [Decimal.signText]
  have fraction : (if d.fractionDigits = [] then [] else '.' :: d.fractionDigits) =
      d.fractionText := by
    rcases d.fractionText_cases with ⟨digits, none⟩ | ⟨nonempty, some⟩
    · rw [if_pos digits, none]
    · rw [if_neg nonempty, some]
  rw [unsuffixed, ofDecimal, sign, fraction, Decimal.write_eq_append, List.append_assoc]

theorem text_ofDecimal (d : Decimal) : (ofDecimal d).text = d.write := by
  rw [← unsuffixed_ofDecimal]
  exact List.append_nil _

theorem text_append (other : List Char) :
    numeral.text ++ other = numeral.sign ++
      (numeral.whole ++ (numeral.fractionText ++ (numeral.suffix.toList ++ other))) := by
  simp [text, unsuffixed, sign, fractionText]

theorem unsuffixed_ne_nil : numeral.unsuffixed ≠ [] := by
  simp [unsuffixed, numeral.whole_ne_nil]

theorem head_any_whole_append (rest : List Char) :
    (numeral.whole ++ rest).head?.any Char.isDigit := by
  rw [List.head?_append_of_ne_nil _ numeral.whole_ne_nil,
    List.head?_eq_some_head numeral.whole_ne_nil]
  exact numeral.isDigit_of_mem_whole _ (List.head_mem numeral.whole_ne_nil)

theorem exists_text_eq_cons : ∃ c more, numeral.text = c :: more ∧ ¬ isBlank c := by
  rw [← List.append_nil numeral.text, text_append, sign]
  split
  · exact ⟨'-', _, rfl, by decide⟩
  · have digit := numeral.head_any_whole_append
      (numeral.fractionText ++ (numeral.suffix.toList ++ []))
    rw [List.nil_append]
    generalize numeral.whole ++ _ = text at digit ⊢
    cases text with
    | nil => cases digit
    | cons c more =>
        have alphanum : c.isAlphanum := by simp [Char.isAlphanum, show c.isDigit from digit]
        exact ⟨c, more, rfl, not_isBlank_of_isAlphanum alphanum⟩

end Numeral

/-! ## What follows the digits -/

theorem head_any_of_imp {p q : Char → Bool} {text : List Char} (imp : ∀ c, p c → q c)
    (ends : text.head?.any q = false) : text.head?.any p = false := by
  cases text with
  | nil => rfl
  | cons c text =>
      rw [List.head?_cons, Option.any_some, Bool.eq_false_iff] at ends ⊢
      exact mt (imp c) ends

theorem startsAlphanum_of_continuesNumber {text : List Char}
    (ends : text.head?.any continuesNumber = false) : startsAlphanum text = false :=
  head_any_of_imp (fun c alphanum => by simp [continuesNumber, alphanum]) ends

theorem isAlphanum_of_mem_suffixLetters {c : Char} (isSuffix : c ∈ suffixLetters) :
    c.isAlphanum := by
  have areAlphanum : suffixLetters.all Char.isAlphanum := by decide
  exact List.all_eq_true.mp areAlphanum c isSuffix

theorem splitSuffix_of_head {other : List Char} (noAlphanum : startsAlphanum other = false) :
    splitSuffix other = ([], other) := by
  cases other with
  | nil => rfl
  | cons c other =>
      have notSuffix : suffixLetters.contains c = false := by
        rw [Bool.eq_false_iff, ne_eq, List.contains_iff_mem]
        intro member
        rw [startsAlphanum, List.head?_cons, Option.any_some,
          isAlphanum_of_mem_suffixLetters member] at noAlphanum
        cases noAlphanum
      rw [splitSuffix, notSuffix]
      rfl

namespace Numeral

variable (numeral : Numeral) {other rest : List Char}

/-- What holds of no suffix and does not stand next holds of no character
right behind the digits. -/
theorem head_any_suffix_append {p : Char → Bool} (ofNone : suffixLetters.any p = false)
    (ends : other.head?.any p = false) :
    (numeral.suffix.toList ++ other).head?.any p = false := by
  cases letter : numeral.suffix with
  | none => exact ends
  | some c =>
      have notHolds := List.any_eq_false.mp ofNone c (numeral.isSuffix c letter)
      exact Bool.eq_false_iff.mpr notHolds

theorem head_any_fractionText_append (noDigit : rest.head?.any Char.isDigit = false) :
    (numeral.fractionText ++ rest).head?.any Char.isDigit = false := by
  rw [fractionText]
  split
  · exact noDigit
  · rfl

theorem splitFraction_fractionText_append (noDigit : rest.head?.any Char.isDigit = false)
    (noPoint : rest.head?.any (· == '.') = false) :
    splitFraction (numeral.fractionText ++ rest) = some (numeral.fractionText, rest) := by
  rw [fractionText]
  split
  · rw [List.nil_append, splitFraction.eq_2]
    rintro more rfl
    cases noPoint
  · next nonempty =>
      have spans := Decimal.span_digits numeral.isDigit_of_mem_fraction
        (Bool.eq_false_iff.mp noDigit)
      have starts : (numeral.fraction ++ rest).head?.any Char.isDigit := by
        rw [List.head?_append_of_ne_nil _ nonempty, List.head?_eq_some_head nonempty]
        exact numeral.isDigit_of_mem_fraction _ (List.head_mem nonempty)
      rw [List.cons_append, splitFraction, if_pos starts, spans.1, spans.2]

theorem splitSuffix_suffix_append (noAlphanum : startsAlphanum other = false) :
    splitSuffix (numeral.suffix.toList ++ other) = (numeral.suffix.toList, other) := by
  cases letter : numeral.suffix with
  | none => exact splitSuffix_of_head noAlphanum
  | some c => simp [splitSuffix, numeral.isSuffix c letter, noAlphanum]

end Numeral

/-! ## Reading a numeral -/

/-- A numeral is read up to where nothing continues it, as the decimal that it
stands for without its suffix. -/
theorem Numeral.readNumber_append (numeral : Numeral) {other : List Char}
    (ends : other.head?.any continuesNumber = false) :
    readNumber numeral.sign
        (numeral.whole ++ (numeral.fractionText ++ (numeral.suffix.toList ++ other))) =
      match Decimal.read? numeral.unsuffixed with
      | none => .error (malformed numeral.text)
      | some value => .ok ⟨.literal (.number value), numeral.text, other⟩ := by
  have noAlphanum := startsAlphanum_of_continuesNumber ends
  have noDigit : other.head?.any Char.isDigit = false :=
    head_any_of_imp (fun c digit => by simp [continuesNumber, Char.isAlphanum, digit]) ends
  have noDigit := numeral.head_any_suffix_append (p := Char.isDigit) rfl noDigit
  have noPoint : other.head?.any (· == '.') = false :=
    head_any_of_imp (fun c point => by simp [continuesNumber, point]) ends
  have noPoint := numeral.head_any_suffix_append (p := (· == '.')) rfl noPoint
  have noDigitBehind := numeral.head_any_fractionText_append noDigit
  have spans := Decimal.span_digits numeral.isDigit_of_mem_whole
    (Bool.eq_false_iff.mp noDigitBehind)
  have unsuffixed : numeral.sign ++ numeral.whole ++ numeral.fractionText =
      numeral.unsuffixed := rfl
  have text : numeral.unsuffixed ++ numeral.suffix.toList = numeral.text := rfl
  simp only [readNumber, spans.1, spans.2,
    numeral.splitFraction_fractionText_append noDigit noPoint,
    numeral.splitSuffix_suffix_append noAlphanum, ends, unsuffixed, text]
  cases Decimal.read? numeral.unsuffixed <;> rfl

theorem takeWhile_isDigit_ne_nil {text : List Char} (starts : text.head?.any Char.isDigit) :
    text.takeWhile Char.isDigit ≠ [] := by
  cases text with
  | nil => cases starts
  | cons c text =>
      rw [List.takeWhile_cons_of_pos (by simpa using starts)]
      exact List.cons_ne_nil _ _

/-- A point is split off together with the digits after it. -/
theorem splitFraction_eq_some {text fraction rest : List Char}
    (split : splitFraction text = some (fraction, rest)) :
    ∃ digits : List Char, (∀ c ∈ digits, c.isDigit) ∧
      fraction = if digits = [] then [] else '.' :: digits := by
  unfold splitFraction at split
  split at split
  · next text =>
      split at split
      · next starts =>
          cases split
          refine ⟨text.takeWhile Char.isDigit, ?_, ?_⟩
          · exact fun c member => List.all_eq_true.mp List.all_takeWhile c member
          · rw [if_neg]
            exact takeWhile_isDigit_ne_nil starts
      · cases split
  · cases split
    exact ⟨[], fun _ member => absurd member List.not_mem_nil, rfl⟩

theorem splitSuffix_eq (text : List Char) :
    ∃ suffix : Option Char, (∀ c ∈ suffix, c ∈ suffixLetters) ∧
      (splitSuffix text).1 = suffix.toList := by
  unfold splitSuffix
  split
  · next c text =>
      split
      · next isSuffix =>
          rw [Bool.and_eq_true, List.contains_iff_mem] at isSuffix
          refine ⟨some c, ?_, rfl⟩
          rintro _ ⟨⟩
          exact isSuffix.1
      · exact ⟨none, fun _ member => absurd member (Option.not_mem_none _), rfl⟩
  · exact ⟨none, fun _ member => absurd member (Option.not_mem_none _), rfl⟩

/-- Every number is read from a numeral. -/
theorem exists_numeral_of_readNumber (negative : Bool) {sign text : List Char} {lexeme : Lexeme}
    (isSign : sign = if negative then ['-'] else []) (starts : text.head?.any Char.isDigit)
    (read : readNumber sign text = .ok lexeme) :
    ∃ (numeral : Numeral) (value : Decimal), numeral.negative = negative ∧
      Decimal.read? numeral.unsuffixed = some value ∧
      lexeme = ⟨.literal (.number value), numeral.text, lexeme.rest⟩ ∧
      lexeme.rest.head?.any continuesNumber = false := by
  have digits : ∀ c ∈ text.takeWhile Char.isDigit, c.isDigit :=
    fun c member => List.all_eq_true.mp List.all_takeWhile c member
  have nonempty := takeWhile_isDigit_ne_nil starts
  unfold readNumber at read
  split at read
  · cases read
  · next fraction afterFraction splitPoint =>
      rcases splitFraction_eq_some splitPoint with ⟨fraction, fractionDigits, rfl⟩
      rcases splitSuffix_eq afterFraction with ⟨suffix, isSuffix, suffixEq⟩
      dsimp only at read
      split at read
      · cases read
      · next goesOn =>
          split at read
          · cases read
          · next value isValue =>
              cases read
              subst isSign
              refine ⟨⟨negative, _, fraction, suffix, nonempty, digits, fractionDigits, isSuffix⟩,
                value, rfl, isValue, ?_, Bool.eq_false_iff.mpr goesOn⟩
              rw [suffixEq]
              rfl

/-! ## Numerals as tokens -/

variable {afterOperand : Bool} {other : List Char}

theorem readToken_of_isDigit {c : Char} (digit : c.isDigit) (text : List Char) :
    readToken afterOperand c text = readNumber [] (c :: text) := by
  have others := ne_punctuation_of_isAlphanum (by simp [Char.isAlphanum, digit] : c.isAlphanum)
  simp [readToken, others, digit]

theorem readToken_minus_of_isDigit {text : List Char} (digit : text.head?.any Char.isDigit) :
    readToken false '-' text = readNumber ['-'] text := by
  simp [readToken, digit]

theorem readToken_minus_of_operand (text : List Char) :
    readToken true '-' text = .ok ⟨.minus, ['-'], text⟩ := by
  simp [readToken]

namespace Numeral

variable (numeral : Numeral)

/-- A numeral is read as a number, unless it has a sign and follows an operand. -/
theorem readToken_eq_readNumber {c : Char} {more : List Char}
    (isWhole : numeral.text ++ other = c :: more)
    (signed : numeral.negative → afterOperand = false) :
    readToken afterOperand c more = readNumber numeral.sign
      (numeral.whole ++ (numeral.fractionText ++ (numeral.suffix.toList ++ other))) := by
  rw [text_append, sign] at isWhole
  rw [sign]
  split at isWhole
  · next negative =>
      cases isWhole
      cases signed negative
      rw [if_pos negative]
      exact readToken_minus_of_isDigit (numeral.head_any_whole_append _)
  · next notNegative =>
      have digit := numeral.head_any_whole_append
        (numeral.fractionText ++ (numeral.suffix.toList ++ other))
      rw [List.nil_append] at isWhole
      rw [isWhole] at digit
      rw [if_neg notNegative, isWhole]
      exact readToken_of_isDigit digit more

/-- A numeral that has a value is a token up to where nothing continues it. -/
theorem readToken_append {value : Decimal} (isValue : Decimal.read? numeral.unsuffixed = some value)
    (signed : numeral.negative → afterOperand = false)
    (ends : other.head?.any continuesNumber = false) {c : Char} {more : List Char}
    (isWhole : numeral.text ++ other = c :: more) :
    readToken afterOperand c more = .ok ⟨.literal (.number value), numeral.text, other⟩ := by
  rw [numeral.readToken_eq_readNumber isWhole signed, numeral.readNumber_append ends, isValue]

/-- Where a numeral is a token, its sign follows no operand: there the minus
would be a token by itself. -/
theorem eq_false_of_readToken {c : Char} {more : List Char} {lexeme : Lexeme}
    (read : readToken afterOperand c more = .ok lexeme) (isText : lexeme.text = numeral.text)
    (negative : numeral.negative) : afterOperand = false := by
  have isWhole := append_of_readToken read
  rw [isText, text_append, sign, if_pos negative] at isWhole
  cases isWhole
  cases afterOperand with
  | false => rfl
  | true =>
      rw [readToken_minus_of_operand] at read
      have isMinus : ['-'] = lexeme.text := congrArg Lexeme.text (Except.ok.inj read)
      have wholeNonempty := List.length_pos_iff.mpr numeral.whole_ne_nil
      have lengths := congrArg List.length (isMinus.trans isText)
      simp only [text, unsuffixed, if_pos negative, List.length_append, List.length_singleton]
        at lengths
      omega

/-- A numeral that is a token is one without its suffix too, of the same kind,
in front of anything that does not continue it. -/
theorem readToken_stripped {c : Char} {more : List Char} {lexeme : Lexeme}
    (read : readToken afterOperand c more = .ok lexeme) (isText : lexeme.text = numeral.text)
    (ends : other.head?.any continuesNumber = false) {d : Char} {whole : List Char}
    (isWhole : numeral.unsuffixed ++ other = d :: whole) :
    readToken afterOperand d whole = .ok ⟨lexeme.kind, numeral.unsuffixed, other⟩ := by
  have signed := numeral.eq_false_of_readToken read isText
  have wasWhole := append_of_readToken read
  rw [isText] at wasWhole
  rw [numeral.readToken_eq_readNumber wasWhole signed] at read
  rcases exists_numeral_of_readNumber numeral.negative rfl (numeral.head_any_whole_append _) read
    with ⟨_, _, _, _, _, ended⟩
  rw [numeral.readNumber_append ended] at read
  cases isValue : Decimal.read? numeral.unsuffixed with
  | none =>
      rw [isValue] at read
      cases read
  | some value =>
      rw [isValue] at read
      rw [← Except.ok.inj read, ← text_stripped]
      rw [← text_stripped] at isWhole
      exact numeral.stripped.readToken_append isValue signed ends isWhole

end Numeral

end OData.Token
