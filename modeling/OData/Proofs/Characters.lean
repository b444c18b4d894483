import Mathlib.Data.List.TakeWhile
import OData.Text.Blank
import OData.Text.Folding

/-!
# Characters

Letters, digits and blanks are told apart by their code points, and the blanks
at the front of a text by the first character behind them.  Words that are
compared without regard to case are the same whether only ASCII letters are
folded or all characters, unless the text has a long s or a Kelvin sign.
-/

namespace OData.Text

/-! ## Letters and digits -/

theorem isAlpha_iff_toNat {c : Char} :
    c.isAlpha ↔ 65 ≤ c.toNat ∧ c.toNat ≤ 90 ∨ 97 ≤ c.toNat ∧ c.toNat ≤ 122 := by
  delta Char.isAlpha Char.isUpper Char.isLower
  simp [UInt32.le_iff_toNat_le]

theorem isDigit_iff_toNat {c : Char} : c.isDigit ↔ 48 ≤ c.toNat ∧ c.toNat ≤ 57 := by
  simp [Char.isDigit_iff_toNat]

theorem isAlphanum_iff_toNat {c : Char} :
    c.isAlphanum ↔ (65 ≤ c.toNat ∧ c.toNat ≤ 90 ∨ 97 ≤ c.toNat ∧ c.toNat ≤ 122) ∨
      48 ≤ c.toNat ∧ c.toNat ≤ 57 := by
  rw [Char.isAlphanum, Bool.or_eq_true, isAlpha_iff_toNat, isDigit_iff_toNat]

theorem not_isDigit_of_isAlpha {c : Char} (alpha : c.isAlpha) : ¬ c.isDigit := by
  rw [isAlpha_iff_toNat] at alpha
  rw [isDigit_iff_toNat]
  omega

theorem ne_punctuation_of_isAlphanum {c : Char} (alphanum : c.isAlphanum) :
    c ≠ '(' ∧ c ≠ ')' ∧ c ≠ ',' ∧ c ≠ '-' ∧ c ≠ '\'' := by
  refine ⟨?_, ?_, ?_, ?_, ?_⟩ <;> (rintro rfl; exact absurd alphanum (by decide))

/-! ## Blanks -/

/-- No blank has the code point of a letter or digit. -/
theorem not_isBlank_of_isAlphanum {c : Char} (alphanum : c.isAlphanum) : ¬ isBlank c := by
  rw [isAlphanum_iff_toNat] at alphanum
  simp only [isBlank, blankRanges, List.any_cons, List.any_nil, Bool.or_false, Bool.or_eq_true,
    Bool.and_eq_true, decide_eq_true_eq]
  omega

theorem forall_mem_takeWhile_isBlank (text : List Char) :
    ∀ c ∈ text.takeWhile isBlank, isBlank c := by
  intro c member
  simpa using List.all_eq_true.mp (List.all_takeWhile (p := isBlank) (l := text)) c member

theorem takeWhile_isBlank_append {blanks : List Char} (areBlank : ∀ c ∈ blanks, isBlank c)
    {c : Char} (notBlank : ¬ isBlank c) (more : List Char) :
    (blanks ++ c :: more).takeWhile isBlank = blanks := by
  rw [List.takeWhile_append_of_pos areBlank, List.takeWhile_cons_of_neg notBlank,
    List.append_nil]

theorem dropWhile_isBlank_append {blanks : List Char} (areBlank : ∀ c ∈ blanks, isBlank c)
    {c : Char} (notBlank : ¬ isBlank c) (more : List Char) :
    (blanks ++ c :: more).dropWhile isBlank = c :: more := by
  rw [List.dropWhile_append_of_pos areBlank, List.dropWhile_cons_of_neg notBlank]

theorem not_isBlank_of_dropWhile {text more : List Char} {c : Char}
    (remaining : text.dropWhile isBlank = c :: more) : ¬ isBlank c := by
  have nonempty : text.dropWhile isBlank ≠ [] := by simp [remaining]
  have first := List.head_dropWhile_not isBlank nonempty
  simpa [remaining] using first

/-- Trimming leaves nothing of a text exactly if all of it is blank. -/
theorem trim_eq_nil_iff {text : List Char} : trim text = [] ↔ ∀ c ∈ text, isBlank c := by
  constructor
  · intro trimmed
    rw [trim, trimEnd, List.reverse_eq_nil_iff, List.dropWhile_eq_nil_iff] at trimmed
    cases remaining : trimStart text with
    | nil => exact List.dropWhile_eq_nil_iff.mp remaining
    | cons c more =>
        have blank : isBlank c := trimmed c (by simp [remaining])
        exact absurd blank (not_isBlank_of_dropWhile remaining)
  · intro areBlank
    rw [trim, trimStart, List.dropWhile_eq_nil_iff.mpr areBlank]
    rfl

/-! ## Case -/

theorem toNat_toLower (c : Char) :
    c.toLower.toNat = if 65 ≤ c.toNat ∧ c.toNat ≤ 90 then c.toNat + 32 else c.toNat := by
  delta Char.toLower
  simp only [ge_iff_le, UInt32.le_iff_toNat_le]
  split
  · next upper =>
      change 65 ≤ c.toNat ∧ c.toNat ≤ 90 at upper
      rw [if_pos upper]
      simp
      omega
  · next notUpper =>
      change ¬ (65 ≤ c.toNat ∧ c.toNat ≤ 90) at notUpper
      rw [if_neg notUpper]

/-- Inside ASCII, and in most of what is outside, folding is lowering. -/
theorem foldCase_eq_toLower {c : Char} (notLong : c ≠ '\u017F') (notKelvin : c ≠ '\u212A') :
    foldCase c = c.toLower := by
  rw [foldCase, if_neg notLong, if_neg notKelvin]

theorem isAlphanum_foldCase {c : Char} (alphanum : c.isAlphanum) : (foldCase c).isAlphanum := by
  have notLong : c ≠ '\u017F' := by
    rintro rfl
    exact absurd alphanum (by decide)
  have notKelvin : c ≠ '\u212A' := by
    rintro rfl
    exact absurd alphanum (by decide)
  rw [isAlphanum_iff_toNat] at alphanum
  rw [foldCase_eq_toLower notLong notKelvin, isAlphanum_iff_toNat, toNat_toLower]
  split <;> omega

/-- Folding makes no letter of a blank. -/
theorem isBlank_foldCase {c : Char} (blank : isBlank c) : isBlank (foldCase c) := by
  have notLong : c ≠ '\u017F' := by
    rintro rfl
    exact absurd blank (by decide)
  have notKelvin : c ≠ '\u212A' := by
    rintro rfl
    exact absurd blank (by decide)
  have notUpper : ¬ (65 ≤ c.toNat ∧ c.toNat ≤ 90) := by
    intro upper
    have alphanum : c.isAlphanum := isAlphanum_iff_toNat.mpr (.inl (.inl upper))
    exact not_isBlank_of_isAlphanum alphanum blank
  rw [foldCase_eq_toLower notLong notKelvin, isBlank, toNat_toLower, if_neg notUpper]
  exact blank

section Words

variable {word : String} {text : List Char}

theorem not_isBlank_of_foldsTo (folds : foldsTo word text)
    (nonblank : word.toList.any isBlank = false) : ∀ c ∈ text, ¬ isBlank c := by
  intro c member blank
  rw [foldsTo, beq_iff_eq] at folds
  have folded : foldCase c ∈ word.toList := folds ▸ List.mem_map_of_mem member
  have someBlank : word.toList.any isBlank :=
    List.any_eq_true.mpr ⟨_, folded, isBlank_foldCase blank⟩
  rw [nonblank] at someBlank
  cases someBlank

/-- A spelling in ASCII has no character outside ASCII. -/
theorem not_mem_of_equalsIgnoringAsciiCase (equals : equalsIgnoringAsciiCase word text) {c : Char}
    (other : c.toLower ∉ word.toList) : c ∉ text := by
  intro member
  rw [equalsIgnoringAsciiCase, beq_iff_eq] at equals
  exact other (equals ▸ List.mem_map_of_mem member)

theorem map_foldCase_eq (notLong : '\u017F' ∉ text) (notKelvin : '\u212A' ∉ text) :
    text.map foldCase = text.map Char.toLower := by
  apply List.map_congr_left
  intro c member
  apply foldCase_eq_toLower
  · rintro rfl
    exact notLong member
  · rintro rfl
    exact notKelvin member

/-- What is a word up to the case of ASCII letters is one up to folding. -/
theorem foldsTo_of_equalsIgnoringAsciiCase (equals : equalsIgnoringAsciiCase word text)
    (notLong : '\u017F' ∉ word.toList) (notKelvin : '\u212A' ∉ word.toList) :
    foldsTo word text := by
  have textNotLong : '\u017F' ∉ text := not_mem_of_equalsIgnoringAsciiCase equals notLong
  have textNotKelvin : '\u212A' ∉ text := not_mem_of_equalsIgnoringAsciiCase equals notKelvin
  rw [foldsTo, map_foldCase_eq textNotLong textNotKelvin]
  exact equals

/-- Where there is no long s, only a Kelvin sign could tell the two apart. -/
theorem equalsIgnoringAsciiCase_of_foldsTo (folds : foldsTo word text) (notLong : '\u017F' ∉ text)
    (noK : 'k' ∉ word.toList) : equalsIgnoringAsciiCase word text := by
  have notKelvin : '\u212A' ∉ text := by
    intro member
    rw [foldsTo, beq_iff_eq] at folds
    exact noK (folds ▸ List.mem_map_of_mem (f := foldCase) member)
  rw [equalsIgnoringAsciiCase, ← map_foldCase_eq notLong notKelvin]
  exact folds

end Words

end OData.Text
