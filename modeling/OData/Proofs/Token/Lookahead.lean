import OData.Proofs.Token.Spelling

/-!
# Where tokens end

A reader looks past the end of its token only to make sure that the token does
not go on there, and it is the next character that tells.  So a token is read
as well in front of any other text that starts with the same character, with
one that continues no token, or not at all.  This covers a text that goes on
behind a separator or a blank as well as one that breaks off.
-/

namespace OData.Token

open Text

variable {afterOperand : Bool} {text rest other : List Char}

/-! ## What stands next -/

/-- Whether a token can go on with a character: a word with letters, digits and
slashes, a number with what must not follow it, a string with a second quote. -/
def continuesToken (c : Char) : Bool :=
  c.isAlphanum || ['/', '.', '_', '\''].contains c

theorem continuesToken_of_isAlphanum (c : Char) (alphanum : c.isAlphanum) : continuesToken c := by
  simp [continuesToken, alphanum]

theorem continuesToken_of_isDigit (c : Char) (digit : c.isDigit) : continuesToken c :=
  continuesToken_of_isAlphanum c (by simp [Char.isAlphanum, digit])

theorem continuesToken_of_continuesNumber (c : Char) (continues : continuesNumber c) :
    continuesToken c := by
  rw [continuesNumber, Bool.or_assoc, Bool.or_eq_true, Bool.or_eq_true, beq_iff_eq,
    beq_iff_eq] at continues
  rcases continues with alphanum | rfl | rfl
  · exact continuesToken_of_isAlphanum c alphanum
  · rfl
  · rfl

theorem not_continuesToken_of_mem_separators {c : Char} (separator : c ∈ separators) :
    ¬ continuesToken c := by
  have ofNone : separators.any continuesToken = false := rfl
  exact List.any_eq_false.mp ofNone c separator

/-- No token goes on with a blank. -/
theorem not_continuesToken_of_isBlank {c : Char} (blank : isBlank c) : ¬ continuesToken c := by
  intro continues
  rw [continuesToken, Bool.or_eq_true, List.contains_iff_mem] at continues
  rcases continues with alphanum | other
  · exact not_isBlank_of_isAlphanum alphanum blank
  · have noneBlank : ['/', '.', '_', '\''].any isBlank = false := rfl
    exact List.any_eq_false.mp noneBlank c other blank

/-- Whether a text can stand in the place of `rest` behind a token: what stands
next in it continues no token, or stands next in `rest`. -/
def Replaces (rest other : List Char) : Prop :=
  ∀ c ∈ other.head?, continuesToken c → rest.head? = some c

/-- A text can break off anywhere behind a token. -/
theorem replaces_of_isPrefix (starts : other <+: rest) : Replaces rest other := by
  rcases starts with ⟨more, rfl⟩
  intro c next _
  rw [List.head?_append, Option.mem_def.mp next]
  rfl

/-- A text can go on with a separator. -/
theorem replaces_append (separated : Separated other) (rest : List Char) :
    Replaces rest (rest ++ other) := by
  cases rest with
  | nil =>
      intro c next continues
      exact absurd continues (not_continuesToken_of_mem_separators (separated c next))
  | cons d rest => exact fun c next _ => next

/-- What continues no token can stand behind any, as the end of a text can. -/
theorem Replaces.of_nil (ends : Replaces [] other) (rest : List Char) : Replaces rest other :=
  fun c next continues => nomatch ends c next continues

theorem replaces_nil_of_blank (blank : ∀ c ∈ other.head?, isBlank c) : Replaces [] other :=
  fun c next continues => absurd continues (not_continuesToken_of_isBlank (blank c next))

/-- What continues tokens and did not stand next does not stand next instead. -/
theorem Replaces.head_any (replaces : Replaces rest other) {p : Char → Bool}
    (continues : ∀ c, p c → continuesToken c) (ends : rest.head?.any p = false) :
    other.head?.any p = false := by
  cases other with
  | nil => rfl
  | cons c other =>
      rw [List.head?_cons, Option.any_some, Bool.eq_false_iff]
      intro holds
      rw [replaces c rfl (continues c holds), Option.any_some, holds] at ends
      cases ends

theorem Replaces.head_ne (replaces : Replaces rest other) {c : Char} (continues : continuesToken c)
    (notNext : rest.head? ≠ some c) : other.head? ≠ some c :=
  fun next => notNext (replaces c next continues)

/-! ## Words -/

theorem startsAlphanum_splitPath_append (starts : startsAlphanum text) (rest : List Char) :
    startsAlphanum ((splitPath text).1 ++ rest) := by
  cases text with
  | nil => cases starts
  | cons c text =>
      have alphanum : c.isAlphanum := by simpa [startsAlphanum] using starts
      rw [splitPath_cons_of_isAlphanum alphanum]
      exact alphanum

/-- No letter or digit is left behind a path. -/
theorem startsAlphanum_rest_splitPath (text : List Char) :
    startsAlphanum (splitPath text).2 = false := by
  induction text with
  | nil => rfl
  | cons c text ih =>
      by_cases goesOn : c.isAlphanum || (c == '/' && startsAlphanum text)
      · rw [splitPath, if_pos goesOn]
        exact ih
      · rw [splitPath, if_neg goesOn]
        rw [Bool.not_eq_true, Bool.or_eq_false_iff] at goesOn
        exact goesOn.1

/-- A path ends before a text that goes on with no letter, digit or slash. -/
theorem splitPath_append_of_head (noAlphanum : startsAlphanum other = false)
    (noSlash : other.head? ≠ some '/') (text : List Char) :
    splitPath ((splitPath text).1 ++ other) = ((splitPath text).1, other) := by
  induction text with
  | nil => exact splitPath_of_head noAlphanum noSlash
  | cons c text ih =>
      by_cases goesOn : c.isAlphanum || (c == '/' && startsAlphanum text)
      · have goesOnStill :
            c.isAlphanum || (c == '/' && startsAlphanum ((splitPath text).1 ++ other)) := by
          rw [Bool.or_eq_true, Bool.and_eq_true] at goesOn ⊢
          exact goesOn.imp_right fun slash =>
            ⟨slash.1, startsAlphanum_splitPath_append slash.2 other⟩
        rw [splitPath, if_pos goesOn, List.cons_append, splitPath, if_pos goesOnStill, ih]
      · rw [splitPath, if_neg goesOn]
        exact splitPath_of_head noAlphanum noSlash

theorem readWord_of_replaces {lexeme : Lexeme} (read : readWord text = .ok lexeme)
    (replaces : Replaces lexeme.rest other) :
    readWord (lexeme.text ++ other) = .ok { lexeme with rest := other } := by
  unfold readWord at read
  dsimp only at read
  split at read
  · cases read
  · next noSlash =>
      cases read
      have noAlphanum :=
        replaces.head_any continuesToken_of_isAlphanum (startsAlphanum_rest_splitPath text)
      have noSlash := replaces.head_ne rfl noSlash
      rw [readWord, splitPath_append_of_head noAlphanum noSlash]
      exact if_neg noSlash

/-! ## Strings -/

/-- A quoted text ends before a text that goes on with no quote. -/
theorem splitQuoted_of_replaces {body : List Char} (split : splitQuoted text = some (body, rest))
    (replaces : Replaces rest other) :
    splitQuoted (body ++ '\'' :: other) = some (body, other) := by
  fun_induction splitQuoted text generalizing body with
  | case1 => cases split
  | case2 text ih =>
      simp only [Option.map_eq_some_iff, Prod.exists, Prod.mk.injEq] at split
      obtain ⟨inner, _, found, rfl, rfl⟩ := split
      simp [splitQuoted, ih found]
  | case3 afterQuote notDoubled =>
      -- A quote ends the string unless another one follows.
      cases split
      have noQuote : rest.head? ≠ some '\'' := by
        intro next
        rcases List.head?_eq_some_iff.mp next with ⟨more, isDoubled⟩
        exact notDoubled more isDoubled
      rw [List.nil_append, splitQuoted.eq_3]
      rintro more rfl
      exact replaces.head_ne rfl noQuote rfl
  | case4 c text notDoubled notQuote ih =>
      simp only [Option.map_eq_some_iff, Prod.exists, Prod.mk.injEq] at split
      obtain ⟨inner, _, found, rfl, rfl⟩ := split
      rw [List.cons_append, splitQuoted.eq_4 _ _ ?_ notQuote, ih found]
      · rfl
      · exact fun _ isQuote => absurd isQuote notQuote

theorem readString_of_replaces {lexeme : Lexeme} (read : readString text = .ok lexeme)
    (replaces : Replaces lexeme.rest other) {whole : List Char}
    (isWhole : lexeme.text ++ other = '\'' :: whole) :
    readString whole = .ok { lexeme with rest := other } := by
  unfold readString at read
  split at read
  · cases read
  · next body rest split =>
      cases read
      have wholeEq : body ++ '\'' :: other = whole := by simpa using isWhole
      rw [readString, ← wholeEq, splitQuoted_of_replaces split replaces]

/-! ## Numbers -/

theorem readToken_number_of_replaces (negative : Bool) {sign : List Char} {lexeme : Lexeme}
    (isSign : sign = if negative then ['-'] else []) (starts : text.head?.any Char.isDigit)
    (signed : negative → afterOperand = false) (read : readNumber sign text = .ok lexeme)
    (replaces : Replaces lexeme.rest other) {c : Char} {whole : List Char}
    (isWhole : lexeme.text ++ other = c :: whole) :
    readToken afterOperand c whole = .ok { lexeme with rest := other } := by
  rcases exists_numeral_of_readNumber negative isSign starts read with
    ⟨numeral, value, rfl, isValue, isLexeme, ends⟩
  have ends := replaces.head_any continuesToken_of_continuesNumber ends
  rw [isLexeme] at isWhole ⊢
  exact numeral.readToken_append isValue signed ends isWhole

/-! ## Single tokens -/

/-- A token is read in front of any text that can stand in the place of what
followed it. -/
theorem readToken_of_replaces {c : Char} {lexeme : Lexeme}
    (read : readToken afterOperand c text = .ok lexeme) (replaces : Replaces lexeme.rest other)
    {whole : List Char} (isWhole : lexeme.text ++ other = c :: whole) :
    readToken afterOperand c whole = .ok { lexeme with rest := other } := by
  unfold readToken at read
  split at read
  · next isChar => cases isChar; cases read; cases isWhole; rfl
  split at read
  · next isChar => cases isChar; cases read; cases isWhole; rfl
  split at read
  · next isChar => cases isChar; cases read; cases isWhole; rfl
  split at read
  · split at read
    · next isMinus signs =>
        cases isMinus
        rw [Bool.and_eq_true, Bool.not_eq_true'] at signs
        exact readToken_number_of_replaces true rfl signs.1 (fun _ => signs.2) read replaces isWhole
    · next isMinus noSign =>
        cases isMinus
        cases read
        cases isWhole
        rw [Bool.not_eq_true, Bool.and_eq_false_imp] at noSign
        have noSignStill : (other.head?.any Char.isDigit && !afterOperand) = false := by
          cases digit : text.head?.any Char.isDigit with
          | false => rw [replaces.head_any continuesToken_of_isDigit digit, Bool.false_and]
          | true => rw [noSign digit, Bool.and_false]
        exact if_neg (Bool.eq_false_iff.mp noSignStill)
  split at read
  · next isQuote =>
      cases isQuote
      exact readString_of_replaces read replaces isWhole
  split at read
  · next isDigit =>
      have starts : (c :: text).head?.any Char.isDigit := isDigit
      exact readToken_number_of_replaces false rfl starts nofun read replaces isWhole
  split at read
  · next isAlpha =>
      rw [readToken_of_isAlpha isAlpha, ← isWhole]
      exact readWord_of_replaces read replaces
  · cases read

end OData.Token
