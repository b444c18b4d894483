import OData.Proofs.Token.Numeral

/-!
# Spelling kinds

`Spells` says that a text is cut into tokens of certain kinds, wherever it
stands in its source.  There is one rule for each kind of token: the text of
the token in front of a spelling is a spelling again.  Words, numbers and
strings ask that what follows does not run on with them, which `Separated`
grants for the characters that writing an expression puts there.
-/

namespace OData.Token

open Text

/-! ## Separators -/

/-- The characters that can follow a token in a written expression. -/
def separators : List Char :=
  [' ', '(', ')', ',']

/-- Whether a text is empty or starts with a separator. -/
def Separated (rest : List Char) : Prop :=
  ∀ c ∈ rest.head?, c ∈ separators

theorem separated_nil : Separated [] :=
  fun _ member => absurd member (Option.not_mem_none _)

theorem separated_cons_iff {c : Char} {rest : List Char} :
    Separated (c :: rest) ↔ c ∈ separators := by
  simp [Separated]

theorem separated_space (rest : List Char) : Separated (' ' :: rest) :=
  separated_cons_iff.mpr (by decide)

theorem separated_leftParen (rest : List Char) : Separated ('(' :: rest) :=
  separated_cons_iff.mpr (by decide)

theorem separated_rightParen (rest : List Char) : Separated (')' :: rest) :=
  separated_cons_iff.mpr (by decide)

theorem separated_comma (rest : List Char) : Separated (',' :: rest) :=
  separated_cons_iff.mpr (by decide)

/-- What holds of no separator does not hold of the next character. -/
theorem Separated.head_any {rest : List Char} (separated : Separated rest) {p : Char → Bool}
    (ofNone : separators.any p = false) : rest.head?.any p = false := by
  cases rest with
  | nil => rfl
  | cons c rest =>
      have notHolds := List.any_eq_false.mp ofNone c (separated_cons_iff.mp separated)
      exact Bool.eq_false_iff.mpr notHolds

/-! ## Spellings -/

/-- Whether a text has tokens of these kinds before the end of the input. -/
def Spells (afterOperand : Bool) (text : List Char) (kinds : List Kind) : Prop :=
  ∀ start, ∃ tokens, Cuts start afterOperand text tokens ∧
    tokens.map Token.kind = kinds ++ [.endOfInput]

variable {afterOperand : Bool} {text rest : List Char} {kinds : List Kind}

theorem spells_nil (afterOperand : Bool) : Spells afterOperand [] [] :=
  fun _ => ⟨_, .done fun _ member => absurd member List.not_mem_nil, rfl⟩

/-- A blank in front changes where the tokens stand but not their kinds. -/
theorem Spells.blank {c : Char} (isBlank : isBlank c) (spells : Spells afterOperand text kinds) :
    Spells afterOperand (c :: text) kinds := by
  intro start
  rcases spells (start + c.utf8Size) with ⟨tokens, cuts, kindsEq⟩
  rw [← kindsEq]
  cases cuts with
  | done areBlank =>
      exact ⟨_, .done (List.forall_mem_cons.mpr ⟨isBlank, areBlank⟩), rfl⟩
  | @token _ _ blanks more d lexeme others areBlank notBlank read others =>
      rw [Nat.add_assoc start, ← byteLength_cons] at others
      exact ⟨_, .token (List.forall_mem_cons.mpr ⟨isBlank, areBlank⟩) notBlank read others, rfl⟩

/-- A token in front adds its kind. -/
theorem Spells.token {c : Char} (notBlank : ¬ isBlank c) {lexeme : Lexeme}
    (read : readToken afterOperand c text = .ok lexeme)
    (spells : Spells lexeme.kind.endsOperand lexeme.rest kinds) :
    Spells afterOperand (c :: text) (lexeme.kind :: kinds) := by
  intro start
  rcases spells (start + 0 + byteLength lexeme.text) with ⟨tokens, cuts, kindsEq⟩
  have none : ∀ d ∈ ([] : List Char), isBlank d := fun d member => absurd member List.not_mem_nil
  exact ⟨_, .token none notBlank read cuts, by rw [List.map_cons, kindsEq, List.cons_append]⟩

/-! ## Punctuation -/

theorem Spells.leftParen (spells : Spells false rest kinds) :
    Spells afterOperand ('(' :: rest) (.leftParen :: kinds) := by
  have read : readToken afterOperand '(' rest = .ok ⟨.leftParen, ['('], rest⟩ := rfl
  exact .token (by decide) read spells

theorem Spells.rightParen (spells : Spells true rest kinds) :
    Spells afterOperand (')' :: rest) (.rightParen :: kinds) := by
  have read : readToken afterOperand ')' rest = .ok ⟨.rightParen, [')'], rest⟩ := rfl
  exact .token (by decide) read spells

theorem Spells.comma (spells : Spells false rest kinds) :
    Spells afterOperand (',' :: rest) (.comma :: kinds) := by
  have read : readToken afterOperand ',' rest = .ok ⟨.comma, [','], rest⟩ := rfl
  exact .token (by decide) read spells

theorem Spells.space (spells : Spells afterOperand rest kinds) :
    Spells afterOperand (' ' :: rest) kinds :=
  spells.blank (by decide)

/-- A minus is an operator of its own where no digit follows. -/
theorem Spells.minus (separated : Separated rest) (spells : Spells false rest kinds) :
    Spells afterOperand ('-' :: rest) (.minus :: kinds) := by
  have noDigit : rest.head?.any Char.isDigit = false := separated.head_any rfl
  have read : readToken afterOperand '-' rest = .ok ⟨.minus, ['-'], rest⟩ := by
    simp [readToken, noDigit]
  exact .token (by decide) read spells

/-! ## Words -/

theorem splitPath_of_separated (separated : Separated rest) : splitPath rest = ([], rest) :=
  splitPath_of_head (separated.head_any rfl) fun slash => absurd (separated '/' slash) (by decide)

theorem startsAlphanum_append {word : List Char} (isText : IsPathText word)
    (rest : List Char) : startsAlphanum (word ++ rest) := by
  cases isText <;> assumption

/-- A path ends before a separator. -/
theorem splitPath_append {word : List Char} (isText : IsPathText word)
    (separated : Separated rest) : splitPath (word ++ rest) = (word, rest) := by
  induction isText with
  | single alphanum =>
      rw [List.singleton_append, splitPath_cons_of_isAlphanum alphanum,
        splitPath_of_separated separated]
  | extend alphanum _ ih =>
      rw [List.cons_append, splitPath_cons_of_isAlphanum alphanum, ih]
  | slash alphanum isText ih =>
      rw [List.cons_append, List.cons_append, splitPath_cons_of_isAlphanum alphanum,
        splitPath_slash (startsAlphanum_append isText rest), ih]

theorem readToken_of_isAlpha {c : Char} (alpha : c.isAlpha) (text : List Char) :
    readToken afterOperand c text = readWord (c :: text) := by
  have noDigit : c.isDigit = false := by simpa using not_isDigit_of_isAlpha alpha
  have others := ne_punctuation_of_isAlphanum (by simp [Char.isAlphanum, alpha] : c.isAlphanum)
  simp [readToken, others, noDigit, alpha]

/-- A word is read up to the next separator. -/
theorem Spells.word {word : List Char} (startsAlpha : word.head?.any Char.isAlpha)
    (isText : IsPathText word) (separated : Separated rest)
    (spells : Spells (wordKind word).endsOperand rest kinds) :
    Spells afterOperand (word ++ rest) (wordKind word :: kinds) := by
  have noSlash : rest.head? ≠ some '/' := by
    intro slash
    exact absurd (separated '/' slash) (by decide)
  have read : readWord (word ++ rest) = .ok ⟨wordKind word, word, rest⟩ := by
    simp [readWord, splitPath_append isText separated, noSlash]
  cases word with
  | nil => cases startsAlpha
  | cons c word =>
      have alpha : c.isAlpha := by simpa using startsAlpha
      have alphanum : c.isAlphanum := by simp [Char.isAlphanum, alpha]
      rw [List.cons_append, ← readToken_of_isAlpha alpha] at read
      exact .token (not_isBlank_of_isAlphanum alphanum) read spells

/-- A path is read where a word is written that is not reserved. -/
theorem IsWord.spells {name : String} (word : IsWord name) (afterOperand : Bool)
    (separated : Separated rest) (spells : Spells true rest kinds) :
    Spells afterOperand (name.toList ++ rest) (.path name :: kinds) := by
  have kind : wordKind name.toList = .path name := by simp [wordKind, word.notReserved]
  rw [← kind]
  apply Spells.word word.startsAlpha word.isPathText separated
  rwa [kind]

theorem ofWord?_word (op : BinaryOperator) : Kind.ofWord? op.word = some (.operator op) := by
  cases op <;> decide

/-- A reserved word is read as what it is reserved for. -/
theorem Spells.reserved {word : String} {kind : Kind} (reserved : Kind.ofWord? word = some kind)
    (separated : Separated rest) (spells : Spells kind.endsOperand rest kinds) :
    Spells afterOperand (word.toList ++ rest) (kind :: kinds) := by
  have wordIsKind : wordKind word.toList = kind := by simp [wordKind, reserved]
  rcases isSegment_of_ofWord? reserved with ⟨segment, startsAlpha⟩
  rw [isSegment_iff] at segment
  rw [← wordIsKind]
  apply Spells.word startsAlpha (.of_segment segment.1 segment.2) separated
  rwa [wordIsKind]

/-! ## Strings -/

theorem splitQuoted_double (text : List Char) (noQuote : rest.head? ≠ some '\'') :
    splitQuoted (double text ++ '\'' :: rest) = some (double text, rest) := by
  induction text with
  | nil =>
      cases rest with
      | nil => rfl
      | cons c rest =>
          have notQuote : c ≠ '\'' := by simpa using noQuote
          rw [double_nil, List.nil_append, splitQuoted]
          simpa using notQuote
  | cons c text ih =>
      by_cases isQuote : c = '\''
      · simp [double, isQuote, splitQuoted, ih]
      · simp [double, isQuote, splitQuoted, ih]

/-- A quoted text is read as the string that was quoted. -/
theorem Spells.string {value : String} (separated : Separated rest)
    (spells : Spells true rest kinds) :
    Spells afterOperand (quote value.toList ++ rest) (.literal (.string value) :: kinds) := by
  have noQuote : rest.head? ≠ some '\'' := by
    intro isQuote
    exact absurd (separated '\'' isQuote) (by decide)
  have read : readToken afterOperand '\'' (double value.toList ++ '\'' :: rest) =
      .ok ⟨.literal (.string value), quote value.toList, rest⟩ := by
    simp [readToken, readString, splitQuoted_double value.toList noQuote, quote]
  rw [quote, List.append_assoc]
  exact .token (by decide) read spells

/-! ## Numbers -/

/-- A numeral is read as the decimal that was written.  A sign needs a place
where no operand ends. -/
theorem Spells.number {d : Decimal} (signed : d.coefficient < 0 → afterOperand = false)
    (separated : Separated rest) (spells : Spells true rest kinds) :
    Spells afterOperand (d.write ++ rest) (.literal (.number d) :: kinds) := by
  let numeral := Numeral.ofDecimal d
  have isValue : Decimal.read? numeral.unsuffixed = some d := by
    rw [Numeral.unsuffixed_ofDecimal, Decimal.read?_write]
  have negative : numeral.negative → afterOperand = false :=
    fun negative => signed (of_decide_eq_true negative)
  have ends : rest.head?.any continuesNumber = false := separated.head_any rfl
  rcases numeral.exists_text_eq_cons with ⟨c, more, text, notBlank⟩
  have isWhole : numeral.text ++ rest = c :: (more ++ rest) := by rw [text, List.cons_append]
  have read := numeral.readToken_append isValue negative ends isWhole
  rw [← Numeral.text_ofDecimal, isWhole]
  exact .token notBlank read spells

/-! ## Literals -/

/-- Whether a literal is a number with a sign. -/
def isSigned : Literal → Bool
  | .number value => value.coefficient < 0
  | _ => false

/-- A literal is read as the constant that was written. -/
theorem Spells.literal {value : Literal} (signed : isSigned value → afterOperand = false)
    (separated : Separated rest) (spells : Spells true rest kinds) :
    Spells afterOperand (value.written.toList ++ rest) (.literal value :: kinds) := by
  cases value with
  | string value =>
      rw [Literal.written, String.toList_ofList]
      exact .string separated spells
  | number value =>
      have written : (toString value : String).toList = value.write := String.toList_ofList
      rw [Literal.written, written]
      exact .number (by simpa [isSigned] using signed) separated spells
  | boolean value =>
      cases value with
      | true => exact .reserved rfl separated spells
      | false => exact .reserved rfl separated spells
  | null => exact .reserved rfl separated spells

/-! ## Sources -/

/-- The kinds before the end of the input are those that the source spells. -/
theorem exists_tokenize_of_spells {source : String} {kinds : List Kind}
    (spells : Spells false source.toList kinds) :
    ∃ tokens, tokenize source = .ok tokens ∧ Expr.kindsOf tokens = kinds := by
  rcases spells 0 with ⟨tokens, cuts, kindsEq⟩
  have tokenized : tokenize source = .ok tokens := tokensFrom_eq_ok_iff.mpr cuts
  rw [(kinds_of_tokenize tokenized).1] at kindsEq
  exact ⟨tokens, tokenized, List.append_cancel_right kindsEq⟩

/-- The text of a kind of token. -/
def Kind.written : Kind → String
  | .operator op => op.word
  | .not => "not"
  | .minus => "-"
  | .path text => text
  | .literal value => value.written
  | .leftParen => "("
  | .rightParen => ")"
  | .comma => ","
  | .endOfInput => ""

/-- Whether a token of a kind has a text that is read anywhere as this token. -/
def Kind.IsPlain : Kind → Prop
  | .path text => IsWord text
  | .literal value => ¬ isSigned value
  | .endOfInput => False
  | _ => True

/-- A text for a list of kinds, with a space before each token. -/
def spaced : List Kind → List Char
  | [] => []
  | kind :: kinds => ' ' :: (kind.written.toList ++ spaced kinds)

theorem separated_spaced (kinds : List Kind) : Separated (spaced kinds) := by
  cases kinds with
  | nil => exact separated_nil
  | cons kind kinds => exact separated_space _

/-- Spaces keep plain kinds apart. -/
theorem spells_spaced (afterOperand : Bool) {kinds : List Kind}
    (plain : ∀ kind ∈ kinds, kind.IsPlain) : Spells afterOperand (spaced kinds) kinds := by
  induction kinds generalizing afterOperand with
  | nil => exact spells_nil afterOperand
  | cons kind kinds ih =>
      rcases List.forall_mem_cons.mp plain with ⟨isPlain, others⟩
      have separated := separated_spaced kinds
      have rest := fun afterOperand => ih afterOperand others
      apply Spells.space
      cases kind with
      | operator op => exact .reserved (ofWord?_word op) separated (rest _)
      | not => exact .reserved rfl separated (rest _)
      | minus => exact .minus separated (rest _)
      | path text => exact IsWord.spells isPlain _ separated (rest _)
      | literal value =>
          exact .literal (fun signed => absurd signed isPlain) separated (rest _)
      | leftParen => exact (rest _).leftParen
      | rightParen => exact (rest _).rightParen
      | comma => exact (rest _).comma
      | endOfInput => exact isPlain.elim

/-- Every list of plain kinds has a source. -/
theorem exists_source {kinds : List Kind} (plain : ∀ kind ∈ kinds, kind.IsPlain) :
    ∃ source tokens, tokenize source = .ok tokens ∧ Expr.kindsOf tokens = kinds := by
  have spells := spells_spaced false plain
  rw [← String.toList_ofList (l := spaced kinds)] at spells
  exact ⟨String.ofList (spaced kinds), exists_tokenize_of_spells spells⟩

end OData.Token
