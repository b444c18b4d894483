import OData.Error.Syntax
import OData.Text.Blank
import OData.Text.Utf8

/-!
# Reading tokens

`tokenize` cuts a source into tokens.  Blanks separate tokens and are
otherwise skipped.  Each reader below takes one token off the front of a text
and returns what is left; the text of the token and what is left always make
up the text it was given, which is what lets the recursion end and what keeps
every character of the source accounted for.
-/

namespace OData.Token

open Text
open SyntaxError (Cause)

/-- A token at the front of a text: its kind, its own text, and what is left. -/
structure Lexeme where
  kind : Kind
  text : List Char
  rest : List Char

/-- Why no token could be read, and how many bytes after its start. -/
structure Failure where
  cause : Cause
  ahead : Nat

/-! ## Words and paths -/

/-- Whether the next character of a text is a letter or a digit. -/
def startsAlphanum (text : List Char) : Bool :=
  text.head?.any Char.isAlphanum

/-- Split at the end of a path: letters, digits, and every slash with a letter
or a digit after it. -/
def splitPath : List Char → List Char × List Char
  | [] => ([], [])
  | c :: text =>
      if c.isAlphanum || (c == '/' && startsAlphanum text) then
        let (path, rest) := splitPath text
        (c :: path, rest)
      else
        ([], c :: text)

/-- The kind of a word: what it is reserved for, otherwise a path. -/
def wordKind (word : List Char) : Kind :=
  (Kind.ofWord? (String.ofList word)).getD (.path (String.ofList word))

/-- Read a reserved word or a path. -/
def readWord (text : List Char) : Except Failure Lexeme :=
  let (word, rest) := splitPath text
  if rest.head? = some '/' then
    .error ⟨.missingSegment, byteLength word⟩
  else
    .ok ⟨wordKind word, word, rest⟩

/-! ## Strings -/

/-- Read a string after its opening quote. -/
def readString (text : List Char) : Except Failure Lexeme :=
  match splitQuoted text with
  | none => .error ⟨.unterminatedString, 0⟩
  | some (body, rest) =>
      .ok ⟨.literal (.string (String.ofList (undouble body))),
        '\'' :: body ++ ['\''], rest⟩

/-! ## Numbers -/

/-- Split off a point with the digits after it.  A point without digits has no
result. -/
def splitFraction : List Char → Option (List Char × List Char)
  | '.' :: text =>
      if text.head?.any Char.isDigit then
        some ('.' :: text.takeWhile Char.isDigit, text.dropWhile Char.isDigit)
      else
        none
  | text => some ([], text)

/-- The letters that can follow a number to name its type. -/
def suffixLetters : List Char :=
  ['l', 'L', 'm', 'M', 'd', 'D', 'f', 'F']

/-- Split off one suffix letter, unless a letter or digit follows it. -/
def splitSuffix : List Char → List Char × List Char
  | c :: text =>
      if suffixLetters.contains c && !startsAlphanum text then
        ([c], text)
      else
        ([], c :: text)
  | [] => ([], [])

/-- Whether a character cannot stand right after a number. -/
def continuesNumber (c : Char) : Bool :=
  c.isAlphanum || c == '.' || c == '_'

/-- The failure to read a number, with the text read so far. -/
def malformed (text : List Char) : Failure :=
  ⟨.malformedNumber (String.ofList text), 0⟩

/-- Read a number after its sign.  The value is that of the numeral without
the suffix. -/
def readNumber (sign text : List Char) : Except Failure Lexeme :=
  let whole := sign ++ text.takeWhile Char.isDigit
  match splitFraction (text.dropWhile Char.isDigit) with
  | none => .error (malformed (whole ++ ['.']))
  | some (fraction, afterFraction) =>
      let (suffix, rest) := splitSuffix afterFraction
      let token := whole ++ fraction ++ suffix
      if rest.head?.any continuesNumber then
        .error (malformed (token ++ rest.takeWhile Char.isAlphanum))
      else
        match Decimal.read? (whole ++ fraction) with
        | none => .error (malformed token)
        | some value => .ok ⟨.literal (.number value), token, rest⟩

/-! ## Single tokens -/

/-- Read the token that starts with the character `c`.  A minus right before a
digit is the sign of a number, unless an operand ends before it. -/
def readToken (afterOperand : Bool) (c : Char) (text : List Char) :
    Except Failure Lexeme :=
  if c = '(' then .ok ⟨.leftParen, [c], text⟩
  else if c = ')' then .ok ⟨.rightParen, [c], text⟩
  else if c = ',' then .ok ⟨.comma, [c], text⟩
  else if c = '-' then
    if text.head?.any Char.isDigit && !afterOperand then
      readNumber [c] text
    else
      .ok ⟨.minus, [c], text⟩
  else if c = '\'' then readString text
  else if c.isDigit then readNumber [] (c :: text)
  else if c.isAlpha then readWord (c :: text)
  else .error ⟨.unexpectedCharacter c, 0⟩

/-! ## Nothing is lost -/

theorem append_of_splitPath (text : List Char) :
    (splitPath text).1 ++ (splitPath text).2 = text := by
  induction text with
  | nil => rfl
  | cons c text ih =>
      unfold splitPath
      split
      · exact congrArg (c :: ·) ih
      · rfl

theorem append_of_splitFraction {text fraction rest : List Char}
    (split : splitFraction text = some (fraction, rest)) :
    fraction ++ rest = text := by
  unfold splitFraction at split
  split at split
  · split at split
    · cases split
      simp
    · cases split
  · cases split
    rfl

theorem append_of_splitSuffix (text : List Char) :
    (splitSuffix text).1 ++ (splitSuffix text).2 = text := by
  unfold splitSuffix
  split
  · split <;> rfl
  · rfl

theorem append_of_readNumber {sign text : List Char} {lexeme : Lexeme}
    (read : readNumber sign text = .ok lexeme) :
    lexeme.text ++ lexeme.rest = sign ++ text := by
  have digits : text.takeWhile Char.isDigit ++ text.dropWhile Char.isDigit = text :=
    List.takeWhile_append_dropWhile
  unfold readNumber at read
  split at read
  · cases read
  · next fraction afterFraction split =>
      have afterDigits := append_of_splitFraction split
      have afterNumeral := append_of_splitSuffix afterFraction
      obtain ⟨suffix, rest⟩ := splitSuffix afterFraction
      dsimp only at read afterNumeral
      split at read
      · cases read
      · split at read
        · cases read
        · cases read
          simp [List.append_assoc, afterNumeral, afterDigits, digits]

theorem append_of_readString {text : List Char} {lexeme : Lexeme}
    (read : readString text = .ok lexeme) :
    lexeme.text ++ lexeme.rest = '\'' :: text := by
  unfold readString at read
  split at read
  · cases read
  · next body rest split =>
      cases read
      simp [← append_of_splitQuoted split]

theorem append_of_readWord {text : List Char} {lexeme : Lexeme}
    (read : readWord text = .ok lexeme) : lexeme.text ++ lexeme.rest = text := by
  have whole := append_of_splitPath text
  unfold readWord at read
  obtain ⟨word, rest⟩ := splitPath text
  dsimp only at read whole
  split at read
  · cases read
  · cases read
    exact whole

/-- A token and what is left make up the text they were read from. -/
theorem append_of_readToken {afterOperand : Bool} {c : Char} {text : List Char}
    {lexeme : Lexeme} (read : readToken afterOperand c text = .ok lexeme) :
    lexeme.text ++ lexeme.rest = c :: text := by
  unfold readToken at read
  split at read
  · cases read; rfl
  split at read
  · cases read; rfl
  split at read
  · cases read; rfl
  split at read
  · split at read
    · exact append_of_readNumber read
    · cases read; rfl
  split at read
  · next isQuote => exact isQuote ▸ append_of_readString read
  split at read
  · exact append_of_readNumber read
  split at read
  · exact append_of_readWord read
  · cases read

/-! ## Progress -/

theorem text_ne_nil_of_readNumber {sign text : List Char} {lexeme : Lexeme}
    (digits : sign ++ text.takeWhile Char.isDigit ≠ [])
    (read : readNumber sign text = .ok lexeme) : lexeme.text ≠ [] := by
  unfold readNumber at read
  split at read
  · cases read
  · dsimp only at read
    split at read
    · cases read
    · split at read
      · cases read
      · cases read
        intro empty
        exact digits (List.append_eq_nil_iff.mp (List.append_eq_nil_iff.mp empty).1).1

theorem text_ne_nil_of_readWord {c : Char} {text : List Char} {lexeme : Lexeme}
    (letter : c.isAlphanum) (read : readWord (c :: text) = .ok lexeme) :
    lexeme.text ≠ [] := by
  unfold readWord splitPath at read
  simp only [letter, Bool.true_or, if_true] at read
  split at read
  · cases read
  · cases read
    simp

/-- No token is empty. -/
theorem text_ne_nil_of_readToken {afterOperand : Bool} {c : Char}
    {text : List Char} {lexeme : Lexeme}
    (read : readToken afterOperand c text = .ok lexeme) : lexeme.text ≠ [] := by
  unfold readToken at read
  split at read
  · cases read; simp
  split at read
  · cases read; simp
  split at read
  · cases read; simp
  split at read
  · split at read
    · exact text_ne_nil_of_readNumber (by simp) read
    · cases read; simp
  split at read
  · unfold readString at read
    split at read
    · cases read
    · cases read; simp
  split at read
  · next isDigit => exact text_ne_nil_of_readNumber (by simp [isDigit]) read
  split at read
  · next isAlpha =>
      exact text_ne_nil_of_readWord (by simp [Char.isAlphanum, isAlpha]) read
  · cases read

/-- Reading a token after blanks leaves less text. -/
theorem length_rest_lt {afterOperand : Bool} {c : Char} {text more : List Char}
    {lexeme : Lexeme} (blanks : text.dropWhile isBlank = c :: more)
    (read : readToken afterOperand c more = .ok lexeme) :
    lexeme.rest.length < text.length := by
  have lengths := congrArg List.length (append_of_readToken read)
  have tokenLength := List.length_pos_iff.mpr (text_ne_nil_of_readToken read)
  have skipped := (List.dropWhile_suffix (l := text) isBlank).length_le
  rw [blanks] at skipped
  rw [List.length_append] at lengths
  omega

/-! ## Whole sources -/

/-- The tokens of a text that starts at byte `start` of its source, up to and
with the token that ends every list. -/
def tokensFrom (start : Nat) (afterOperand : Bool) (text : List Char) :
    Except SyntaxError (List Token) :=
  let offset := start + byteLength (text.takeWhile isBlank)
  match blanks : text.dropWhile isBlank with
  | [] => .ok [⟨.endOfInput, "", offset, offset⟩]
  | c :: more =>
      match read : readToken afterOperand c more with
      | .error failure =>
          .error ⟨.filter, some (offset + failure.ahead), failure.cause⟩
      | .ok lexeme =>
          have := length_rest_lt blanks read
          let stop := offset + byteLength lexeme.text
          (tokensFrom stop lexeme.kind.endsOperand lexeme.rest).map fun tokens =>
            ⟨lexeme.kind, String.ofList lexeme.text, offset, stop⟩ :: tokens
  termination_by text.length

/-- The tokens of a source, ending with one of kind `endOfInput`. -/
def tokenize (source : String) : Except SyntaxError (List Token) :=
  tokensFrom 0 false source.toList

end OData.Token
