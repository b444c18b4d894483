import OData.Proofs.Token.Cutting

/-!
# How a source is refused

`Sticks` tells the error of a text that cannot be cut into tokens apart from
how it is found: some tokens, then blanks and a character where no token can
be read.  The lexer refuses for four reasons only, none of which is about
expressions.
-/

namespace OData.Token

open Text
open SyntaxError (Cause)

/-- The error of a text that starts at byte `start` of its source. -/
inductive Sticks : (start : Nat) → (afterOperand : Bool) → List Char → SyntaxError → Prop
  | here {start : Nat} {afterOperand : Bool} {blanks more : List Char} {c : Char}
      {failure : Failure} (areBlank : ∀ c ∈ blanks, isBlank c) (notBlank : ¬ isBlank c)
      (read : readToken afterOperand c more = .error failure) :
      Sticks start afterOperand (blanks ++ c :: more)
        ⟨.filter, some (start + byteLength blanks + failure.ahead), failure.cause⟩
  | later {start : Nat} {afterOperand : Bool} {blanks more : List Char} {c : Char}
      {lexeme : Lexeme} {error : SyntaxError}
      (areBlank : ∀ c ∈ blanks, isBlank c) (notBlank : ¬ isBlank c)
      (read : readToken afterOperand c more = .ok lexeme)
      (rest : Sticks (start + byteLength blanks + byteLength lexeme.text)
        lexeme.kind.endsOperand lexeme.rest error) :
      Sticks start afterOperand (blanks ++ c :: more) error

/-- Cutting a text fails where the text sticks. -/
theorem sticks_of_tokensFrom {start : Nat} {afterOperand : Bool} {text : List Char}
    {error : SyntaxError} (failed : tokensFrom start afterOperand text = .error error) :
    Sticks start afterOperand text error := by
  induction length : text.length using Nat.strongRecOn generalizing start afterOperand text with
  | ind length ih =>
      have areBlank := forall_mem_takeWhile_isBlank text
      have whole := List.takeWhile_append_dropWhile (p := isBlank) (l := text)
      cases remaining : text.dropWhile isBlank with
      | nil =>
          rw [remaining, List.append_nil] at whole
          rw [whole] at areBlank
          rw [tokensFrom_of_blank areBlank] at failed
          cases failed
      | cons c more =>
          have notBlank := not_isBlank_of_dropWhile remaining
          rw [remaining] at whole
          rw [← whole] at failed ⊢
          rw [tokensFrom_append_cons areBlank notBlank] at failed
          cases read : readToken afterOperand c more with
          | error failure =>
              simp only [read] at failed
              cases failed
              exact .here areBlank notBlank read
          | ok lexeme =>
              simp only [read] at failed
              have shorter := length_rest_lt remaining read
              have failedRest := Except.map_eq_error_iff.mp failed
              exact .later areBlank notBlank read (ih _ (by omega) failedRest rfl)

/-- The reasons for which the lexer refuses a text. -/
def IsLexicalCause : Cause → Prop
  | .unexpectedCharacter _ | .missingSegment | .unterminatedString | .malformedNumber _ => True
  | _ => False

theorem isLexicalCause_of_readNumber {sign text : List Char} {failure : Failure}
    (read : readNumber sign text = .error failure) : IsLexicalCause failure.cause := by
  unfold readNumber at read
  split at read
  · cases read; trivial
  · dsimp only at read
    split at read
    · cases read; trivial
    · split at read
      · cases read; trivial
      · cases read

theorem isLexicalCause_of_readString {text : List Char} {failure : Failure}
    (read : readString text = .error failure) : IsLexicalCause failure.cause := by
  unfold readString at read
  split at read
  · cases read; trivial
  · cases read

theorem isLexicalCause_of_readWord {text : List Char} {failure : Failure}
    (read : readWord text = .error failure) : IsLexicalCause failure.cause := by
  unfold readWord at read
  dsimp only at read
  split at read
  · cases read; trivial
  · cases read

theorem isLexicalCause_of_readToken {afterOperand : Bool} {c : Char} {text : List Char}
    {failure : Failure} (read : readToken afterOperand c text = .error failure) :
    IsLexicalCause failure.cause := by
  unfold readToken at read
  split at read
  · cases read
  split at read
  · cases read
  split at read
  · cases read
  split at read
  · split at read
    · exact isLexicalCause_of_readNumber read
    · cases read
  split at read
  · exact isLexicalCause_of_readString read
  split at read
  · exact isLexicalCause_of_readNumber read
  split at read
  · exact isLexicalCause_of_readWord read
  · cases read; trivial

/-- A source that is no token list is refused as the text of a filter, for a
lexical reason. -/
theorem Sticks.part_and_cause {start : Nat} {afterOperand : Bool} {text : List Char}
    {error : SyntaxError} (sticks : Sticks start afterOperand text error) :
    error.part = .filter ∧ IsLexicalCause error.cause := by
  induction sticks with
  | here _ _ read => exact ⟨rfl, isLexicalCause_of_readToken read⟩
  | later _ _ _ _ ih => exact ih

end OData.Token
