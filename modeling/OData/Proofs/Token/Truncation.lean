import OData.Proofs.Token.Lookahead
import OData.Proofs.Token.Refusal

/-!
# The text before an error

Where the lexer gives up, everything in front of that place has been cut into
tokens.  It can be cut alone, since a text that breaks off behind a token keeps
its tokens.  Only one error lies behind the start of a token: a path that lacks
a segment is refused behind the segments that it has, and these are a path.
-/

namespace OData.Token

open Text

variable {start : Nat} {afterOperand : Bool} {blanks text : List Char}

/-! ## Single tokens -/

theorem ahead_of_readNumber {sign : List Char} {failure : Failure}
    (failed : readNumber sign text = .error failure) : failure.ahead = 0 := by
  unfold readNumber at failed
  split at failed
  · cases failed; rfl
  · dsimp only at failed
    split at failed
    · cases failed; rfl
    · split at failed
      · cases failed; rfl
      · cases failed

/-- A word that lacks a segment is refused behind the segments that it has. -/
theorem ahead_of_readWord {failure : Failure} (failed : readWord text = .error failure) :
    failure.ahead = byteLength (splitPath text).1 := by
  unfold readWord at failed
  dsimp only at failed
  split at failed
  · cases failed; rfl
  · cases failed

/-- What is split off a text as a path is read alone as a word. -/
theorem readWord_splitPath (text : List Char) :
    readWord (splitPath text).1 = .ok ⟨wordKind (splitPath text).1, (splitPath text).1, []⟩ := by
  have noSlash : ([] : List Char).head? ≠ some '/' := by decide
  have alone := splitPath_append_of_head rfl noSlash text
  rw [List.append_nil] at alone
  rw [readWord, alone]
  exact if_neg noSlash

/-- What stands between the start of a token and the place where it is refused. -/
theorem readToken_eq_error_cases {c : Char} {failure : Failure}
    (failed : readToken afterOperand c text = .error failure) :
    failure.ahead = 0 ∨ c.isAlpha ∧ failure.ahead = byteLength (splitPath (c :: text)).1 := by
  unfold readToken at failed
  split at failed
  · cases failed
  split at failed
  · cases failed
  split at failed
  · cases failed
  split at failed
  · split at failed
    · exact .inl (ahead_of_readNumber failed)
    · cases failed
  split at failed
  · unfold readString at failed
    split at failed
    · cases failed; exact .inl rfl
    · cases failed
  split at failed
  · exact .inl (ahead_of_readNumber failed)
  split at failed
  · next isAlpha => exact .inr ⟨isAlpha, ahead_of_readWord failed⟩
  · cases failed; exact .inl rfl

/-- The text up to the place where a token is refused is cut into tokens. -/
theorem exists_cuts_of_readToken {c : Char} {failure : Failure}
    (areBlank : ∀ c ∈ blanks, isBlank c) (notBlank : ¬ isBlank c)
    (failed : readToken afterOperand c text = .error failure) :
    ∃ before after, c :: text = before ++ after ∧ failure.ahead = byteLength before ∧
      ∃ tokens, Cuts start afterOperand (blanks ++ before) tokens := by
  rcases readToken_eq_error_cases failed with atStart | ⟨alpha, behindWord⟩
  · rw [← List.append_nil blanks] at areBlank
    exact ⟨[], c :: text, rfl, atStart, _, .done areBlank⟩
  · have alphanum : c.isAlphanum := by simp [Char.isAlphanum, alpha]
    have whole := append_of_splitPath (c :: text)
    have isRead := readWord_splitPath (c :: text)
    refine ⟨_, _, whole.symm, behindWord, ?_⟩
    rw [splitPath_cons_of_isAlphanum alphanum] at isRead ⊢
    rw [← readToken_of_isAlpha alpha] at isRead
    exact ⟨_, .token areBlank notBlank isRead (.done (List.forall_mem_nil _))⟩

/-- A text that cannot be cut into tokens can be cut up to the place of the
error. -/
theorem Sticks.exists_cuts {error : SyntaxError} (sticks : Sticks start afterOperand text error) :
    ∃ before after, text = before ++ after ∧ error.offset = some (start + byteLength before) ∧
      ∃ tokens, Cuts start afterOperand before tokens := by
  induction sticks with
  | @here start _ blanks more c failure areBlank notBlank read =>
      rcases exists_cuts_of_readToken areBlank notBlank read with
        ⟨before, after, whole, ahead, cuts⟩
      refine ⟨blanks ++ before, after, ?_, ?_, cuts⟩
      · rw [whole, List.append_assoc]
      · rw [ahead, byteLength_append, Nat.add_assoc]
  | @later start _ blanks more c lexeme error areBlank notBlank read _ ih =>
      rcases ih with ⟨before, after, restEq, place, tokens, cuts⟩
      have whole := append_of_readToken read
      have replaces : Replaces lexeme.rest before := replaces_of_isPrefix ⟨after, restEq.symm⟩
      refine ⟨blanks ++ (lexeme.text ++ before), after, ?_, ?_, ?_⟩
      · rw [List.append_assoc, List.append_assoc, ← restEq, whole]
      · rw [place, byteLength_append, byteLength_append, Nat.add_assoc, Nat.add_assoc]
      · cases textEq : lexeme.text with
        | nil => exact absurd textEq (text_ne_nil_of_readToken read)
        | cons d own =>
            rw [textEq] at whole
            obtain ⟨rfl, rfl⟩ := List.cons.inj whole
            have readShort : readToken _ d (own ++ before) = .ok { lexeme with rest := before } :=
              readToken_of_replaces read replaces (by rw [textEq, List.cons_append])
            exact ⟨_, .token areBlank notBlank readShort cuts⟩

/-- Where the text of a filter cannot be cut into tokens, the error lies behind
a text that can. -/
theorem exists_tokenize_before {source : String} {error : SyntaxError}
    (failed : tokenize source = .error error) :
    ∃ before after, source = before ++ after ∧ error.offset = some before.utf8ByteSize ∧
      ∃ tokens, tokenize before = .ok tokens := by
  rcases (sticks_of_tokensFrom failed).exists_cuts with ⟨before, after, whole, place, tokens, cuts⟩
  refine ⟨String.ofList before, String.ofList after, ?_, ?_, tokens, ?_⟩
  · rw [← String.ofList_append, ← whole, String.ofList_toList]
  · rw [place, Nat.zero_add, ← byteLength_toList, String.toList_ofList]
  · rw [tokenize, String.toList_ofList]
    exact tokensFrom_eq_ok_iff.mpr cuts

end OData.Token
