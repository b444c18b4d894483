import Mathlib.Data.List.TakeWhile
import OData.Expr.Reader
import OData.Proofs.Characters
import OData.Proofs.Outcome
import OData.Proofs.Path

/-!
# How a source is cut into tokens

`Cuts` tells the tokens of a text apart from how they are found: blanks, then
either nothing, which ends the list, or a token and the tokens of what it
leaves.  `tokensFrom` finds exactly these, so facts about all tokens of a
source are proved by induction on `Cuts`, a token at a time.
-/

namespace OData.Token

open Text
open SyntaxError (Cause)

/-! ## Cuts -/

/-- The tokens of a text that starts at byte `start` of its source. -/
inductive Cuts : (start : Nat) → (afterOperand : Bool) → List Char → List Token → Prop
  | done {start : Nat} {afterOperand : Bool} {blanks : List Char}
      (areBlank : ∀ c ∈ blanks, isBlank c) :
      Cuts start afterOperand blanks
        [⟨.endOfInput, "", start + byteLength blanks, start + byteLength blanks⟩]
  | token {start : Nat} {afterOperand : Bool} {blanks more : List Char} {c : Char}
      {lexeme : Lexeme} {tokens : List Token}
      (areBlank : ∀ c ∈ blanks, isBlank c) (notBlank : ¬ isBlank c)
      (read : readToken afterOperand c more = .ok lexeme)
      (rest : Cuts (start + byteLength blanks + byteLength lexeme.text)
        lexeme.kind.endsOperand lexeme.rest tokens) :
      Cuts start afterOperand (blanks ++ c :: more)
        (⟨lexeme.kind, String.ofList lexeme.text, start + byteLength blanks,
          start + byteLength blanks + byteLength lexeme.text⟩ :: tokens)

theorem tokensFrom_of_blank {blanks : List Char} (areBlank : ∀ c ∈ blanks, isBlank c)
    (start : Nat) (afterOperand : Bool) :
    tokensFrom start afterOperand blanks =
      .ok [⟨.endOfInput, "", start + byteLength blanks, start + byteLength blanks⟩] := by
  have nothing : blanks.dropWhile isBlank = [] := List.dropWhile_eq_nil_iff.mpr areBlank
  have all : blanks.takeWhile isBlank = blanks := List.takeWhile_eq_self_iff.mpr areBlank
  rw [tokensFrom]
  split
  · rw [all]
  · next blanksEq =>
      rw [nothing] at blanksEq
      cases blanksEq

/-- Cutting reads a token after the blanks and goes on behind it. -/
theorem tokensFrom_append_cons {blanks : List Char} (areBlank : ∀ c ∈ blanks, isBlank c)
    {c : Char} (notBlank : ¬ isBlank c) (more : List Char) (start : Nat) (afterOperand : Bool) :
    let offset := start + byteLength blanks
    tokensFrom start afterOperand (blanks ++ c :: more) =
      match readToken afterOperand c more with
      | .error failure => .error ⟨.filter, some (offset + failure.ahead), failure.cause⟩
      | .ok lexeme =>
          let stop := offset + byteLength lexeme.text
          (tokensFrom stop lexeme.kind.endsOperand lexeme.rest).map fun tokens =>
            ⟨lexeme.kind, String.ofList lexeme.text, offset, stop⟩ :: tokens := by
  have skipped := takeWhile_isBlank_append areBlank notBlank more
  have remaining := dropWhile_isBlank_append areBlank notBlank more
  rw [tokensFrom, skipped]
  split
  · next nothing =>
      rw [remaining] at nothing
      cases nothing
  · next first others found =>
      rw [remaining] at found
      cases found
      split
      · next failure failed => simp only [failed]
      · next lexeme read => simp only [read]

/-- Cutting finds the tokens of a text and no others. -/
theorem tokensFrom_eq_ok_iff {start : Nat} {afterOperand : Bool} {text : List Char}
    {tokens : List Token} :
    tokensFrom start afterOperand text = .ok tokens ↔ Cuts start afterOperand text tokens := by
  constructor
  · intro cut
    induction length : text.length using Nat.strongRecOn
      generalizing start afterOperand text tokens with
    | ind length ih =>
        have areBlank := forall_mem_takeWhile_isBlank text
        have whole := List.takeWhile_append_dropWhile (p := isBlank) (l := text)
        cases remaining : text.dropWhile isBlank with
        | nil =>
            rw [remaining, List.append_nil] at whole
            rw [whole] at areBlank
            rw [tokensFrom_of_blank areBlank] at cut
            cases cut
            exact .done areBlank
        | cons c more =>
            have notBlank := not_isBlank_of_dropWhile remaining
            rw [remaining] at whole
            rw [← whole] at cut ⊢
            rw [tokensFrom_append_cons areBlank notBlank] at cut
            cases read : readToken afterOperand c more with
            | error failure =>
                rw [read] at cut
                cases cut
            | ok lexeme =>
                simp only [read] at cut
                rcases Except.map_eq_ok_iff.mp cut with ⟨others, cutRest, rfl⟩
                have shorter := length_rest_lt remaining read
                exact .token areBlank notBlank read (ih _ (by omega) cutRest rfl)
  · intro cuts
    induction cuts with
    | done areBlank => exact tokensFrom_of_blank areBlank _ _
    | token areBlank notBlank read _ ih =>
        rw [tokensFrom_append_cons areBlank notBlank, read]
        exact Except.map_eq_ok_iff.mpr ⟨_, ih, rfl⟩

end OData.Token
