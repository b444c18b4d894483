import OData.Proofs.Token.Lookahead

/-!
# Tokens in a larger text

A text keeps its tokens where it stands in a larger one, if a separator follows
it.  Readers look past the end of a token to see whether it goes on, and no
token goes on with a separator any more than with the end of the text.  The
place before the text only matters to a minus, which asks whether an operand
ends there.
-/

namespace OData.Token

open Text

variable {afterOperand : Bool} {text rest : List Char} {kinds : List Kind}

/-- A token with more text behind what it leaves. -/
def Lexeme.followedBy (lexeme : Lexeme) (rest : List Char) : Lexeme :=
  { lexeme with rest := lexeme.rest ++ rest }

/-- A token is read before a separator as at the end of a text. -/
theorem readToken_followed {c : Char} {lexeme : Lexeme} (separated : Separated rest)
    (read : readToken afterOperand c text = .ok lexeme) :
    readToken afterOperand c (text ++ rest) = .ok (lexeme.followedBy rest) := by
  have whole : lexeme.text ++ (lexeme.rest ++ rest) = c :: (text ++ rest) := by
    rw [← List.append_assoc, append_of_readToken read, List.cons_append]
  exact readToken_of_replaces read (replaces_append separated lexeme.rest) whole

theorem Spells.blanks {blanks : List Char} (areBlank : ∀ c ∈ blanks, isBlank c)
    (spells : Spells afterOperand text kinds) : Spells afterOperand (blanks ++ text) kinds := by
  induction blanks with
  | nil => exact spells
  | cons c blanks ih =>
      rcases List.forall_mem_cons.mp areBlank with ⟨first, others⟩
      exact (ih others).blank first

theorem kindsOf_cons {token : Token} (notEnd : token.kind ≠ .endOfInput) (tokens : List Token) :
    Expr.kindsOf (token :: tokens) = token.kind :: Expr.kindsOf tokens := by
  simp [Expr.kindsOf, notEnd]

/-- A text with some tokens spells their kinds in front of whatever follows it
after a separator. -/
theorem Cuts.spells_append {start : Nat} {tokens : List Token}
    (cuts : Cuts start afterOperand text tokens) (separated : Separated rest)
    (spells : ∀ afterOperand, Spells afterOperand rest kinds) :
    Spells afterOperand (text ++ rest) (Expr.kindsOf tokens ++ kinds) := by
  induction cuts with
  | done areBlank => exact (spells _).blanks areBlank
  | @token _ _ blanks more c lexeme tokens areBlank notBlank read _ ih =>
      have isKind : lexeme.kind ≠ .endOfInput := (isLexical_of_readToken read).ne_endOfInput
      rw [kindsOf_cons isKind, List.append_assoc, List.cons_append, List.cons_append]
      have followed := readToken_followed separated read
      have behind : Spells (lexeme.followedBy rest).kind.endsOperand
          (lexeme.followedBy rest).rest (Expr.kindsOf tokens ++ kinds) := ih
      have spelled := Spells.token notBlank followed behind
      exact spelled.blanks areBlank

end OData.Token
