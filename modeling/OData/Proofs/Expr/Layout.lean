import OData.Proofs.Expr.Threshold
import OData.Proofs.Token.Context
import OData.Proofs.Token.Tiling

/-!
# Layout

A source can be laid out anew: with other blanks around its tokens, as long as
there are some between any two, and with numbers stripped of their suffixes.
Readers look past the end of a token, but no token goes on with a blank, so each
is read as before.  It comes after a token of the same kind as before, too, so
a minus is a sign exactly where it was one.  Reading an expression looks at the
kinds of tokens only.
-/

namespace OData

namespace Token

open Text

variable {afterOperand : Bool} {text other : List Char} {tokens : List Token}

/-! ## Layouts of tokens -/

/-- The texts that a token can have in a new layout: the one it has and, for a
number, its numeral without the suffix. -/
inductive HasForm (token : Token) : List Char → Prop
  | kept : token.HasForm token.text.toList
  | stripped (numeral : Numeral) (isText : numeral.text = token.text.toList) :
      token.HasForm numeral.unsuffixed

/-- Whether a text has the tokens of a list in their order, with blanks between
them and perhaps behind them. -/
inductive SetsApart : List Token → List Char → Prop
  | nil : SetsApart [] []
  | cons {token : Token} {tokens : List Token} {form blanks rest : List Char}
      (hasForm : token.HasForm form) (areBlank : ∀ c ∈ blanks, isBlank c)
      (apart : tokens ≠ [] → blanks ≠ []) (others : SetsApart tokens rest) :
      SetsApart (token :: tokens) (form ++ (blanks ++ rest))

/-- Whether a source has the tokens of a list in their order, with blanks between
them and perhaps at both ends. -/
def IsLayout (tokens : List Token) (source : String) : Prop :=
  ∃ blanks rest, (∀ c ∈ blanks, isBlank c) ∧ source.toList = blanks ++ rest ∧
    SetsApart tokens rest

/-- A token is read from each of its forms, in front of anything that continues
no token. -/
theorem HasForm.exists_readToken {c : Char} {more form : List Char} {lexeme : Lexeme}
    {start stop : Nat}
    (hasForm : HasForm ⟨lexeme.kind, String.ofList lexeme.text, start, stop⟩ form)
    (read : readToken afterOperand c more = .ok lexeme) (ends : Replaces [] other) :
    ∃ whole, form ++ other = c :: whole ∧
      readToken afterOperand c whole = .ok ⟨lexeme.kind, form, other⟩ := by
  have wasWhole := append_of_readToken read
  cases hasForm with
  | kept =>
      rw [String.toList_ofList]
      cases isText : lexeme.text with
      | nil => exact absurd isText (text_ne_nil_of_readToken read)
      | cons d word =>
          rw [isText] at wasWhole
          cases wasWhole
          refine ⟨word ++ other, rfl, ?_⟩
          rw [← isText]
          exact readToken_of_replaces read (ends.of_nil _) (by rw [isText]; rfl)
  | stripped numeral isText =>
      rw [String.toList_ofList] at isText
      cases unsuffixed : numeral.unsuffixed with
      | nil => exact absurd unsuffixed numeral.unsuffixed_ne_nil
      | cons d word =>
          rw [← isText, Numeral.text, unsuffixed] at wasWhole
          cases wasWhole
          refine ⟨word ++ other, rfl, ?_⟩
          rw [← unsuffixed]
          have endsNumber := ends.head_any continuesToken_of_continuesNumber rfl
          exact numeral.readToken_stripped read isText.symm endsNumber (by rw [unsuffixed]; rfl)

/-- What is set apart from a token by blanks does not continue it. -/
theorem SetsApart.replaces_nil {blanks rest : List Char} (setsApart : SetsApart tokens rest)
    (areBlank : ∀ c ∈ blanks, isBlank c) (apart : tokens ≠ [] → blanks ≠ []) :
    Replaces [] (blanks ++ rest) := by
  cases blanks with
  | nil =>
      cases setsApart with
      | nil => exact replaces_nil_of_blank fun _ member => nomatch member
      | cons => exact absurd rfl (apart (List.cons_ne_nil _ _))
  | cons d blanks =>
      apply replaces_nil_of_blank
      rintro _ ⟨⟩
      exact areBlank d List.mem_cons_self

theorem Cuts.ne_nil {start : Nat} (cuts : Cuts start afterOperand text tokens) : tokens ≠ [] := by
  cases cuts <;> exact List.cons_ne_nil _ _

/-- The tokens of a text have their kinds in every layout. -/
theorem Cuts.spells_of_setsApart {start : Nat} {laid : List Char}
    (cuts : Cuts start afterOperand text tokens) (setsApart : SetsApart tokens.dropLast laid) :
    Spells afterOperand laid (Expr.kindsOf tokens) := by
  induction cuts generalizing laid with
  | done =>
      cases setsApart
      exact spells_nil _
  | @token start _ blanks more c lexeme tokens _ notBlank read cuts ih =>
      have isKind : lexeme.kind ≠ .endOfInput := (isLexical_of_readToken read).ne_endOfInput
      rw [kindsOf_cons isKind]
      rw [List.dropLast_cons_of_ne_nil cuts.ne_nil] at setsApart
      cases setsApart with
      | cons hasForm areBlank apart others =>
          have ends := others.replaces_nil areBlank apart
          rcases hasForm.exists_readToken read ends with ⟨whole, isWhole, readForm⟩
          have spelled := Spells.token notBlank readForm ((ih others).blanks areBlank)
          rw [isWhole]
          exact spelled

/-- Layout does not change the kinds of tokens. -/
theorem exists_tokenize_of_isLayout {source laid : String}
    (tokenized : tokenize source = .ok tokens) (isLayout : IsLayout tokens.dropLast laid) :
    ∃ others, tokenize laid = .ok others ∧ others.map Token.kind = tokens.map Token.kind := by
  rcases isLayout with ⟨blanks, rest, areBlank, isText, setsApart⟩
  have spells := (tokensFrom_eq_ok_iff.mp tokenized).spells_of_setsApart setsApart
  have spells := spells.blanks areBlank
  rw [← isText] at spells
  rcases exists_tokenize_of_spells spells with ⟨others, tokenizedLaid, sameKinds⟩
  refine ⟨others, tokenizedLaid, ?_⟩
  rw [(kinds_of_tokenize tokenizedLaid).1, (kinds_of_tokenize tokenized).1, sameKinds]

end Token

/-- An error without its place.  The part, the cause and so the message stay. -/
def SyntaxError.unplaced (error : SyntaxError) : SyntaxError :=
  { error with offset := none }

namespace Expr

open Text

variable {source laid : String} {tokens others : List Token}

/-! ## Reading a layout -/

/-- A source is blank exactly if it has no tokens. -/
theorem trim_eq_nil_iff_kindsOf_eq_nil (tokenized : Token.tokenize source = .ok tokens) :
    trim source.toList = [] ↔ kindsOf tokens = [] := by
  rw [trim_eq_nil_iff]
  constructor
  · intro areBlank
    rw [Token.tokenize, Token.tokensFrom_of_blank areBlank] at tokenized
    cases tokenized
    rfl
  · intro noKinds
    have cuts := Token.tokensFrom_eq_ok_iff.mp tokenized
    generalize source.toList = text at cuts ⊢
    cases cuts with
    | done areBlank => exact areBlank
    | token _ _ read _ =>
        rw [Token.kindsOf_cons (Token.isLexical_of_readToken read).ne_endOfInput] at noKinds
        cases noKinds

/-- What tokens are read as depends on their kinds, but for the place of an
error. -/
theorem ofTokens_mapError_unplaced (maxNesting : Nat) (tokens : List Token) :
    (ofTokens maxNesting tokens).mapError SyntaxError.unplaced =
      (ofKinds maxNesting (kindsOf tokens)).mapError fun failure =>
        ⟨.filter, none, failure.cause⟩ :=
  Except.mapError_mapError

/-- Sources with tokens of the same kinds are read alike. -/
theorem read_eq_of_kindsOf_eq (tokenized : Token.tokenize source = .ok tokens)
    (tokenizedLaid : Token.tokenize laid = .ok others) (sameKinds : kindsOf others = kindsOf tokens)
    (maxNesting : Nat) :
    (read maxNesting laid).mapError SyntaxError.unplaced =
      (read maxNesting source).mapError SyntaxError.unplaced := by
  by_cases noKinds : kindsOf tokens = []
  · have blank := (trim_eq_nil_iff_kindsOf_eq_nil tokenized).mpr noKinds
    have blankLaid := (trim_eq_nil_iff_kindsOf_eq_nil tokenizedLaid).mpr (sameKinds.trans noKinds)
    rw [read_of_blank blank, read_of_blank blankLaid]
  · have notBlank := mt (trim_eq_nil_iff_kindsOf_eq_nil tokenized).mp noKinds
    have notBlankLaid : trim laid.toList ≠ [] := by
      rw [ne_eq, trim_eq_nil_iff_kindsOf_eq_nil tokenizedLaid, sameKinds]
      exact noKinds
    rw [read_of_tokenize_eq_ok notBlank tokenized,
      read_of_tokenize_eq_ok notBlankLaid tokenizedLaid, Except.mapError_map, Except.mapError_map,
      ofTokens_mapError_unplaced, ofTokens_mapError_unplaced, sameKinds]

/-- The layout of a source does not matter: other blanks around its tokens and
numbers without their suffixes give tokens of the same kinds, and under every
limit on nesting the same expression or the same error elsewhere. -/
theorem tokenize_and_read_of_isLayout (tokenized : Token.tokenize source = .ok tokens)
    (isLayout : Token.IsLayout tokens.dropLast laid) :
    (∃ others, Token.tokenize laid = .ok others ∧
      others.map Token.kind = tokens.map Token.kind) ∧
    ∀ maxNesting, (read maxNesting laid).mapError SyntaxError.unplaced =
      (read maxNesting source).mapError SyntaxError.unplaced := by
  rcases Token.exists_tokenize_of_isLayout tokenized isLayout with
    ⟨others, tokenizedLaid, sameKinds⟩
  refine ⟨⟨others, tokenizedLaid, sameKinds⟩, ?_⟩
  have sameKindsOf : kindsOf others = kindsOf tokens := by
    rw [kindsOf, kindsOf, sameKinds]
  exact read_eq_of_kindsOf_eq tokenized tokenizedLaid sameKindsOf

/-- Other blanks, and a signed number without its suffix. -/
theorem tokenize_and_read_of_isLayout_signed_number :
    let source := "a eq-1.50m"
    let laid := "\u3000a\t\neq\u00A0-1.50 "
    let tokens : List Token :=
      [⟨.path "a", "a", 0, 1⟩, ⟨.operator .eq, "eq", 2, 4⟩,
        ⟨.literal (.number ⟨-150, 2, by decide, by decide⟩), "-1.50m", 4, 10⟩,
        ⟨.endOfInput, "", 10, 10⟩]
    Token.tokenize source = .ok tokens ∧ Token.IsLayout tokens.dropLast laid ∧
      (∃ others, Token.tokenize laid = .ok others ∧
        others.map Token.kind = tokens.map Token.kind) ∧
      ∀ maxNesting, (read maxNesting laid).mapError SyntaxError.unplaced =
        (read maxNesting source).mapError SyntaxError.unplaced := by
  intro source laid tokens
  have tokenized : Token.tokenize source = .ok tokens := by decide +kernel
  let numeral : Token.Numeral :=
    ⟨true, ['1'], ['5', '0'], some 'm', by decide, List.all_eq_true.mp rfl,
      List.all_eq_true.mp rfl, by simp [Token.suffixLetters]⟩
  have setsApart : Token.SetsApart tokens.dropLast ("a".toList ++ (['\t', '\n'] ++
      ("eq".toList ++ (['\u00A0'] ++ (numeral.unsuffixed ++ ([' '] ++ [])))))) :=
    .cons .kept (List.all_eq_true.mp rfl) (by decide)
      (.cons .kept (List.all_eq_true.mp rfl) (by decide)
        (.cons (.stripped numeral (by decide)) (List.all_eq_true.mp rfl) (by decide) .nil))
  have isLayout : Token.IsLayout tokens.dropLast laid :=
    ⟨['\u3000'], _, List.all_eq_true.mp rfl, by decide, setsApart⟩
  exact ⟨tokenized, isLayout, tokenize_and_read_of_isLayout tokenized isLayout⟩

end Expr

end OData
