import OData.Proofs.Token.Places
import OData.Proofs.Token.Spelling

/-!
# Tokens tile their source

A token list loses nothing of its source: the texts of the tokens, with the
blanks between them, make up the source, and every token stands in it where
its span says.  Each token also says what its text says.  `Kind.IsSpelled`
tells the texts of every kind; only numbers have more than one, since a suffix
and leading zeros are no part of their value.
-/

namespace OData.Token

open Text

/-! ## The texts of a kind -/

/-- Whether tokens of a kind are read from a text.  A path is its own text and
a word; a number is the value of a numeral; every other kind has one text. -/
def Kind.IsSpelled (kind : Kind) (text : String) : Prop :=
  match kind with
  | .path name => name = text ∧ IsWord name
  | .literal (.number value) =>
      ∃ numeral : Numeral, numeral.text = text.toList ∧
        Decimal.read? numeral.unsuffixed = some value
  | kind => kind.written = text

/-- A number is read from a numeral, with the value of that numeral. -/
theorem isSpelled_of_readNumber (negative : Bool) {sign text : List Char} {lexeme : Lexeme}
    (isSign : sign = if negative then ['-'] else []) (starts : text.head?.any Char.isDigit)
    (read : readNumber sign text = .ok lexeme) :
    lexeme.kind.IsSpelled (String.ofList lexeme.text) := by
  rcases exists_numeral_of_readNumber negative isSign starts read with
    ⟨numeral, value, _, isValue, isLexeme, _⟩
  rw [isLexeme]
  exact ⟨numeral, String.toList_ofList.symm, isValue⟩

/-! ## Words, strings and punctuation -/

theorem isSpelled_of_ofWord? {word : String} {kind : Kind}
    (reserved : Kind.ofWord? word = some kind) : kind.IsSpelled word := by
  unfold Kind.ofWord? at reserved
  split at reserved
  · cases reserved; rfl
  · cases reserved; rfl
  · cases reserved; rfl
  · cases reserved; rfl
  · rcases Option.map_eq_some_iff.mp reserved with ⟨op, found, rfl⟩
    rw [BinaryOperator.ofWord?] at found
    have isWord := List.find?_some found
    exact beq_iff_eq.mp isWord

theorem isSpelled_of_readWord {c : Char} (alpha : c.isAlpha) {text : List Char} {lexeme : Lexeme}
    (read : readWord (c :: text) = .ok lexeme) :
    lexeme.kind.IsSpelled (String.ofList lexeme.text) := by
  have lexical := isLexical_of_readWord alpha read
  unfold readWord at read
  dsimp only at read
  split at read
  · cases read
  · cases read
    dsimp only [wordKind] at lexical ⊢
    cases reserved : Kind.ofWord? (String.ofList (splitPath (c :: text)).1) with
    | some kind => exact isSpelled_of_ofWord? reserved
    | none =>
        rw [reserved] at lexical
        exact ⟨rfl, lexical⟩

/-- The text up to a closing quote is what writing its value in quotes gives. -/
theorem double_undouble_of_splitQuoted {text body rest : List Char}
    (split : splitQuoted text = some (body, rest)) : double (undouble body) = body := by
  fun_induction splitQuoted text generalizing body with
  | case1 => cases split
  | case2 text ih =>
      simp only [Option.map_eq_some_iff, Prod.exists, Prod.mk.injEq] at split
      obtain ⟨inner, _, found, rfl, rfl⟩ := split
      simp [undouble, double, ih found]
  | case3 =>
      simp only [Option.some.injEq, Prod.mk.injEq] at split
      obtain ⟨rfl, rfl⟩ := split
      rfl
  | case4 c text _ notQuote ih =>
      simp only [Option.map_eq_some_iff, Prod.exists, Prod.mk.injEq] at split
      obtain ⟨inner, _, found, rfl, rfl⟩ := split
      have other : c ≠ '\'' := notQuote
      simp [undouble, double, other, ih found]

theorem isSpelled_of_readString {text : List Char} {lexeme : Lexeme}
    (read : readString text = .ok lexeme) :
    lexeme.kind.IsSpelled (String.ofList lexeme.text) := by
  unfold readString at read
  split at read
  · cases read
  · next body rest split =>
      cases read
      have body := double_undouble_of_splitQuoted split
      simp [Kind.IsSpelled, Kind.written, Literal.written, quote, body]

/-- Every token is read from a text of its kind. -/
theorem isSpelled_of_readToken {afterOperand : Bool} {c : Char} {text : List Char}
    {lexeme : Lexeme} (read : readToken afterOperand c text = .ok lexeme) :
    lexeme.kind.IsSpelled (String.ofList lexeme.text) := by
  unfold readToken at read
  split at read
  · next isChar => cases read; subst isChar; rfl
  split at read
  · next isChar => cases read; subst isChar; rfl
  split at read
  · next isChar => cases read; subst isChar; rfl
  split at read
  · next isMinus =>
      subst isMinus
      split at read
      · next signs =>
          rw [Bool.and_eq_true] at signs
          exact isSpelled_of_readNumber true rfl signs.1 read
      · cases read; rfl
  split at read
  · exact isSpelled_of_readString read
  split at read
  · next isDigit => exact isSpelled_of_readNumber false rfl (by simpa using isDigit) read
  split at read
  · next alpha => exact isSpelled_of_readWord alpha read
  · cases read

/-! ## Tokens and the blanks between them -/

/-- A text made up of gaps, each with the token after it. -/
def laidOut (pieces : List (List Char × Token)) : List Char :=
  pieces.flatMap fun piece => piece.1 ++ piece.2.text.toList

theorem laidOut_cons (gap : List Char) (token : Token) (pieces : List (List Char × Token)) :
    laidOut ((gap, token) :: pieces) = gap ++ token.text.toList ++ laidOut pieces :=
  rfl

/-- Whether pieces follow one another from a byte on, blank but for their
tokens: every token starts where its gap ends. -/
structure Tiles (start : Nat) (pieces : List (List Char × Token)) : Prop where
  isBlank_of_mem_gap : ∀ piece ∈ pieces, ∀ c ∈ piece.1, isBlank c
  start_eq : ∀ before gap token after, pieces = before ++ (gap, token) :: after →
    token.start = start + byteLength (laidOut before ++ gap)

section Cuts

variable {start : Nat} {afterOperand : Bool} {text : List Char} {tokens : List Token}

/-- A text is its tokens and the blanks between them. -/
theorem Cuts.exists_pieces (cuts : Cuts start afterOperand text tokens) :
    ∃ pieces, pieces.map Prod.snd = tokens ∧ laidOut pieces = text ∧ Tiles start pieces := by
  induction cuts with
  | @done start _ blanks areBlank =>
      refine ⟨[(blanks, _)], rfl, by simp [laidOut], ?_, ?_⟩
      · simpa using areBlank
      · intro before gap token after split
        rcases List.singleton_eq_append_iff.mp split with ⟨rfl, same⟩ | ⟨_, impossible⟩
        · cases same
          rfl
        · cases impossible
  | @token start _ blanks more c lexeme tokens areBlank notBlank read _ ih =>
      rcases ih with ⟨pieces, rfl, layout, tiles⟩
      have whole := append_of_readToken read
      refine ⟨(blanks, _) :: pieces, rfl, ?_, ?_, ?_⟩
      · rw [laidOut_cons, String.toList_ofList, layout, List.append_assoc, whole]
      · exact List.forall_mem_cons.mpr ⟨areBlank, tiles.isBlank_of_mem_gap⟩
      · intro before gap token after split
        cases before with
        | nil =>
            cases split
            rfl
        | cons piece before =>
            cases split
            rw [tiles.start_eq before gap token after rfl, laidOut_cons, String.toList_ofList]
            simp only [byteLength_append]
            omega

/-- The tokens end with one that stands behind the whole text. -/
theorem Cuts.exists_end (cuts : Cuts start afterOperand text tokens) :
    ∃ before, tokens = before ++
      [⟨.endOfInput, "", start + byteLength text, start + byteLength text⟩] ∧
      ∀ token ∈ before, token.kind.IsLexical := by
  induction cuts with
  | done => exact ⟨[], rfl, fun _ member => absurd member List.not_mem_nil⟩
  | @token start _ blanks more c lexeme tokens _ _ read _ ih =>
      rcases ih with ⟨before, rest, lexical⟩
      have whole : byteLength lexeme.text + byteLength lexeme.rest = byteLength (c :: more) := by
        rw [← byteLength_append, append_of_readToken read]
      let token : Token := ⟨lexeme.kind, String.ofList lexeme.text, start + byteLength blanks,
        start + byteLength blanks + byteLength lexeme.text⟩
      refine ⟨token :: before, ?_, List.forall_mem_cons.mpr ⟨isLexical_of_readToken read, lexical⟩⟩
      rw [rest, byteLength_append, ← whole, List.cons_append, ← Nat.add_assoc, ← Nat.add_assoc]

theorem Cuts.isSpelled (cuts : Cuts start afterOperand text tokens) :
    ∀ token ∈ tokens, token.kind.IsSpelled token.text := by
  induction cuts with
  | done =>
      rw [List.forall_mem_singleton]
      rfl
  | token _ _ read _ ih => exact List.forall_mem_cons.mpr ⟨isSpelled_of_readToken read, ih⟩

end Cuts

/-! ## Token lists -/

/-- Whether a token stands in a source where its span says: its bounds fall
between characters, and its text is what lies between them. -/
def StandsIn (source : String) (token : Token) : Prop :=
  ∃ before after, source = before ++ token.text ++ after ∧
    before.utf8ByteSize = token.start ∧ (before ++ token.text).utf8ByteSize = token.stop

/-- What a token list says about its source. -/
structure Covers (source : String) (tokens : List Token) : Prop where
  /-- The last token, and no other, stands for the end of the source. -/
  ends : ∃ before, tokens = before ++
    [⟨.endOfInput, "", source.utf8ByteSize, source.utf8ByteSize⟩] ∧
    ∀ token ∈ before, token.kind ≠ .endOfInput
  stands : ∀ token ∈ tokens, token.StandsIn source
  /-- All tokens but the last have a text, and they stand one after the other. -/
  ordered : tokens.Pairwise fun earlier later =>
    earlier.start < earlier.stop ∧ earlier.stop ≤ later.start
  /-- With a blank gap before each of them, the tokens are the whole source. -/
  tiles : ∃ pieces, pieces.map Prod.snd = tokens ∧ laidOut pieces = source.toList ∧ Tiles 0 pieces
  spelled : ∀ token ∈ tokens, token.kind.IsSpelled token.text

/-- A token of a tiled source stands where its gap ends. -/
theorem Tiles.standsIn {pieces : List (List Char × Token)} (tiles : Tiles 0 pieces)
    {source : String} (layout : laidOut pieces = source.toList) {piece : List Char × Token}
    (member : piece ∈ pieces)
    (stopEq : piece.2.stop = piece.2.start + byteLength piece.2.text.toList) :
    piece.2.StandsIn source := by
  rcases List.append_of_mem member with ⟨before, after, rfl⟩
  have startEq := tiles.start_eq before piece.1 piece.2 after rfl
  have text : source = String.ofList (laidOut before ++ piece.1) ++ piece.2.text ++
      String.ofList (laidOut after) := by
    rw [← String.toList_inj, ← layout]
    simp [laidOut]
  have size : (String.ofList (laidOut before ++ piece.1)).utf8ByteSize = piece.2.start := by
    rw [← byteLength_toList, String.toList_ofList, startEq, Nat.zero_add]
  refine ⟨_, _, text, size, ?_⟩
  rw [String.utf8ByteSize_append, size, stopEq, byteLength_toList]

/-- Cutting a source into tokens loses nothing of it, and the tokens say what
their texts say. -/
theorem covers_of_tokenize {source : String} {tokens : List Token}
    (tokenized : tokenize source = .ok tokens) : Covers source tokens := by
  have cuts := tokensFrom_eq_ok_iff.mp tokenized
  rcases cuts.exists_pieces with ⟨pieces, ofPieces, layout, tiles⟩
  constructor
  · rcases cuts.exists_end with ⟨before, tokensEq, lexical⟩
    rw [Nat.zero_add, byteLength_toList] at tokensEq
    exact ⟨before, tokensEq, fun token member => (lexical token member).ne_endOfInput⟩
  · intro token member
    have stopEq := cuts.stop_eq token member
    rw [← ofPieces] at member
    rcases List.mem_map.mp member with ⟨piece, isPiece, rfl⟩
    exact tiles.standsIn layout isPiece stopEq
  · exact cuts.pairwise_apart
  · exact ⟨pieces, ofPieces, layout, tiles⟩
  · exact cuts.isSpelled

theorem covers_string_and_signed_number :
    let source := " 'é''' gt -01.50L"
    let tokens : List Token :=
      [⟨.literal (.string "é'"), "'é'''", 1, 7⟩, ⟨.operator .gt, "gt", 8, 10⟩,
        ⟨.literal (.number ⟨-150, 2, by decide, by decide⟩), "-01.50L", 11, 18⟩,
        ⟨.endOfInput, "", 18, 18⟩]
    tokenize source = .ok tokens ∧ Covers source tokens := by
  intro source tokens
  have tokenized : tokenize source = .ok tokens := by decide +kernel
  exact ⟨tokenized, covers_of_tokenize tokenized⟩

end OData.Token
