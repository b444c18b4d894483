import OData.Proofs.Token.Cutting

/-!
# Words

What the lexer promises to a reader of expressions: a token list ends with its
only token of kind `endOfInput`, and every path in it is a word, that is, it
starts with a letter, is the text of a path and is not reserved.
-/

namespace OData.Token

open Text

/-- What a path token can hold. -/
structure IsWord (text : String) : Prop where
  startsAlpha : text.toList.head?.any Char.isAlpha
  isPathText : IsPathText text.toList
  notReserved : Kind.ofWord? text = none

/-- A word is the text of a path. -/
theorem IsWord.exists_path {text : String} (word : IsWord text) :
    ∃ path, Path.read? text = some path :=
  Path.isPathText_iff_exists_read?.mp word.isPathText

/-- The kinds of tokens before the end of the input. -/
def Kind.IsLexical : Kind → Prop
  | .path text => IsWord text
  | .endOfInput => False
  | _ => True

/-! ## Splitting off a path -/

theorem splitPath_cons_of_isAlphanum {c : Char} (alphanum : c.isAlphanum) (text : List Char) :
    splitPath (c :: text) = (c :: (splitPath text).1, (splitPath text).2) := by
  rw [splitPath, if_pos (by simp [alphanum])]

theorem splitPath_slash {text : List Char} (alphanum : startsAlphanum text) :
    splitPath ('/' :: text) = ('/' :: (splitPath text).1, (splitPath text).2) := by
  rw [splitPath, if_pos (by simp [alphanum])]

theorem splitPath_of_head {other : List Char} (noAlphanum : startsAlphanum other = false)
    (noSlash : other.head? ≠ some '/') : splitPath other = ([], other) := by
  cases other with
  | nil => rfl
  | cons c other =>
      have notAlphanum : c.isAlphanum = false := noAlphanum
      have notSlash : c ≠ '/' := fun isSlash => noSlash (congrArg some isSlash)
      rw [splitPath, if_neg (by simp [notAlphanum, notSlash])]

/-- What is split off after a letter or digit makes a path text with it. -/
theorem isPathText_splitPath {c : Char} (alphanum : c.isAlphanum) (text : List Char) :
    IsPathText (c :: (splitPath text).1) := by
  induction text generalizing c with
  | nil => exact .single alphanum
  | cons d text ih =>
      by_cases letter : d.isAlphanum
      · rw [splitPath_cons_of_isAlphanum letter]
        exact .extend alphanum (ih letter)
      · by_cases slash : d = '/' ∧ startsAlphanum text
        · rcases slash with ⟨rfl, starts⟩
          cases text with
          | nil => cases starts
          | cons e text =>
              have next : e.isAlphanum := by simpa [startsAlphanum] using starts
              have rest := ih alphanum
              rw [splitPath_slash starts, splitPath_cons_of_isAlphanum next]
              rw [splitPath_cons_of_isAlphanum next] at rest
              exact .slash alphanum (rest.tail next)
        · rw [splitPath, if_neg (by simpa [letter] using slash)]
          exact .single alphanum

/-! ## Kinds of words -/

/-- A reserved word is neither a path nor the end of the input. -/
theorem isLexical_of_ofWord? {word : String} {kind : Kind}
    (reserved : Kind.ofWord? word = some kind) : kind.IsLexical := by
  unfold Kind.ofWord? at reserved
  split at reserved
  · cases reserved; trivial
  · cases reserved; trivial
  · cases reserved; trivial
  · cases reserved; trivial
  · rcases Option.map_eq_some_iff.mp reserved with ⟨op, _, rfl⟩
    trivial

/-- Reserved words are segments that start with a letter. -/
theorem isSegment_of_ofWord? {word : String} {kind : Kind}
    (reserved : Kind.ofWord? word = some kind) :
    isSegment word ∧ word.toList.head?.any Char.isAlpha := by
  unfold Kind.ofWord? at reserved
  split at reserved
  · decide
  · decide
  · decide
  · decide
  · rcases Option.map_eq_some_iff.mp reserved with ⟨op, found, _⟩
    rw [BinaryOperator.ofWord?] at found
    have isWord := List.find?_some found
    rw [← beq_iff_eq.mp isWord]
    cases op <;> decide

/-- No reserved word has a slash. -/
theorem ofWord?_eq_none_of_slash {word : String} (slash : '/' ∈ word.toList) :
    Kind.ofWord? word = none := by
  rw [Option.eq_none_iff_forall_not_mem]
  intro kind reserved
  have segment := isSegment_iff.mp (isSegment_of_ofWord? reserved).1
  exact not_isAlphanum_slash (segment.2 '/' slash)

theorem isLexical_of_readWord {c : Char} (alpha : c.isAlpha) {text : List Char}
    {lexeme : Lexeme} (read : readWord (c :: text) = .ok lexeme) : lexeme.kind.IsLexical := by
  have alphanum : c.isAlphanum := by simp [Char.isAlphanum, alpha]
  rw [readWord, splitPath_cons_of_isAlphanum alphanum] at read
  dsimp only at read
  split at read
  · cases read
  · cases read
    dsimp only [wordKind]
    cases reserved : Kind.ofWord? (String.ofList (c :: (splitPath text).1)) with
    | some kind => exact isLexical_of_ofWord? reserved
    | none =>
        constructor
        · simpa using alpha
        · simpa using isPathText_splitPath alphanum text
        · exact reserved

theorem isLexical_of_readNumber {sign text : List Char} {lexeme : Lexeme}
    (read : readNumber sign text = .ok lexeme) : lexeme.kind.IsLexical := by
  unfold readNumber at read
  split at read
  · cases read
  · dsimp only at read
    split at read
    · cases read
    · split at read
      · cases read
      · cases read
        trivial

theorem isLexical_of_readString {text : List Char} {lexeme : Lexeme}
    (read : readString text = .ok lexeme) : lexeme.kind.IsLexical := by
  unfold readString at read
  split at read
  · cases read
  · cases read
    trivial

/-- A single token has a lexical kind. -/
theorem isLexical_of_readToken {afterOperand : Bool} {c : Char} {text : List Char}
    {lexeme : Lexeme} (read : readToken afterOperand c text = .ok lexeme) :
    lexeme.kind.IsLexical := by
  unfold readToken at read
  split at read
  · cases read; trivial
  split at read
  · cases read; trivial
  split at read
  · cases read; trivial
  split at read
  · split at read
    · exact isLexical_of_readNumber read
    · cases read; trivial
  split at read
  · exact isLexical_of_readString read
  split at read
  · exact isLexical_of_readNumber read
  split at read
  · next alpha => exact isLexical_of_readWord alpha read
  · cases read

/-! ## Token lists -/

/-- A token list is tokens of lexical kinds and then the end of the input. -/
theorem Cuts.exists_append {start : Nat} {afterOperand : Bool} {text : List Char}
    {tokens : List Token} (cuts : Cuts start afterOperand text tokens) :
    ∃ before last, tokens = before ++ [last] ∧ last.kind = .endOfInput ∧
      ∀ token ∈ before, token.kind.IsLexical := by
  induction cuts with
  | done => exact ⟨[], _, rfl, rfl, by simp⟩
  | token _ _ read _ ih =>
      rcases ih with ⟨before, last, rfl, isEnd, lexical⟩
      exact ⟨_ :: before, last, rfl, isEnd,
        List.forall_mem_cons.mpr ⟨isLexical_of_readToken read, lexical⟩⟩

theorem Kind.IsLexical.ne_endOfInput {kind : Kind} (lexical : kind.IsLexical) :
    kind ≠ .endOfInput := by
  rintro rfl
  exact lexical

/-- The kinds of a token list are lexical up to the end of the input. -/
theorem kinds_of_tokenize {source : String} {tokens : List Token}
    (tokenized : tokenize source = .ok tokens) :
    tokens.map Token.kind = Expr.kindsOf tokens ++ [.endOfInput] ∧
      ∀ kind ∈ Expr.kindsOf tokens, kind.IsLexical := by
  rcases (tokensFrom_eq_ok_iff.mp tokenized).exists_append with ⟨before, last, rfl, isEnd, lexical⟩
  have kindsEq : Expr.kindsOf (before ++ [last]) = before.map Token.kind := by
    rw [Expr.kindsOf, List.map_append, List.takeWhile_append_of_pos]
    · simp [isEnd]
    · intro kind member
      rcases List.mem_map.mp member with ⟨token, isMember, rfl⟩
      simpa using (lexical token isMember).ne_endOfInput
  rw [kindsEq]
  constructor
  · simp [isEnd]
  · intro kind member
    rcases List.mem_map.mp member with ⟨token, isMember, rfl⟩
    exact lexical token isMember

end OData.Token
