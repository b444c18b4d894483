import OData.Diagnostic
import OData.Proofs.Expr.Acceptance
import OData.Proofs.Query.Ordering
import OData.Proofs.Query.Reading
import OData.Proofs.Query.Selection
import OData.Proofs.Token.Tiling
import OData.Proofs.Token.Truncation

/-!
# Where syntax errors lie

An error about a filter or a list lies in the text of that option, between two
of its characters or at its end.  In a filter it is the start of a token or the
end of the tokens that there are; in a list it is the first character of the
first segment that is no term.  Numbers are refused as a whole, so their errors
have no place.  A place in the text is not moved when the error is reported
together with the text.
-/

namespace OData

namespace Query

open Text

/-! ## Places -/

/-- Whether an offset falls between two characters of a text or at an end. -/
def IsBoundary (text : String) (offset : Nat) : Prop :=
  ∃ before after, text = before ++ after ∧ before.utf8ByteSize = offset

/-- Whether the text of a segment is a term of a list.  A path whose direction
is misspelled with a long s is one. -/
def IsTerm : Part → List Char → Prop
  | .orderBy, text => (∃ orderTerm, Fits text orderTerm) ∨ ∃ path, IsMisspelled text path
  | .select, text => ∃ term : SelectTerm, text = term.written.toList
  | .expand, text => ∃ path : Path, text = path.written.toList
  | .filter, _ | .top, _ | .skip, _ => False

/-- Whether an offset is that of the first segment of a list that is no term. -/
def IsFirstRefused (part : Part) (raw : String) (offset : Nat) : Prop :=
  ∃ pieces piece more, raw.toList.splitOn ',' = pieces ++ piece :: more ∧
    (∀ earlier ∈ pieces, trim earlier = [] ∨ IsTerm part (trim earlier)) ∧
    trim piece ≠ [] ∧ ¬ IsTerm part (trim piece) ∧ offset = placeOf pieces piece

/-- What the place of an error says about the text of its option. -/
structure IsLocated (text : String) (error : SyntaxError) : Prop where
  /-- Only errors about numbers have no place. -/
  offset_eq_none_iff : error.offset = none ↔ error.part = .top ∨ error.part = .skip
  isBoundary : ∀ offset, error.offset = some offset → IsBoundary text offset
  /-- Where a filter cannot be cut into tokens, what stands before the error can. -/
  tokenizes : error.part = .filter → (∃ lexical, Token.tokenize text = .error lexical) →
    ∃ before after, text = before ++ after ∧ error.offset = some before.utf8ByteSize ∧
      ∃ tokens, Token.tokenize before = .ok tokens
  isFirstRefused : error.part ∈ [.orderBy, .select, .expand] →
    ∃ offset, error.offset = some offset ∧ IsFirstRefused error.part text offset

/-! ## Reports -/

theorem IsBoundary.le {text : String} {offset : Nat} (boundary : IsBoundary text offset) :
    offset ≤ text.utf8ByteSize := by
  rcases boundary with ⟨before, after, rfl, rfl⟩
  rw [String.utf8ByteSize_append]
  exact Nat.le_add_right _ _

/-- A place in a text is not moved to show the error with the text. -/
theorem IsLocated.clampTo_eq {error : SyntaxError} {source : Source}
    (located : IsLocated source.content error) : error.clampTo source = error := by
  rcases error with ⟨part, offset, cause⟩
  cases offset with
  | none => rfl
  | some offset =>
      have le := (located.isBoundary offset rfl).le
      rw [← byteLength_toList] at le
      have same : min offset (byteLength source.content.toList) = offset := Nat.min_eq_left le
      simp [SyntaxError.clampTo, SyntaxError.span, Source.clamp, Source.length, same]

/-! ## Lists -/

variable {pieces more : List (List Char)} {piece : List Char} {raw : String}

theorem intercalate_isPrefix (pieces : List (List Char)) (start tail : List Char)
    (more : List (List Char)) :
    [','].intercalate (pieces ++ [start]) <+:
      [','].intercalate (pieces ++ (start ++ tail) :: more) := by
  induction pieces with
  | nil =>
      rw [List.nil_append, List.nil_append, List.intercalate_singleton]
      cases more with
      | nil =>
          rw [List.intercalate_singleton]
          exact List.prefix_append start tail
      | cons next more =>
          rw [List.intercalate_cons_of_ne_nil (List.cons_ne_nil _ _), List.append_assoc,
            List.append_assoc]
          exact List.prefix_append start _
  | cons first pieces ih =>
      rw [List.cons_append, List.cons_append, List.intercalate_cons_of_ne_nil (by simp),
        List.intercalate_cons_of_ne_nil (by simp)]
      exact (List.prefix_append_right_inj _).mpr ih

/-- A piece starts at a boundary of the list. -/
theorem isBoundary_placeOf (split : raw.toList.splitOn ',' = pieces ++ piece :: more) :
    IsBoundary raw (placeOf pieces piece) := by
  have starts :=
    intercalate_isPrefix pieces (piece.takeWhile isBlank) (piece.dropWhile isBlank) more
  rw [List.takeWhile_append_dropWhile, ← split, List.intercalate_splitOn] at starts
  rcases starts with ⟨after, whole⟩
  refine ⟨String.ofList ([','].intercalate (pieces ++ [piece.takeWhile isBlank])),
    String.ofList after, ?_, ?_⟩
  · rw [← String.ofList_append, whole, String.ofList_toList]
  · rw [← byteLength_toList, String.toList_ofList, placeOf]

/-- If exactly the terms of a list are read, and an error is located at the term
that it is about, then the error of the list lies at its first segment that is
no term. -/
theorem isFirstRefused_of_mapM {α : Type} {part : Part} {step : Term → Except SyntaxError α}
    (reads : ∀ term, (∃ result, step term = .ok result) ↔ IsTerm part term.text)
    (places : ∀ term error, step term = .error error →
      error.part = part ∧ error.offset = some term.offset)
    {error : SyntaxError} (failed : (terms raw).mapM step = .error error) :
    error.part = part ∧ ∃ offset, error.offset = some offset ∧ IsFirstRefused part raw offset := by
  rcases Except.mapM_eq_error_iff.mp failed with ⟨before, term, after, listed, refused, areRead⟩
  rcases exists_piece_of_termsOfPieces listed with
    ⟨pieces, piece, more, split, rfl, notBlank, rfl⟩
  have place := places _ _ refused
  refine ⟨place.1, _, place.2, pieces, piece, more, split, ?_, notBlank, ?_, Nat.zero_add _⟩
  · intro earlier member
    by_cases blank : trim earlier = []
    · exact .inl blank
    · have isText : trim earlier ∈ (termsOfPieces 0 pieces).map Term.text := by
        rw [termsOfPieces_texts, List.mem_filter]
        exact ⟨List.mem_map_of_mem member, by simpa using blank⟩
      rcases List.mem_map.mp isText with ⟨term, isTerm, textEq⟩
      rw [← textEq]
      exact .inr ((reads term).mp (areRead term isTerm))
  · intro isTerm
    rcases (reads ⟨placeOf pieces piece, trim piece⟩).mpr isTerm with ⟨result, isRead⟩
    rw [Nat.zero_add, isRead] at refused
    cases refused

theorem exists_readOrderTerm_iff (term : Term) :
    (∃ result, readOrderTerm term = .ok result) ↔ IsTerm .orderBy term.text := by
  constructor
  · rintro ⟨orderTerm, isRead⟩
    rcases readOrderTerm_eq_ok_iff.mp isRead with fits | ⟨_, misspelled⟩
    · exact .inl ⟨orderTerm, fits⟩
    · exact .inr ⟨orderTerm.path, misspelled⟩
  · rintro (⟨orderTerm, fits⟩ | ⟨path, misspelled⟩)
    · exact ⟨orderTerm, readOrderTerm_eq_ok_iff.mpr (.inl fits)⟩
    · exact ⟨⟨path, .asc⟩, readOrderTerm_eq_ok_iff.mpr (.inr ⟨rfl, misspelled⟩)⟩

variable {error : SyntaxError}

/-! ## Options -/

/-- The error of a list is located if its terms are what is read. -/
theorem IsLocated.of_mapM {α : Type} {part : Part} {step : Term → Except SyntaxError α}
    (isList : part ∈ [.orderBy, .select, .expand])
    (reads : ∀ term, (∃ result, step term = .ok result) ↔ IsTerm part term.text)
    (places : ∀ term error, step term = .error error →
      error.part = part ∧ error.offset = some term.offset)
    (failed : (terms raw).mapM step = .error error) : IsLocated raw error := by
  obtain ⟨rfl, offset, isOffset, isFirst⟩ := isFirstRefused_of_mapM reads places failed
  have others : error.part ≠ .filter ∧ ¬ (error.part = .top ∨ error.part = .skip) := by
    revert isList
    cases error.part <;> decide
  constructor
  · rw [isOffset]
    exact iff_of_false (Option.some_ne_none _) others.2
  · intro other isOther
    rcases isFirst with ⟨pieces, piece, more, split, _, _, _, rfl⟩
    cases isOffset.symm.trans isOther
    exact isBoundary_placeOf split
  · exact fun isFilter => absurd isFilter others.1
  · exact fun _ => ⟨offset, isOffset, isFirst⟩

/-- An error about a number has no place. -/
theorem IsLocated.of_number {text : String} (isNumber : error.part = .top ∨ error.part = .skip)
    (noPlace : error.offset = none) : IsLocated text error := by
  have others : error.part ≠ .filter ∧ error.part ∉ [.orderBy, .select, .expand] := by
    revert isNumber
    cases error.part <;> decide
  constructor
  · exact iff_of_true noPlace isNumber
  · intro offset isOffset
    cases noPlace.symm.trans isOffset
  · exact fun isFilter => absurd isFilter others.1
  · exact fun isList => absurd isList others.2

variable {maxNesting : Nat}

/-- An error about tokens lies at the start of one. -/
theorem exists_token_of_ofTokens {source : String} {tokens : List Token}
    (tokenized : Token.tokenize source = .ok tokens)
    (failed : Expr.ofTokens maxNesting tokens = .error error) :
    ∃ token ∈ tokens, error.offset = some token.start := by
  rw [Expr.ofTokens, Except.mapError_eq_error_iff] at failed
  rcases failed with ⟨failure, _, rfl⟩
  have lengths := Expr.length_eq_of_tokenize tokenized
  have lt : (Expr.kindsOf tokens).length - failure.rest.length < tokens.length := by omega
  refine ⟨tokens[(Expr.kindsOf tokens).length - failure.rest.length], List.getElem_mem lt, ?_⟩
  dsimp only
  rw [List.getElem?_eq_getElem lt]
  rfl

/-- The error of a filter lies where its tokens end, or at the start of one. -/
theorem isLocated_of_readFilter {source : String}
    (failed : Expr.read maxNesting source = .error error) : IsLocated source error := by
  have isFilter := part_of_readFilter failed
  have notList : error.part ∉ [.orderBy, .select, .expand] := by
    rw [isFilter]
    decide
  have notNumber : ¬ (error.part = .top ∨ error.part = .skip) := by
    rw [isFilter]
    decide
  unfold Expr.read at failed
  split at failed
  · cases failed
  · rcases Except.bind_eq_error_iff.mp failed with refused | ⟨tokens, tokenized, failed⟩
    · rcases Token.exists_tokenize_before refused with ⟨before, after, whole, place, tokenizes⟩
      refine ⟨?_, ?_, fun _ _ => ⟨before, after, whole, place, tokenizes⟩,
        fun isList => absurd isList notList⟩
      · rw [place]
        exact iff_of_false (Option.some_ne_none _) notNumber
      · intro offset isOffset
        rw [place, Option.some.injEq] at isOffset
        exact ⟨before, after, whole, isOffset⟩
    · rcases exists_token_of_ofTokens tokenized (Except.map_eq_error_iff.mp failed) with
        ⟨token, member, place⟩
      rcases (Token.covers_of_tokenize tokenized).stands token member with
        ⟨before, after, whole, starts, _⟩
      refine ⟨?_, ?_, ?_, fun isList => absurd isList notList⟩
      · rw [place]
        exact iff_of_false (Option.some_ne_none _) notNumber
      · intro offset isOffset
        rw [String.append_assoc] at whole
        rw [place, Option.some.injEq] at isOffset
        exact ⟨before, token.text ++ after, whole, starts.trans isOffset⟩
      · rintro _ ⟨lexical, refused⟩
        rw [tokenized] at refused
        cases refused

/-- The error of an option is located in the text of that option. -/
theorem isLocated_of_readPart {options : Options} {part : Part}
    (failed : readPart maxNesting options part = .error error) :
    IsLocated (options.get part) error := by
  cases part with
  | filter => exact isLocated_of_readFilter (Except.map_eq_error_iff.mp failed)
  | orderBy =>
      exact .of_mapM (by decide) exists_readOrderTerm_iff (fun _ _ => place_of_readOrderTerm)
        (Except.map_eq_error_iff.mp failed)
  | top =>
      have place := place_of_readTop (Except.map_eq_error_iff.mp failed)
      exact .of_number (.inl place.1) place.2
  | skip =>
      have place := place_of_readNumber (Except.map_eq_error_iff.mp failed)
      exact .of_number (.inr place.1) place.2
  | select =>
      exact .of_mapM (by decide) (fun _ => exists_congr fun _ => readSelectTerm_eq_ok_iff)
        (fun _ _ => place_of_readSelectTerm) (Except.map_eq_error_iff.mp failed)
  | expand =>
      exact .of_mapM (by decide) (fun _ => exists_congr fun _ => readExpandTerm_eq_ok_iff)
        (fun _ _ => place_of_readExpandTerm) (Except.map_eq_error_iff.mp failed)

/-- A query is refused at a place in the text that the error is about, and
reporting the error with that text keeps the place. -/
theorem isLocated_of_read {options : Options}
    (refused : (read maxNesting options).outcome = .error error) :
    IsLocated (options.get error.part) error ∧
      ∀ source : Source, source.content = options.get error.part →
        error.clampTo source = error ∧
        error.report source = { error.diagnostic with source := some source } := by
  rcases read_eq_error_iff.mp refused with ⟨part, _, failed⟩
  have isPart := part_of_readPart failed
  subst isPart
  have located := isLocated_of_readPart failed
  refine ⟨located, fun source isText => ?_⟩
  rw [← isText] at located
  have kept := located.clampTo_eq
  refine ⟨kept, ?_⟩
  rw [SyntaxError.report, kept]

theorem isLocated_unfinished_path_and_wide_space :
    let unfinished : Options := { filter := "'é' eq a/" }
    let spaced : Options := { select := "a,\u2003b-c" }
    let first : SyntaxError := ⟨.filter, some 9, .missingSegment⟩
    let second : SyntaxError := ⟨.select, some 5, .invalidSelection "b-c"⟩
    (read 256 unfinished).outcome = .error first ∧ IsLocated unfinished.filter first ∧
      (∃ tokens, Token.tokenize "'é' eq a" = .ok tokens) ∧
      (read 256 spaced).outcome = .error second ∧ IsLocated spaced.select second ∧
      second.clampTo ⟨spaced.select, none⟩ = second := by
  intro unfinished spaced first second
  have refusedFirst : (read 256 unfinished).outcome = .error first := by
    have sticks : Token.tokenize "'é' eq a/" = .error first := by decide +kernel
    have notBlank : trim "'é' eq a/".toList ≠ [] := by decide
    rw [outcome_read, Expr.read, if_neg notBlank, sticks]
    rfl
  have refusedSecond : (read 256 spaced).outcome = .error second := by
    have listRefused : readSelect "a,\u2003b-c" = .error second := by decide +kernel
    rw [outcome_read, listRefused]
    rfl
  have locatedFirst := isLocated_of_read refusedFirst
  have locatedSecond := isLocated_of_read refusedSecond
  let tokens : List Token :=
    [⟨.literal (.string "é"), "'é'", 0, 4⟩, ⟨.operator .eq, "eq", 5, 7⟩, ⟨.path "a", "a", 8, 9⟩,
      ⟨.endOfInput, "", 9, 9⟩]
  have tokenized : Token.tokenize "'é' eq a" = .ok tokens := by decide +kernel
  exact ⟨refusedFirst, locatedFirst.1, ⟨tokens, tokenized⟩, refusedSecond, locatedSecond.1,
    (locatedSecond.2 ⟨spaced.select, none⟩ rfl).1⟩

end Query

end OData
