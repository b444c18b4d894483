import OData.Proofs.Expr.Refusal
import OData.Proofs.Expr.RoundTrip
import OData.Proofs.Expr.Threshold
import OData.Proofs.Pattern
import OData.Proofs.Query.Ordering
import OData.Proofs.Query.Selection

/-!
# The readers of paths agree

Three parts of the library tell a path by its text: the pattern that terms of
lists are matched with, the reader of paths, and the lexer of filters.  They
accept the same texts, apart from those that are something else to the lexer, so
a path is the same path in every option that it is written in.  As a second
look at a text that has passed the first never fails, no error of a filter, a
selection or an expansion blames a path.
-/

namespace OData.Query

open Text
open SyntaxError (Cause)
open Token (IsWord IsLexicalCause)

/-! ## Blaming a path -/

/-- What a message says first about a text that is no path. -/
def blame : String :=
  "invalid property path"

/-- Whether a message is about a text that is no path. -/
def BlamesPath (message : String) : Prop :=
  blame.toList <+: message.toList

instance (message : String) : Decidable (BlamesPath message) :=
  inferInstanceAs (Decidable (blame.toList <+: message.toList))

/-- Whether two texts differ at a place that both have. -/
def Diverges (first second : String) : Prop :=
  ¬ first.toList <+: second.toList ∧ ¬ second.toList <+: first.toList

instance (first second : String) : Decidable (Diverges first second) :=
  inferInstanceAs (Decidable (_ ∧ _))

theorem not_blamesPath_append {start : String} (diverges : Diverges blame start) (rest : String) :
    ¬ BlamesPath (start ++ rest) := by
  intro blames
  rw [BlamesPath, String.toList_append] at blames
  rcases List.prefix_or_prefix_of_prefix blames (List.prefix_append _ _) with within | beyond
  · exact diverges.1 within
  · exact diverges.2 beyond

/-- Only the cause for it has a message that blames a path. -/
theorem not_blamesPath_message {cause : Cause} (notPath : ∀ text, cause ≠ .invalidPath text)
    (notCustom : ∀ message, cause ≠ .custom message) : ¬ BlamesPath cause.message := by
  cases cause with
  | invalidPath text => exact absurd rfl (notPath text)
  | custom message => exact absurd rfl (notCustom message)
  | missingSegment | unterminatedString | unexpectedEnd | chainedComparison | nestedTooDeeply
  | zeroTop => decide
  | unexpectedCharacter | malformedNumber | notAnOperand | expected | leftover
  | invalidFunctionName | invalidOrdering | invalidSelection | invalidExpansion | notAnInteger =>
      -- The text before what the cause holds tells the messages apart.
      unfold Cause.message
      simp only [String.append_assoc]
      exact not_blamesPath_append (by decide) _

theorem not_blamesPath_of_isLexicalCause {cause : Cause} (isCause : IsLexicalCause cause) :
    ¬ BlamesPath cause.message := by
  apply not_blamesPath_message
  · rintro text rfl
    exact isCause
  · rintro message rfl
    exact isCause

theorem not_blamesPath_of_isGrammaticalCause {cause : Cause}
    (isCause : Expr.IsGrammaticalCause cause) : ¬ BlamesPath cause.message := by
  apply not_blamesPath_message
  · rintro text rfl
    exact isCause
  · rintro message rfl
    exact isCause

/-! ## Refused terms -/

variable {term : Term} {raw : String} {error : SyntaxError}

/-- A term is refused by the pattern, never by the reader of paths behind it. -/
theorem cause_of_readSelectTerm (refused : readSelectTerm term = .error error) :
    error.cause = .invalidSelection (String.ofList term.text) := by
  unfold readSelectTerm at refused
  split at refused
  · cases refused
  · split at refused
    · next fits =>
        rcases exists_readPath_of_fits fits .select term with ⟨path, isRead⟩
        rw [isRead] at refused
        cases refused
    · cases refused
      rfl

theorem cause_of_readExpandTerm (refused : readExpandTerm term = .error error) :
    error.cause = .invalidExpansion (String.ofList term.text) := by
  unfold readExpandTerm at refused
  split at refused
  · next fits =>
      rcases exists_readPath_of_fits fits .expand term with ⟨path, isRead⟩
      rw [isRead] at refused
      cases refused
  · cases refused
    rfl

theorem not_blamesPath_of_readSelect (refused : readSelect raw = .error error) :
    ¬ BlamesPath error.message := by
  rcases Except.exists_mem_of_mapM_eq_error refused with ⟨term, _, refused⟩
  rw [SyntaxError.message, cause_of_readSelectTerm refused]
  exact not_blamesPath_message nofun nofun

theorem not_blamesPath_of_readExpand (refused : readExpand raw = .error error) :
    ¬ BlamesPath error.message := by
  rcases Except.exists_mem_of_mapM_eq_error refused with ⟨term, _, refused⟩
  rw [SyntaxError.message, cause_of_readExpandTerm refused]
  exact not_blamesPath_message nofun nofun

theorem not_blamesPath_of_readFilter {maxNesting : Nat}
    (refused : Expr.read maxNesting raw = .error error) : ¬ BlamesPath error.message := by
  rcases Expr.cause_of_read_eq_error refused with lexical | grammatical
  · exact not_blamesPath_of_isLexicalCause lexical
  · exact not_blamesPath_of_isGrammaticalCause grammatical

/-! ## Read paths -/

variable {text : String} {path : Path}

theorem segments_written (path : Path) : segments path.written = [path.written.toList] := by
  have none : ∀ c ∈ ([] : List Char), isBlank c := List.forall_mem_nil _
  have pads : Pads [[] ++ path.written.toList ++ []] [path.written.toList] :=
    .text none none .nil
  have segmentsEq := pads.segments_eq (List.forall_mem_singleton.mpr (isSolid_written path))
  rwa [List.intercalate_singleton, List.nil_append, List.append_nil, String.ofList_toList]
    at segmentsEq

/-- A path that stands alone is the only term of a list. -/
theorem lists_of_written (path : Path) :
    readSelect path.written = .ok [.property path] ∧ readExpand path.written = .ok [path] ∧
      readOrderBy path.written = .ok [⟨path, .asc⟩] := by
  have segmentsEq := segments_written path
  refine ⟨readSelect_eq_ok_iff.mpr segmentsEq, readExpand_eq_ok_iff.mpr segmentsEq, ?_⟩
  apply readOrderBy_of_fits
  rw [segmentsEq]
  exact .cons (.inl ⟨rfl, rfl⟩) .nil

theorem spells_of_isWord (word : IsWord text) : Token.Spells false text.toList [.path text] := by
  have spells := word.spells false Token.separated_nil (Token.spells_nil true)
  rwa [List.append_nil] at spells

/-- A word has a token of its own. -/
theorem kinds_of_isWord (word : IsWord text) :
    (Token.tokenize text).map (List.map Token.kind) = .ok [.path text, .endOfInput] := by
  rcases Token.exists_tokenize_of_spells (spells_of_isWord word) with ⟨tokens, tokenized, kindsEq⟩
  apply Except.map_eq_ok_iff.mpr
  exact ⟨tokens, tokenized, by rw [(Token.kinds_of_tokenize tokenized).1, kindsEq]; rfl⟩

theorem isWord_of_kinds
    (kinds : (Token.tokenize text).map (List.map Token.kind) = .ok [.path text, .endOfInput]) :
    IsWord text := by
  rcases Except.map_eq_ok_iff.mp kinds with ⟨tokens, tokenized, kindsEq⟩
  rcases Token.kinds_of_tokenize tokenized with ⟨split, lexical⟩
  have single : Expr.kindsOf tokens = [.path text] :=
    List.append_cancel_right (split.symm.trans kindsEq)
  exact lexical (.path text) (by rw [single]; exact List.mem_singleton_self _)

theorem readFilter_of_isWord (word : IsWord text) (isPath : Path.read? text = some path)
    (maxNesting : Nat) : Expr.read maxNesting text = .ok (some (.property path)) :=
  Expr.read_of_spells (Expr.Derives.property isPath).to_disjunction (spells_of_isWord word)
    (Nat.zero_le maxNesting)

/-- The pattern, the reader of paths and the lexer accept the same texts, and
whoever reads a path reads the same one.  No error of a filter, a selection or
an expansion blames a path. -/
theorem path_readers_agree :
    (∀ text : String,
      (Path.fits text.toList ↔ ∃ path, Path.read? text = some path) ∧
      (text.toList ∈ Path.pattern.matches' ↔ ∃ path, Path.read? text = some path)) ∧
    (∀ text : String, text.toList.head?.any Char.isAlpha → Token.Kind.ofWord? text = none →
      ((Token.tokenize text).map (List.map Token.kind) = .ok [.path text, .endOfInput] ↔
        ∃ path, Path.read? text = some path) ∧
      ∀ path, Path.read? text = some path →
        (∀ maxNesting, Expr.read maxNesting text = .ok (some (.property path))) ∧
        readSelect text = .ok [.property path] ∧ readExpand text = .ok [path] ∧
        readOrderBy text = .ok [⟨path, .asc⟩]) ∧
    ∀ raw error,
      (readSelect raw = .error error → ¬ BlamesPath error.message) ∧
      (readExpand raw = .error error → ¬ BlamesPath error.message) ∧
      ∀ maxNesting, Expr.read maxNesting raw = .error error → ¬ BlamesPath error.message := by
  refine ⟨fun text => ⟨Path.fits_iff_exists_read?, ?_⟩, ?_, ?_⟩
  · rw [← Path.fits_iff_mem_matches_pattern, Path.fits_iff_exists_read?]
  · intro text startsAlpha notReserved
    have isWord (isPath : ∃ path, Path.read? text = some path) : IsWord text :=
      ⟨startsAlpha, Path.isPathText_iff_exists_read?.mpr isPath, notReserved⟩
    constructor
    · exact ⟨fun kinds => (isWord_of_kinds kinds).exists_path, fun isPath =>
        kinds_of_isWord (isWord isPath)⟩
    · intro path isPath
      refine ⟨readFilter_of_isWord (isWord ⟨path, isPath⟩) isPath, ?_⟩
      rw [Path.read?_eq_some_iff.mp isPath]
      exact lists_of_written path
  · intro raw error
    exact ⟨not_blamesPath_of_readSelect, not_blamesPath_of_readExpand,
      fun _ => not_blamesPath_of_readFilter⟩

theorem path_readers_agree_on_reserved_segment :
    let path : Path := ⟨["a", "eq"], by decide, by decide⟩
    let notSelected : SyntaxError := ⟨.select, some 0, .invalidSelection "a//eq"⟩
    let notExpanded : SyntaxError := ⟨.expand, some 0, .invalidExpansion "a//eq"⟩
    let notCut : SyntaxError := ⟨.filter, some 1, .missingSegment⟩
    "a/eq".toList.head?.any Char.isAlpha ∧ Token.Kind.ofWord? "a/eq" = none ∧
      Path.read? "a/eq" = some path ∧
      ((∀ maxNesting, Expr.read maxNesting "a/eq" = .ok (some (.property path))) ∧
        readSelect "a/eq" = .ok [.property path] ∧ readExpand "a/eq" = .ok [path] ∧
        readOrderBy "a/eq" = .ok [⟨path, .asc⟩]) ∧
      (readSelect "a//eq" = .error notSelected ∧ ¬ BlamesPath notSelected.message) ∧
      (readExpand "a//eq" = .error notExpanded ∧ ¬ BlamesPath notExpanded.message) ∧
      Expr.read 4 "a//eq" = .error notCut ∧ ¬ BlamesPath notCut.message := by
  intro path notSelected notExpanded notCut
  have startsAlpha : "a/eq".toList.head?.any Char.isAlpha := by decide
  have notReserved : Token.Kind.ofWord? "a/eq" = none := by decide
  have isPath : Path.read? "a/eq" = some path := by decide
  have selected : readSelect "a//eq" = .error notSelected := by decide
  have expanded : readExpand "a//eq" = .error notExpanded := by decide
  have cut : Expr.read 4 "a//eq" = .error notCut :=
    Expr.read_of_tokenize_eq_error (by decide) (by decide +kernel)
  have unblamed := path_readers_agree.2.2 "a//eq"
  exact ⟨startsAlpha, notReserved, isPath,
    (path_readers_agree.2.1 "a/eq" startsAlpha notReserved).2 path isPath,
    ⟨selected, (unblamed notSelected).1 selected⟩,
    ⟨expanded, (unblamed notExpanded).2.1 expanded⟩, cut, (unblamed notCut).2.2 4 cut⟩

/-- The pattern of orderings folds case, so a long s passes it and the path is
blamed behind it. -/
example : readOrderBy "\u017F" = .error ⟨.orderBy, some 0, .invalidPath "\u017F"⟩ := by
  decide

end OData.Query
