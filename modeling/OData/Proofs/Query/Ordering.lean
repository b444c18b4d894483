import Mathlib.Data.List.Induction
import OData.Proofs.Characters
import OData.Proofs.Outcome
import OData.Proofs.Path
import OData.Proofs.Query.Reading
import OData.Proofs.Query.Terms

/-!
# Orderings

A term to order by is a path, perhaps with blanks and a direction behind it.
The direction is a word that may be written in any case.  Two readers look at
the word, and they do not mean the same by that: one decides by case folding
whether there is a direction at all, the other by the case of ASCII letters
which one it is.  A word with a long s is a direction to the first but not to
the second, and gives an ascending order whatever it spells.

Those words are the only difference.  Lists without them are read as they are
meant to be, with every direction as it is written.
-/

namespace OData.Query

open Text

/-! ## Terms -/

/-- Whether a text is a path with blanks and a keyword behind it. -/
def HasKeyword (text : List Char) (path : Path) (keyword : List Char) : Prop :=
  ∃ blanks, blanks ≠ [] ∧ (∀ c ∈ blanks, isBlank c) ∧
    text = path.written.toList ++ (blanks ++ keyword)

/-- Whether a text orders by a term: it is the path of the term, and if there
is a keyword, that is the word for the direction in any case.  Without keyword
the direction is ascending. -/
def Fits (text : List Char) (term : OrderTerm) : Prop :=
  (text = term.path.written.toList ∧ term.direction = .asc) ∨
    ∃ keyword, HasKeyword text term.path keyword ∧
      equalsIgnoringAsciiCase term.direction.word keyword

/-- Whether a keyword is the word for a direction only if its long s is taken
for an s. -/
def HasLongS (keyword : List Char) : Prop :=
  (foldsTo "asc" keyword ∨ foldsTo "desc" keyword) ∧ '\u017F' ∈ keyword

/-- Whether a text has such a keyword behind a path. -/
def IsMisspelled (text : List Char) (path : Path) : Prop :=
  ∃ keyword, HasKeyword text path keyword ∧ HasLongS keyword

/-! ## Keywords -/

variable {keyword text : List Char} {path : Path} {direction : Direction}

theorem foldsTo_direction (equals : equalsIgnoringAsciiCase direction.word keyword) :
    foldsTo "asc" keyword ∨ foldsTo "desc" keyword := by
  cases direction with
  | asc => exact .inl (foldsTo_of_equalsIgnoringAsciiCase equals (by decide) (by decide))
  | desc => exact .inr (foldsTo_of_equalsIgnoringAsciiCase equals (by decide) (by decide))

/-- No keyword spells two directions. -/
theorem direction_unique {other : Direction}
    (equals : equalsIgnoringAsciiCase direction.word keyword)
    (equalsOther : equalsIgnoringAsciiCase other.word keyword) : direction = other := by
  rw [equalsIgnoringAsciiCase, beq_iff_eq] at equals equalsOther
  have sameWord : direction.word.toList = other.word.toList := equals.symm.trans equalsOther
  revert sameWord
  cases direction <;> cases other <;> decide

/-- A keyword with a long s spells no direction. -/
theorem HasLongS.not_equals (long : HasLongS keyword) (direction : Direction) :
    ¬ equalsIgnoringAsciiCase direction.word keyword := by
  intro equals
  exact not_mem_of_equalsIgnoringAsciiCase equals (by cases direction <;> decide) long.2

/-- The direction of a keyword is the one that it spells, or ascending for a
keyword with a long s. -/
theorem direction?_eq_some_iff :
    direction? keyword = some direction ↔
      equalsIgnoringAsciiCase direction.word keyword ∨ direction = .asc ∧ HasLongS keyword := by
  unfold direction?
  split
  · next folds =>
      rw [Bool.or_eq_true] at folds
      rw [Option.some.injEq]
      by_cases isDesc : equalsIgnoringAsciiCase "desc" keyword
      · rw [if_pos isDesc]
        constructor
        · rintro rfl
          exact .inl isDesc
        · rintro (equals | ⟨_, long⟩)
          · have desc : equalsIgnoringAsciiCase Direction.desc.word keyword := isDesc
            exact direction_unique desc equals
          · exact absurd isDesc (long.not_equals .desc)
      · rw [if_neg isDesc]
        constructor
        · rintro rfl
          by_cases long : '\u017F' ∈ keyword
          · exact .inr ⟨rfl, folds, long⟩
          · rcases folds with asc | desc
            · exact .inl (equalsIgnoringAsciiCase_of_foldsTo asc long (by decide))
            · exact absurd (equalsIgnoringAsciiCase_of_foldsTo desc long (by decide)) isDesc
        · rintro (equals | ⟨rfl, _⟩)
          · cases direction with
            | asc => rfl
            | desc => exact absurd equals isDesc
          · rfl
  · next noFold =>
      rw [Bool.or_eq_true] at noFold
      constructor
      · intro impossible
        cases impossible
      · rintro (equals | ⟨_, long⟩)
        · exact absurd (foldsTo_direction equals) noFold
        · exact absurd long.1 noFold

/-- The keyword of a direction starts with no blank. -/
theorem exists_cons_of_direction? (isDirection : direction? keyword = some direction) :
    ∃ c more, keyword = c :: more ∧ ¬ isBlank c := by
  have folds : foldsTo "asc" keyword ∨ foldsTo "desc" keyword := by
    rcases direction?_eq_some_iff.mp isDirection with equals | ⟨_, long⟩
    · exact foldsTo_direction equals
    · exact long.1
  have nonblank : ∀ c ∈ keyword, ¬ isBlank c := by
    rcases folds with asc | desc
    · exact not_isBlank_of_foldsTo asc (by decide)
    · exact not_isBlank_of_foldsTo desc (by decide)
  cases keyword with
  | nil => rcases folds with impossible | impossible <;> cases impossible
  | cons c more => exact ⟨c, more, rfl, nonblank c List.mem_cons_self⟩

/-! ## Paths -/

theorem not_isBlank_of_isPathText (isText : IsPathText text) : ∀ c ∈ text, ¬ isBlank c := by
  intro c member
  rcases isText.isAlphanum_or_slash c member with alphanum | rfl
  · exact not_isBlank_of_isAlphanum alphanum
  · decide

theorem foldsToPath_written (path : Path) : foldsToPath path.written.toList := by
  have built := Path.ofSegments?_eq_some_iff.mp path.read?_written
  rw [foldsToPath, List.all_eq_true]
  intro segment member
  have isSegment := path.isSegment_of_mem (String.ofList segment)
    (built ▸ List.mem_map_of_mem member)
  rw [isSegment_iff, String.toList_ofList] at isSegment
  rw [Bool.and_eq_true, List.all_eq_true]
  refine ⟨by simpa using isSegment.1, fun c inSegment => ?_⟩
  exact isAlphanum_foldCase (isSegment.2 c inSegment)

/-- A path ends before a blank, as it does at the end of a text. -/
theorem takeWhile_written (path : Path) {after : List Char} (blank : ∀ c ∈ after.head?, isBlank c) :
    (path.written.toList ++ after).takeWhile (fun c => !isBlank c) = path.written.toList := by
  have nonblank := not_isBlank_of_isPathText path.isPathText_written
  rw [List.takeWhile_append_of_pos (by simpa using nonblank)]
  cases after with
  | nil => simp
  | cons c after => simp [blank c rfl]

theorem dropWhile_written (path : Path) {after : List Char} (blank : ∀ c ∈ after.head?, isBlank c) :
    (path.written.toList ++ after).dropWhile (fun c => !isBlank c) = after := by
  have nonblank := not_isBlank_of_isPathText path.isPathText_written
  rw [List.dropWhile_append_of_pos (by simpa using nonblank)]
  cases after with
  | nil => rfl
  | cons c after => simp [blank c rfl]

/-- What is left behind a word starts with a blank. -/
theorem head_dropWhile_not_isBlank (text : List Char) :
    ∀ c ∈ (text.dropWhile fun c => !isBlank c).head?, isBlank c := by
  intro c member
  have stops := List.head?_dropWhile_not (fun c => !isBlank c) text
  rw [Option.mem_def.mp member] at stops
  simpa using stops

/-! ## Reading a term -/

variable {term : Term} {orderTerm : OrderTerm}

/-- A term is read exactly if it is a path and what follows it gives a
direction. -/
theorem readOrderTerm_eq_ok_iff_exists :
    readOrderTerm term = .ok orderTerm ↔
      ∃ after, (∀ c ∈ after.head?, isBlank c) ∧
        term.text = orderTerm.path.written.toList ++ after ∧
        directionAfter? after = some orderTerm.direction := by
  constructor
  · intro isRead
    unfold readOrderTerm at isRead
    dsimp only at isRead
    split at isRead
    · next direction isDirection _ =>
        rcases Except.map_eq_ok_iff.mp isRead with ⟨path, isPath, rfl⟩
        refine ⟨_, head_dropWhile_not_isBlank term.text, ?_, isDirection⟩
        rw [← readPath_eq_ok_iff.mp isPath]
        exact List.takeWhile_append_dropWhile.symm
    · cases isRead
  · rintro ⟨after, blank, split, isDirection⟩
    unfold readOrderTerm
    rw [split, takeWhile_written _ blank, dropWhile_written _ blank]
    dsimp only
    rw [isDirection, foldsToPath_written]
    exact Except.map_eq_ok_iff.mpr ⟨_, readPath_eq_ok_iff.mpr rfl, rfl⟩

/-- What follows a path gives a direction if there is nothing, or a keyword
behind blanks. -/
theorem exists_directionAfter?_iff :
    (∃ after, (∀ c ∈ after.head?, isBlank c) ∧ text = path.written.toList ++ after ∧
        directionAfter? after = some direction) ↔
      (text = path.written.toList ∧ direction = .asc) ∨
        ∃ keyword, HasKeyword text path keyword ∧ direction? keyword = some direction := by
  constructor
  · rintro ⟨after, blank, rfl, isDirection⟩
    unfold directionAfter? at isDirection
    split at isDirection
    · next ended =>
        cases isDirection
        exact .inl ⟨by rw [ended, List.append_nil], rfl⟩
    · next goesOn =>
        refine .inr ⟨_, ⟨after.takeWhile isBlank, ?_, forall_mem_takeWhile_isBlank after, ?_⟩,
          isDirection⟩
        · cases after with
          | nil => exact absurd rfl goesOn
          | cons c after => simp [blank c rfl]
        · rw [List.takeWhile_append_dropWhile]
  · rintro (⟨rfl, rfl⟩ | ⟨keyword, ⟨blanks, nonempty, areBlank, rfl⟩, isDirection⟩)
    · exact ⟨[], fun _ impossible => (nomatch impossible), (List.append_nil _).symm, rfl⟩
    · rcases exists_cons_of_direction? isDirection with ⟨c, more, rfl, notBlank⟩
      refine ⟨blanks ++ c :: more, ?_, rfl, ?_⟩
      · cases blanks with
        | nil => exact absurd rfl nonempty
        | cons blank blanks => simpa using areBlank blank List.mem_cons_self
      · rw [directionAfter?, if_neg (by simp), dropWhile_isBlank_append areBlank notBlank]
        exact isDirection

/-- A term is read as what its text orders by, and in an ascending order where
its keyword has a long s. -/
theorem readOrderTerm_eq_ok_iff :
    readOrderTerm term = .ok orderTerm ↔
      Fits term.text orderTerm ∨
        orderTerm.direction = .asc ∧ IsMisspelled term.text orderTerm.path := by
  rw [readOrderTerm_eq_ok_iff_exists, exists_directionAfter?_iff]
  simp only [direction?_eq_some_iff]
  constructor
  · rintro (bare | ⟨keyword, hasKeyword, equals | ⟨isAsc, long⟩⟩)
    · exact .inl (.inl bare)
    · exact .inl (.inr ⟨keyword, hasKeyword, equals⟩)
    · exact .inr ⟨isAsc, keyword, hasKeyword, long⟩
  · rintro ((bare | ⟨keyword, hasKeyword, equals⟩) | ⟨isAsc, keyword, hasKeyword, long⟩)
    · exact .inl bare
    · exact .inr ⟨keyword, hasKeyword, .inl equals⟩
    · exact .inr ⟨keyword, hasKeyword, .inr ⟨isAsc, long⟩⟩

theorem keyword_unique {other : List Char} {c d : Char} {more others : List Char}
    (hasKeyword : HasKeyword text path keyword) (hasOther : HasKeyword text path other)
    (keywordEq : keyword = c :: more) (otherEq : other = d :: others)
    (notBlank : ¬ isBlank c) (notBlankOther : ¬ isBlank d) : keyword = other := by
  subst keywordEq otherEq
  rcases hasKeyword with ⟨blanks, _, areBlank, split⟩
  rcases hasOther with ⟨blanks', _, areBlank', split'⟩
  have same := List.append_cancel_left (split.symm.trans split')
  rw [← dropWhile_isBlank_append areBlank notBlank, same,
    dropWhile_isBlank_append areBlank' notBlankOther]

/-- What is misspelled orders by nothing. -/
theorem not_fits_of_isMisspelled (misspelled : IsMisspelled text path) (orderTerm : OrderTerm) :
    ¬ Fits text orderTerm := by
  intro fits
  have isRead : readOrderTerm ⟨0, text⟩ = .ok orderTerm := readOrderTerm_eq_ok_iff.mpr (.inl fits)
  have isReadAsc : readOrderTerm ⟨0, text⟩ = .ok ⟨path, .asc⟩ :=
    readOrderTerm_eq_ok_iff.mpr (.inr ⟨rfl, misspelled⟩)
  cases Except.ok.inj (isRead.symm.trans isReadAsc)
  rcases misspelled with ⟨keyword, hasKeyword, long⟩
  rcases fits with ⟨bare, _⟩ | ⟨other, hasOther, equals⟩
  · rcases hasKeyword with ⟨blanks, nonempty, _, rfl⟩
    have nothing : blanks ++ keyword = [] := by simpa using bare
    exact nonempty (List.append_eq_nil_iff.mp nothing).1
  · have isDirection := direction?_eq_some_iff.mpr (.inr ⟨rfl, long⟩)
    have isOther := direction?_eq_some_iff.mpr (.inl equals)
    rcases exists_cons_of_direction? isDirection with ⟨c, more, keywordEq, notBlank⟩
    rcases exists_cons_of_direction? isOther with ⟨d, others, otherEq, notBlankOther⟩
    have same := keyword_unique hasKeyword hasOther keywordEq otherEq notBlank notBlankOther
    exact long.not_equals _ (same ▸ equals)

/-! ## Lists -/

/-- Whether a piece between two commas is blank or orders by something. -/
def IsOrdering (piece : List Char) : Prop :=
  trim piece = [] ∨ ∃ orderTerm, Fits (trim piece) orderTerm

/-- Whether a list is read as it is meant to be: it is accepted if all of its
segments order by something, each by the term that is read for it, and refused
at the text of the first piece that does not. -/
structure IsReadAsMeant (raw : String) : Prop where
  accepts : ∀ orderTerms, readOrderBy raw = .ok orderTerms ↔
    List.Forall₂ Fits (segments raw) orderTerms
  refuses : ∀ pieces piece more, raw.toList.splitOn ',' = pieces ++ piece :: more →
    (∀ earlier ∈ pieces, IsOrdering earlier) → ¬ IsOrdering piece →
    ∃ error, readOrderBy raw = .error error ∧ error.part = .orderBy ∧
      error.offset = some (placeOf pieces piece)

variable {raw : String}

/-- The terms of pieces that order by something are read. -/
theorem exists_readOrderTerm_of_isOrdering (start : Nat) {pieces : List (List Char)}
    (areOrderings : ∀ piece ∈ pieces, IsOrdering piece) :
    ∀ term ∈ termsOfPieces start pieces, ∃ orderTerm,
      Fits term.text orderTerm ∧ readOrderTerm term = .ok orderTerm := by
  intro term member
  have inTexts := List.mem_map_of_mem (f := Term.text) member
  rw [termsOfPieces_texts, List.mem_filter, List.mem_map] at inTexts
  rcases inTexts with ⟨⟨piece, isPiece, trimmed⟩, nonempty⟩
  rcases areOrderings piece isPiece with blank | ⟨orderTerm, fits⟩
  · rw [← trimmed, blank] at nonempty
    simp at nonempty
  · rw [trimmed] at fits
    exact ⟨orderTerm, fits, readOrderTerm_eq_ok_iff.mpr (.inl fits)⟩

/-- A misspelled piece behind orderings is not refused in its place. -/
theorem not_isReadAsMeant_of_isMisspelled {pieces more : List (List Char)} {piece : List Char}
    (split : raw.toList.splitOn ',' = pieces ++ piece :: more)
    (areOrderings : ∀ earlier ∈ pieces, IsOrdering earlier)
    (misspelled : IsMisspelled (trim piece) path) : ¬ IsReadAsMeant raw := by
  intro asMeant
  have notBlank : trim piece ≠ [] := by
    rcases misspelled with ⟨keyword, ⟨blanks, nonempty, _, split⟩, _⟩
    rw [split]
    simp [nonempty]
  have notOrdering : ¬ IsOrdering piece := by
    rintro (blank | ⟨orderTerm, fits⟩)
    · exact notBlank blank
    · exact not_fits_of_isMisspelled misspelled orderTerm fits
  rcases asMeant.refuses pieces piece more split areOrderings notOrdering with
    ⟨error, refused, _, place⟩
  -- No term can be the refused one: those before the piece are read, so is the one of the
  -- piece, and those behind it stand in another place.
  rcases Except.exists_mem_of_mapM_eq_error refused with ⟨term, member, refusedTerm⟩
  rw [terms_eq_append split notBlank, List.mem_append, List.mem_cons] at member
  rcases member with before | rfl | behind
  · rcases exists_readOrderTerm_of_isOrdering 0 areOrderings term before with ⟨_, _, isRead⟩
    cases isRead.symm.trans refusedTerm
  · have isRead : readOrderTerm ⟨placeOf pieces piece, trim piece⟩ = .ok ⟨path, .asc⟩ :=
      readOrderTerm_eq_ok_iff.mpr (.inr ⟨rfl, misspelled⟩)
    cases isRead.symm.trans refusedTerm
  · have starts := le_offset_of_mem_termsOfPieces term behind
    have ends := placeOf_le pieces piece
    rw [(place_of_readOrderTerm refusedTerm).2] at place
    have same := Option.some.inj place
    omega

/-- Whether no piece behind orderings is misspelled. -/
def IsWellSpelled (raw : String) : Prop :=
  ∀ pieces piece more, raw.toList.splitOn ',' = pieces ++ piece :: more →
    (∀ earlier ∈ pieces, IsOrdering earlier) → ∀ path, ¬ IsMisspelled (trim piece) path

/-- If every term of a well-spelled list is read, every piece is an ordering. -/
theorem isOrdering_of_exists_readOrderTerm (wellSpelled : IsWellSpelled raw)
    (areRead : ∀ term ∈ terms raw, ∃ orderTerm, readOrderTerm term = .ok orderTerm)
    {pieces more : List (List Char)} (split : raw.toList.splitOn ',' = pieces ++ more) :
    ∀ piece ∈ pieces, IsOrdering piece := by
  -- The last piece is taken off, since it is well spelled only behind orderings.
  induction pieces using List.reverseRecOn generalizing more with
  | nil => exact List.forall_mem_nil _
  | append_singleton pieces piece ih =>
      rw [List.append_assoc, List.singleton_append] at split
      have areOrderings := ih split
      refine List.forall_mem_append.mpr ⟨areOrderings, List.forall_mem_singleton.mpr ?_⟩
      by_cases blank : trim piece = []
      · exact .inl blank
      · have member : ⟨placeOf pieces piece, trim piece⟩ ∈ terms raw := by
          rw [terms_eq_append split blank]
          exact List.mem_append_right _ List.mem_cons_self
        rcases areRead _ member with ⟨orderTerm, isRead⟩
        rcases readOrderTerm_eq_ok_iff.mp isRead with fits | ⟨_, misspelled⟩
        · exact .inr ⟨orderTerm, fits⟩
        · exact absurd misspelled (wellSpelled pieces piece _ split areOrderings _)

/-- A list whose segments order by some terms is read as them. -/
theorem readOrderBy_of_fits {orderTerms : List OrderTerm}
    (fits : List.Forall₂ Fits (segments raw) orderTerms) : readOrderBy raw = .ok orderTerms := by
  rw [← terms_texts, List.forall₂_map_left_iff] at fits
  apply Except.mapM_eq_ok_iff.mpr
  exact fits.imp fun term orderTerm fits => readOrderTerm_eq_ok_iff.mpr (.inl fits)

/-- A list with the terms of orderings is read as them. -/
theorem readOrderBy_eq_ok_iff_of_isWellSpelled (wellSpelled : IsWellSpelled raw)
    (orderTerms : List OrderTerm) :
    readOrderBy raw = .ok orderTerms ↔ List.Forall₂ Fits (segments raw) orderTerms := by
  constructor
  · intro isRead
    rw [← terms_texts, List.forall₂_map_left_iff]
    have areOrderings := isOrdering_of_exists_readOrderTerm wellSpelled
      (Except.exists_of_mapM_eq_ok isRead) (List.append_nil _).symm
    have fit := exists_readOrderTerm_of_isOrdering 0 areOrderings
    have areRead := Except.mapM_eq_ok_iff.mp isRead
    refine ((List.forall₂_and_left _ _).mpr ⟨fit, areRead⟩).imp ?_
    rintro term orderTerm ⟨⟨other, fits, isOther⟩, isRead⟩
    rw [Except.ok.inj (isRead.symm.trans isOther)]
    exact fits
  · exact readOrderBy_of_fits

theorem refused_of_isWellSpelled (wellSpelled : IsWellSpelled raw)
    {pieces more : List (List Char)} {piece : List Char}
    (split : raw.toList.splitOn ',' = pieces ++ piece :: more)
    (areOrderings : ∀ earlier ∈ pieces, IsOrdering earlier) (notOrdering : ¬ IsOrdering piece) :
    ∃ error, readOrderBy raw = .error error ∧ error.part = .orderBy ∧
      error.offset = some (placeOf pieces piece) := by
  have notBlank : trim piece ≠ [] := fun blank => notOrdering (.inl blank)
  have listed := terms_eq_append split notBlank
  cases outcome : readOrderTerm ⟨placeOf pieces piece, trim piece⟩ with
  | ok orderTerm =>
      rcases readOrderTerm_eq_ok_iff.mp outcome with fits | ⟨_, misspelled⟩
      · exact absurd (.inr ⟨orderTerm, fits⟩) notOrdering
      · exact absurd misspelled (wellSpelled pieces piece more split areOrderings _)
  | error error =>
      have before := exists_readOrderTerm_of_isOrdering 0 areOrderings
      refine ⟨error, Except.mapM_eq_error_iff.mpr ⟨_, _, _, listed, outcome, ?_⟩,
        place_of_readOrderTerm outcome⟩
      intro term member
      rcases before term member with ⟨orderTerm, _, isRead⟩
      exact ⟨orderTerm, isRead⟩

/-- A list is read as it is meant to be exactly if no keyword has a long s that
is the first thing wrong with it. -/
theorem isReadAsMeant_iff_isWellSpelled (raw : String) :
    IsReadAsMeant raw ↔ IsWellSpelled raw := by
  constructor
  · intro asMeant pieces piece more split areOrderings path misspelled
    exact not_isReadAsMeant_of_isMisspelled split areOrderings misspelled asMeant
  · intro wellSpelled
    constructor
    · exact readOrderBy_eq_ok_iff_of_isWellSpelled wellSpelled
    · intro pieces piece more split areOrderings notOrdering
      exact refused_of_isWellSpelled wellSpelled split areOrderings notOrdering

/-- A long s turns a descending order into an ascending one. -/
theorem readOrderBy_desc_with_long_s :
    readOrderBy "a de\u017Fc" = .ok [⟨⟨["a"], by decide, by decide⟩, .asc⟩] ∧
      ¬ IsReadAsMeant "a de\u017Fc" := by
  have isRead : readOrderBy "a de\u017Fc" = .ok [⟨⟨["a"], by decide, by decide⟩, .asc⟩] := rfl
  refine ⟨isRead, fun asMeant => ?_⟩
  have fits := (asMeant.accepts _).mp isRead
  have segment : segments "a de\u017Fc" = ["a de\u017Fc".toList] := rfl
  rw [segment, List.forall₂_cons] at fits
  have hasKeyword :
      HasKeyword "a de\u017Fc".toList ⟨["a"], by decide, by decide⟩ "de\u017Fc".toList :=
    ⟨[' '], by decide, List.forall_mem_singleton.mpr (by decide), by decide⟩
  exact not_fits_of_isMisspelled ⟨_, hasKeyword, .inr (by decide), by decide⟩ _ fits.1

end OData.Query
