import Mathlib.Data.List.TakeWhile
import OData.Proofs.Characters
import OData.Proofs.Outcome
import OData.Proofs.Path
import OData.Proofs.Query.Reading
import OData.Proofs.Query.Terms

/-!
# Selections and expansions

A list of properties to select or to expand is read as the terms that its
segments are written as.  So reading undoes writing, whatever blanks stand
around the terms and however many blank pieces stand between them.  A star
stands for all properties to select and is never part of a name.
-/

namespace OData

/-- The term as queries write it: a star, or the path of its property. -/
def SelectTerm.written : SelectTerm → String
  | wildcard => "*"
  | property path => path.written

namespace Query

open Text

/-! ## Terms -/

variable {term : Term} {raw : String}

theorem star_notMem_written (path : Path) : '*' ∉ path.written.toList := by
  intro member
  rcases path.isPathText_written.isAlphanum_or_slash '*' member with alphanum | slash
  · exact absurd alphanum (by decide)
  · exact absurd slash (by decide)

theorem ne_written_of_not_fits {text : List Char} (noPath : ¬ Path.fits text) (path : Path) :
    text ≠ path.written.toList := by
  rintro rfl
  exact noPath (Path.fits_iff_isPathText.mpr path.isPathText_written)

theorem readSelectTerm_eq_ok_iff {result : SelectTerm} :
    readSelectTerm term = .ok result ↔ term.text = result.written.toList := by
  unfold readSelectTerm
  split
  · next isStar =>
      rw [isStar]
      cases result with
      | wildcard => exact iff_of_true rfl rfl
      | property path =>
          apply iff_of_false
          · rintro ⟨⟩
          · intro isPath
            have star : '*' ∈ path.written.toList := isPath ▸ List.mem_singleton_self '*'
            exact star_notMem_written path star
  · next noStar =>
      split
      · rw [Except.map_eq_ok_iff]
        cases result with
        | wildcard => exact iff_of_false (by simp) noStar
        | property path => simp [readPath_eq_ok_iff, SelectTerm.written]
      · next noPath =>
          cases result with
          | wildcard => exact iff_of_false nofun noStar
          | property path => exact iff_of_false nofun (ne_written_of_not_fits noPath path)

theorem readExpandTerm_eq_ok_iff {path : Path} :
    readExpandTerm term = .ok path ↔ term.text = path.written.toList := by
  unfold readExpandTerm
  split
  · exact readPath_eq_ok_iff
  · next noPath => exact iff_of_false nofun (ne_written_of_not_fits noPath path)

/-! ## Lists -/

/-- If every term is read as what it is written as, a list is read as what its
segments are written as. -/
theorem mapM_terms_eq_ok_iff {α : Type} {step : Term → Except SyntaxError α} {written : α → String}
    (reads : ∀ term result, step term = .ok result ↔ term.text = (written result).toList)
    {results : List α} :
    (terms raw).mapM step = .ok results ↔
      segments raw = results.map fun result => (written result).toList := by
  rw [Except.mapM_eq_ok_iff, ← terms_texts, ← List.forall₂_eq_eq_eq, List.forall₂_map_left_iff,
    List.forall₂_map_right_iff]
  simp only [reads]

theorem readSelect_eq_ok_iff {selected : List SelectTerm} :
    readSelect raw = .ok selected ↔
      segments raw = selected.map fun term => term.written.toList :=
  mapM_terms_eq_ok_iff fun _ _ => readSelectTerm_eq_ok_iff

theorem readExpand_eq_ok_iff {paths : List Path} :
    readExpand raw = .ok paths ↔ segments raw = paths.map fun path => path.written.toList :=
  mapM_terms_eq_ok_iff fun _ _ => readExpandTerm_eq_ok_iff

/-! ## Padding -/

/-- Whether pieces are texts with blanks around them, in their order, and blank
pieces anywhere between them. -/
inductive Pads : List (List Char) → List (List Char) → Prop
  | nil : Pads [] []
  | blank {piece : List Char} {pieces texts : List (List Char)}
      (areBlank : ∀ c ∈ piece, isBlank c) (rest : Pads pieces texts) : Pads (piece :: pieces) texts
  | text {before text after : List Char} {pieces texts : List (List Char)}
      (blankBefore : ∀ c ∈ before, isBlank c) (blankAfter : ∀ c ∈ after, isBlank c)
      (rest : Pads pieces texts) : Pads ((before ++ text ++ after) :: pieces) (text :: texts)

/-- What can stand between two commas and keeps all of its characters there. -/
def IsSolid (text : List Char) : Prop :=
  text ≠ [] ∧ ∀ c ∈ text, ¬ isBlank c ∧ c ≠ ','

theorem isSolid_written (path : Path) : IsSolid path.written.toList := by
  have isText := path.isPathText_written
  constructor
  · intro empty
    rw [empty] at isText
    cases isText
  · intro c member
    rcases isText.isAlphanum_or_slash c member with alphanum | rfl
    · exact ⟨not_isBlank_of_isAlphanum alphanum, (ne_punctuation_of_isAlphanum alphanum).2.2.1⟩
    · decide

theorem isSolid_written_selectTerm (term : SelectTerm) : IsSolid term.written.toList := by
  cases term with
  | wildcard => exact ⟨by decide, List.forall_mem_singleton.mpr (by decide)⟩
  | property path => exact isSolid_written path

theorem dropWhile_append_of_forall {blanks text : List Char} (areBlank : ∀ c ∈ blanks, isBlank c)
    (noBlank : ∀ c ∈ text, ¬ isBlank c) (rest : List Char) (nonempty : text ≠ []) :
    (blanks ++ (text ++ rest)).dropWhile isBlank = text ++ rest := by
  cases text with
  | nil => exact absurd rfl nonempty
  | cons c text => exact dropWhile_isBlank_append areBlank (noBlank c List.mem_cons_self) _

/-- Trimming takes off the blanks around a text and nothing else. -/
theorem trim_padded {before text after : List Char} (blankBefore : ∀ c ∈ before, isBlank c)
    (blankAfter : ∀ c ∈ after, isBlank c) (solid : IsSolid text) :
    trim (before ++ text ++ after) = text := by
  have noBlank : ∀ c ∈ text, ¬ isBlank c := fun c member => (solid.2 c member).1
  have start : (before ++ (text ++ after)).dropWhile isBlank = text ++ after :=
    dropWhile_append_of_forall blankBefore noBlank after solid.1
  have stop : (after.reverse ++ (text.reverse ++ [])).dropWhile isBlank = text.reverse ++ [] :=
    dropWhile_append_of_forall (by simpa using blankAfter) (by simpa using noBlank) []
      (by simpa using solid.1)
  rw [List.append_nil] at stop
  rw [trim, trimStart, List.append_assoc, start, trimEnd, List.reverse_append, stop,
    List.reverse_reverse]

variable {pieces texts : List (List Char)}

theorem Pads.filter_trim (pads : Pads pieces texts) (solid : ∀ text ∈ texts, IsSolid text) :
    (pieces.map trim).filter (· ≠ []) = texts := by
  induction pads with
  | nil => rfl
  | blank areBlank _ ih =>
      rw [List.map_cons, trim_eq_nil_iff.mpr areBlank]
      exact ih solid
  | text blankBefore blankAfter _ ih =>
      rcases List.forall_mem_cons.mp solid with ⟨first, others⟩
      rw [List.map_cons, trim_padded blankBefore blankAfter first,
        List.filter_cons_of_pos (by simpa using first.1), ih others]

theorem Pads.comma_notMem (pads : Pads pieces texts) (solid : ∀ text ∈ texts, IsSolid text) :
    ∀ piece ∈ pieces, ',' ∉ piece := by
  have notBlank : ¬ isBlank ',' := by decide
  induction pads with
  | nil => exact List.forall_mem_nil _
  | blank areBlank _ ih =>
      exact List.forall_mem_cons.mpr ⟨fun comma => notBlank (areBlank _ comma), ih solid⟩
  | text blankBefore blankAfter _ ih =>
      rcases List.forall_mem_cons.mp solid with ⟨first, others⟩
      refine List.forall_mem_cons.mpr ⟨fun comma => ?_, ih others⟩
      rw [List.mem_append, List.mem_append] at comma
      rcases comma with (inBefore | inText) | inAfter
      · exact notBlank (blankBefore _ inBefore)
      · exact (first.2 _ inText).2 rfl
      · exact notBlank (blankAfter _ inAfter)

/-- The segments of padded texts with commas between them are the texts. -/
theorem Pads.segments_eq (pads : Pads pieces texts) (solid : ∀ text ∈ texts, IsSolid text) :
    segments (String.ofList ([','].intercalate pieces)) = texts := by
  by_cases nothing : pieces = []
  · subst nothing
    cases pads
    rfl
  · rw [segments, String.toList_ofList,
      List.splitOn_intercalate ',' (pads.comma_notMem solid) nothing, pads.filter_trim solid]

/-! ## Stars -/

theorem exists_piece_of_mem {c separator : Char} (other : c ≠ separator)
    {pieces : List (List Char)} (member : c ∈ [separator].intercalate pieces) :
    ∃ piece ∈ pieces, c ∈ piece := by
  induction pieces with
  | nil => cases member
  | cons piece pieces ih =>
      by_cases single : pieces = []
      · subst single
        rw [List.intercalate_singleton] at member
        exact ⟨piece, List.mem_cons_self, member⟩
      · rw [List.intercalate_cons_of_ne_nil single, List.mem_append, List.mem_append] at member
        rcases member with (inPiece | isSeparator) | inOthers
        · exact ⟨piece, List.mem_cons_self, inPiece⟩
        · exact absurd (List.mem_singleton.mp isSeparator) other
        · rcases ih inOthers with ⟨later, isLater, inLater⟩
          exact ⟨later, List.mem_cons_of_mem _ isLater, inLater⟩

theorem mem_dropWhile_isBlank {c : Char} (notBlank : ¬ isBlank c) {text : List Char}
    (member : c ∈ text) : c ∈ text.dropWhile isBlank := by
  rw [← List.takeWhile_append_dropWhile (p := isBlank) (l := text), List.mem_append] at member
  rcases member with inBlanks | inRest
  · exact absurd (forall_mem_takeWhile_isBlank text c inBlanks) notBlank
  · exact inRest

theorem mem_trim {c : Char} (notBlank : ¬ isBlank c) {text : List Char} (member : c ∈ text) :
    c ∈ trim text := by
  rw [trim, trimEnd, List.mem_reverse]
  apply mem_dropWhile_isBlank notBlank
  rw [List.mem_reverse]
  exact mem_dropWhile_isBlank notBlank member

/-- What is neither blank nor a comma stands in a segment. -/
theorem exists_segment_of_mem {c : Char} (notBlank : ¬ isBlank c) (notComma : c ≠ ',')
    (member : c ∈ raw.toList) : ∃ segment ∈ segments raw, c ∈ segment := by
  have whole : [','].intercalate (raw.toList.splitOn ',') = raw.toList :=
    List.intercalate_splitOn ','
  rw [← whole] at member
  rcases exists_piece_of_mem notComma member with ⟨piece, isPiece, inPiece⟩
  have inTrimmed := mem_trim notBlank inPiece
  refine ⟨trim piece, List.mem_filter.mpr ⟨List.mem_map_of_mem isPiece, ?_⟩, inTrimmed⟩
  simpa using List.ne_nil_of_mem inTrimmed

/-! ## Reading what was written -/

/-- Selections and expansions are read as what their segments are written as,
so padded texts of terms are read as the terms.  A star is read only where it
is a whole segment of a selection. -/
theorem readSelect_and_readExpand_eq_ok_iff :
    (∀ raw selected, readSelect raw = .ok selected ↔
      segments raw = selected.map fun term => term.written.toList) ∧
    (∀ raw paths, readExpand raw = .ok paths ↔
      segments raw = paths.map fun path => path.written.toList) ∧
    (∀ pieces selected, Pads pieces (selected.map fun term => term.written.toList) →
      readSelect (String.ofList ([','].intercalate pieces)) = .ok selected) ∧
    (∀ pieces paths, Pads pieces (paths.map fun path => path.written.toList) →
      readExpand (String.ofList ([','].intercalate pieces)) = .ok paths) ∧
    (∀ raw : String, '*' ∈ raw.toList → ∀ paths, readExpand raw ≠ .ok paths) ∧
    ∀ raw selected, readSelect raw = .ok selected →
      ∀ segment ∈ segments raw, '*' ∈ segment → segment = ['*'] := by
  refine ⟨fun _ _ => readSelect_eq_ok_iff, fun _ _ => readExpand_eq_ok_iff, ?_, ?_, ?_, ?_⟩
  · intro pieces selected pads
    rw [readSelect_eq_ok_iff]
    apply pads.segments_eq
    intro text member
    rcases List.mem_map.mp member with ⟨term, _, rfl⟩
    exact isSolid_written_selectTerm term
  · intro pieces paths pads
    rw [readExpand_eq_ok_iff]
    apply pads.segments_eq
    intro text member
    rcases List.mem_map.mp member with ⟨path, _, rfl⟩
    exact isSolid_written path
  · intro raw star paths isRead
    rw [readExpand_eq_ok_iff] at isRead
    rcases exists_segment_of_mem (by decide) (by decide) star with ⟨segment, isSegment, inSegment⟩
    rw [isRead] at isSegment
    rcases List.mem_map.mp isSegment with ⟨path, _, rfl⟩
    exact star_notMem_written path inSegment
  · intro raw selected isRead segment isSegment star
    rw [readSelect_eq_ok_iff] at isRead
    rw [isRead] at isSegment
    rcases List.mem_map.mp isSegment with ⟨term, _, rfl⟩
    cases term with
    | wildcard => rfl
    | property path => exact absurd star (star_notMem_written path)

theorem readSelect_star_and_path_between_blanks :
    let name : Path := ⟨["user", "name"], by decide, by decide⟩
    let selected : List SelectTerm := [.wildcard, .property name]
    let pieces : List (List Char) := [['\u2003'], [' ', '*'], [], "user/name\t".toList]
    Pads pieces (selected.map fun term => term.written.toList) ∧
      readSelect (String.ofList ([','].intercalate pieces)) = .ok selected := by
  intro name selected pieces
  have none : ∀ c ∈ ([] : List Char), isBlank c := List.forall_mem_nil _
  have wide : ∀ c ∈ ['\u2003'], isBlank c := List.forall_mem_singleton.mpr rfl
  have space : ∀ c ∈ [' '], isBlank c := List.forall_mem_singleton.mpr rfl
  have tab : ∀ c ∈ ['\t'], isBlank c := List.forall_mem_singleton.mpr rfl
  have last : Pads [[], "user/name\t".toList] ["user/name".toList] :=
    .blank none (@Pads.text [] "user/name".toList ['\t'] _ _ none tab .nil)
  have pads : Pads pieces (selected.map fun term => term.written.toList) :=
    .blank wide (@Pads.text [' '] ['*'] [] _ _ space none last)
  exact ⟨pads, readSelect_and_readExpand_eq_ok_iff.2.2.1 pieces selected pads⟩

end Query

end OData
