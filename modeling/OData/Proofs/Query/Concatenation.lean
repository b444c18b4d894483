import OData.Proofs.Query.Reading
import OData.Proofs.Query.Terms

/-!
# Lists put together at a comma

A list that is made of two lists with a comma between them has the terms of the
first and then those of the second, which stand further back by the bytes of the
first list and of the comma.  A term is read alike wherever it stands, so the
whole is read as its parts are: their results follow one another, and the first
error of either part is that of the whole, at its place there.
-/

namespace OData

open Text

/-! ## Further back -/

/-- An error that lies further back. -/
def SyntaxError.shift (bytes : Nat) (error : SyntaxError) : SyntaxError :=
  { error with offset := error.offset.map (bytes + ·) }

namespace Query

/-- A term that stands further back. -/
def Term.shift (bytes : Nat) (term : Term) : Term :=
  { term with offset := bytes + term.offset }

theorem ofPiece?_add (bytes start : Nat) (piece : List Char) :
    Term.ofPiece? (bytes + start) piece = (Term.ofPiece? start piece).map (Term.shift bytes) := by
  unfold Term.ofPiece?
  split
  · rfl
  · rw [Option.map_some, Term.shift, Nat.add_assoc]

/-- Pieces that stand further back have their terms further back. -/
theorem termsOfPieces_add (bytes start : Nat) (pieces : List (List Char)) :
    termsOfPieces (bytes + start) pieces = (termsOfPieces start pieces).map (Term.shift bytes) := by
  induction pieces generalizing start with
  | nil => rfl
  | cons piece pieces ih =>
      have first : (Term.ofPiece? (bytes + start) piece).toList =
          (Term.ofPiece? start piece).toList.map (Term.shift bytes) := by
        rw [ofPiece?_add]
        cases Term.ofPiece? start piece <;> rfl
      have others : termsOfPieces (bytes + start + byteLength piece + 1) pieces =
          (termsOfPieces (start + byteLength piece + 1) pieces).map (Term.shift bytes) := by
        rw [← ih, Nat.add_assoc, Nat.add_assoc, Nat.add_assoc]
      rw [termsOfPieces, termsOfPieces, List.map_append, first, others]

/-! ## The terms of the whole -/

theorem width_eq_byteLength_intercalate {pieces : List (List Char)} (nonempty : pieces ≠ []) :
    width pieces = byteLength ([','].intercalate pieces) + 1 := by
  induction pieces with
  | nil => exact absurd rfl nonempty
  | cons piece pieces ih =>
      by_cases single : pieces = []
      · rw [single, List.intercalate_singleton, width, width]
      · have comma : byteLength [','] = 1 := rfl
        rw [width, ih single, List.intercalate_cons_of_ne_nil single, byteLength_append,
          byteLength_append, comma]
        omega

/-- The pieces of a list, with a comma behind each, have one byte more than the
list. -/
theorem width_splitOn (raw : String) :
    width (raw.toList.splitOn ',') = raw.utf8ByteSize + 1 := by
  rw [width_eq_byteLength_intercalate (List.splitOn_ne_nil _ _), List.intercalate_splitOn,
    byteLength_toList]

/-- The whole has the terms of the first list and then those of the second. -/
theorem terms_append_comma (first second : String) :
    terms (first ++ "," ++ second) =
      terms first ++ (terms second).map (Term.shift (first.utf8ByteSize + 1)) := by
  have whole : (first ++ "," ++ second).toList = first.toList ++ ',' :: second.toList := by simp
  rw [terms, whole, List.splitOn_append_cons_self, termsOfPieces_append, width_splitOn,
    Nat.zero_add]
  exact congrArg (terms first ++ ·) (termsOfPieces_add _ 0 _)

/-! ## Reading terms -/

section Terms

variable {α : Type} {readTerm : Term → Except SyntaxError α}

/-- Whether a term is read alike wherever it stands, with errors in its place. -/
structure IsLocal (readTerm : Term → Except SyntaxError α) : Prop where
  shift : ∀ bytes term,
    readTerm (term.shift bytes) = (readTerm term).mapError (SyntaxError.shift bytes)
  offset_eq : ∀ term error, readTerm term = .error error → error.offset = some term.offset

@[simp]
theorem shift_text (bytes : Nat) (term : Term) : (term.shift bytes).text = term.text :=
  rfl

theorem readPath_shift (part : Part) (bytes : Nat) (term : Term) (text : List Char) :
    readPath part (term.shift bytes) text =
      (readPath part term text).mapError (SyntaxError.shift bytes) := by
  simp only [readPath, refuse, Term.shift]
  split <;> rfl

theorem isLocal_readOrderTerm : IsLocal readOrderTerm where
  shift bytes term := by
    unfold readOrderTerm
    dsimp only
    rw [shift_text bytes term]
    split
    · rw [readPath_shift, Except.mapError_map]
    · rfl
  offset_eq _ _ refused := (place_of_readOrderTerm refused).2

theorem isLocal_readSelectTerm : IsLocal readSelectTerm where
  shift bytes term := by
    unfold readSelectTerm
    by_cases star : term.text = ['*']
    · have shiftedStar : (term.shift bytes).text = ['*'] := star
      rw [if_pos star, if_pos shiftedStar]
      rfl
    · have shiftedNoStar : (term.shift bytes).text ≠ ['*'] := star
      rw [if_neg star, if_neg shiftedNoStar, shift_text bytes term]
      split
      · rw [readPath_shift, Except.mapError_map]
      · rfl
  offset_eq _ _ refused := (place_of_readSelectTerm refused).2

theorem isLocal_readExpandTerm : IsLocal readExpandTerm where
  shift bytes term := by
    unfold readExpandTerm
    rw [shift_text bytes term]
    split
    · exact readPath_shift .expand bytes term term.text
    · rfl
  offset_eq _ _ refused := (place_of_readExpandTerm refused).2

/-- The terms of the whole are read as those of the first list and then those of
the second, whose errors lie further back. -/
theorem IsLocal.mapM_terms_append_comma (isLocal : IsLocal readTerm) (first second : String) :
    (terms (first ++ "," ++ second)).mapM readTerm = do
      let items ← (terms first).mapM readTerm
      let others ← ((terms second).mapM readTerm).mapError
        (SyntaxError.shift (first.utf8ByteSize + 1))
      return items ++ others := by
  have shifted : readTerm ∘ Term.shift (first.utf8ByteSize + 1) = fun term =>
      (readTerm term).mapError (SyntaxError.shift (first.utf8ByteSize + 1)) :=
    funext fun term => isLocal.shift _ term
  rw [terms_append_comma, List.mapM_append, List.mapM_map, shifted, Except.mapError_mapM]

end Terms

/-! ## Reading lists -/

/-- Whether two lists with a comma between them are read as they are alone, one
after the other.  Where only the second is refused, the error is its own with
the bytes in front of it counted in. -/
structure JoinsAtComma {α : Type} (read : String → Except SyntaxError (List α))
    (first second : String) : Prop where
  results : ∀ items others, read first = .ok items → read second = .ok others →
    read (first ++ "," ++ second) = .ok (items ++ others)
  firstError : ∀ error, read first = .error error → read (first ++ "," ++ second) = .error error
  secondError : ∀ items error, read first = .ok items → read second = .error error →
    ∃ offset, error.offset = some offset ∧ read (first ++ "," ++ second) =
      .error { error with offset := some (first.utf8ByteSize + 1 + offset) }

theorem IsLocal.joinsAtComma {α : Type} {readTerm : Term → Except SyntaxError α}
    (isLocal : IsLocal readTerm) (first second : String) :
    JoinsAtComma (fun raw => (terms raw).mapM readTerm) first second where
  results items others readFirst readSecond := by
    rw [isLocal.mapM_terms_append_comma, readFirst, readSecond]
    rfl
  firstError error refused := by
    rw [isLocal.mapM_terms_append_comma, refused]
    rfl
  secondError items error readFirst refused := by
    rcases Except.exists_mem_of_mapM_eq_error refused with ⟨term, _, refusedTerm⟩
    have place := isLocal.offset_eq term error refusedTerm
    refine ⟨term.offset, place, ?_⟩
    rw [isLocal.mapM_terms_append_comma, readFirst, refused, ← Option.map_some, ← place]
    rfl

/-- The three lists of a query can be put together, and taken apart, at any
comma. -/
theorem lists_joinsAtComma (first second : String) :
    JoinsAtComma readOrderBy first second ∧ JoinsAtComma readSelect first second ∧
      JoinsAtComma readExpand first second :=
  ⟨isLocal_readOrderTerm.joinsAtComma first second,
    isLocal_readSelectTerm.joinsAtComma first second,
    isLocal_readExpandTerm.joinsAtComma first second⟩

/-- Blank pieces and wide characters in front of an error count in bytes. -/
theorem readSelect_refused_behind_comma :
    let first := "*, a/b"
    let second := " ,\u3000c d"
    let cause := SyntaxError.Cause.invalidSelection "c d"
    readSelect first = .ok [.wildcard, .property ⟨["a", "b"], by decide, by decide⟩] ∧
      readSelect second = .error ⟨.select, some 5, cause⟩ ∧
      readSelect (first ++ "," ++ second) = .error ⟨.select, some 12, cause⟩ := by
  intro first second cause
  have readFirst : readSelect first =
      .ok [.wildcard, .property ⟨["a", "b"], by decide, by decide⟩] := by decide +kernel
  have refused : readSelect second = .error ⟨.select, some 5, cause⟩ := by decide +kernel
  have bytes : first.utf8ByteSize = 6 := by decide
  rcases (lists_joinsAtComma first second).2.1.secondError _ _ readFirst refused with
    ⟨offset, place, whole⟩
  cases place
  rw [bytes] at whole
  exact ⟨readFirst, refused, whole⟩

end Query

end OData
