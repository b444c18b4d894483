import OData.Query.Terms

/-!
# The terms of a list

The terms of a list are its segments between commas that are not blank, without
the blanks around them.  A term is located at the byte that follows all pieces
in front of it, their commas and the blanks that its own piece starts with.
-/

namespace OData.Query

open Text

/-- The segments of a list, without the blanks around them. -/
def segments (raw : String) : List (List Char) :=
  ((raw.toList.splitOn ',').map trim).filter (· ≠ [])

/-- The bytes in front of the text of a piece that follows other pieces. -/
def placeOf (pieces : List (List Char)) (piece : List Char) : Nat :=
  byteLength ([','].intercalate (pieces ++ [piece.takeWhile isBlank]))

/-- The bytes of pieces with a comma behind each. -/
def width : List (List Char) → Nat
  | [] => 0
  | piece :: pieces => byteLength piece + 1 + width pieces

theorem placeOf_eq_width_add (pieces : List (List Char)) (piece : List Char) :
    placeOf pieces piece = width pieces + byteLength (piece.takeWhile isBlank) := by
  rw [placeOf]
  induction pieces with
  | nil => simp [width]
  | cons first pieces ih =>
      rw [List.cons_append, List.intercalate_cons_of_ne_nil (by simp), byteLength_append,
        byteLength_append, ih]
      have comma : byteLength [','] = 1 := rfl
      rw [comma, width]
      omega

theorem placeOf_cons (first : List Char) (pieces : List (List Char)) (piece : List Char) :
    placeOf (first :: pieces) piece = byteLength first + 1 + placeOf pieces piece := by
  rw [placeOf_eq_width_add, placeOf_eq_width_add, width, Nat.add_assoc]

/-- The text of a piece starts before the piece ends. -/
theorem placeOf_le (pieces : List (List Char)) (piece : List Char) :
    placeOf pieces piece ≤ width pieces + byteLength piece := by
  have whole := congrArg byteLength (List.takeWhile_append_dropWhile (p := isBlank) (l := piece))
  rw [byteLength_append] at whole
  rw [placeOf_eq_width_add]
  omega

theorem termsOfPieces_texts (start : Nat) (pieces : List (List Char)) :
    (termsOfPieces start pieces).map Term.text = (pieces.map trim).filter (· ≠ []) := by
  induction pieces generalizing start with
  | nil => rfl
  | cons piece pieces ih =>
      rw [termsOfPieces, List.map_append, ih, List.map_cons, List.filter_cons]
      by_cases blank : trim piece = []
      · simp [Term.ofPiece?, blank]
      · simp [Term.ofPiece?, blank]

/-- The terms of a list have the texts of its segments. -/
theorem terms_texts (raw : String) : (terms raw).map Term.text = segments raw :=
  termsOfPieces_texts 0 _

/-- No term starts before its pieces do. -/
theorem le_offset_of_mem_termsOfPieces {start : Nat} {pieces : List (List Char)} :
    ∀ term ∈ termsOfPieces start pieces, start ≤ term.offset := by
  induction pieces generalizing start with
  | nil => exact fun _ member => absurd member List.not_mem_nil
  | cons piece pieces ih =>
      intro term member
      rw [termsOfPieces, List.mem_append] at member
      rcases member with first | others
      · unfold Term.ofPiece? at first
        split at first
        · cases first
        · cases List.mem_singleton.mp first
          exact Nat.le_add_right _ _
      · have behind := ih term others
        omega

theorem termsOfPieces_append (start : Nat) (pieces more : List (List Char)) :
    termsOfPieces start (pieces ++ more) =
      termsOfPieces start pieces ++ termsOfPieces (start + width pieces) more := by
  induction pieces generalizing start with
  | nil => rfl
  | cons piece pieces ih =>
      have starts :
          start + byteLength piece + 1 + width pieces = start + width (piece :: pieces) := by
        rw [width]
        omega
      rw [List.cons_append, termsOfPieces, termsOfPieces, ih, List.append_assoc, starts]

/-- A piece that is not blank gives a term in its place among the others. -/
theorem terms_eq_append {raw : String} {pieces more : List (List Char)} {piece : List Char}
    (split : raw.toList.splitOn ',' = pieces ++ piece :: more) (notBlank : trim piece ≠ []) :
    terms raw = termsOfPieces 0 pieces ++
      ⟨placeOf pieces piece, trim piece⟩ ::
        termsOfPieces (width pieces + byteLength piece + 1) more := by
  have first : Term.ofPiece? (width pieces) piece = some ⟨placeOf pieces piece, trim piece⟩ := by
    rw [Term.ofPiece?, if_neg notBlank, placeOf_eq_width_add]
  rw [terms, split, termsOfPieces_append, termsOfPieces, Nat.zero_add, first]
  rfl

/-- Every term is that of a piece, and the terms before it are those of the
pieces before that one. -/
theorem exists_piece_of_termsOfPieces {start : Nat} {pieces : List (List Char)}
    {before after : List Term} {term : Term}
    (split : termsOfPieces start pieces = before ++ term :: after) :
    ∃ front piece more, pieces = front ++ piece :: more ∧ before = termsOfPieces start front ∧
      trim piece ≠ [] ∧ term = ⟨start + placeOf front piece, trim piece⟩ := by
  induction pieces generalizing start before with
  | nil =>
      rw [termsOfPieces] at split
      exact absurd split.symm (by simp)
  | cons first pieces ih =>
      have place (front : List (List Char)) (piece : List Char) :
          start + byteLength first + 1 + placeOf front piece =
            start + placeOf (first :: front) piece := by
        rw [placeOf_cons]
        omega
      rw [termsOfPieces] at split
      by_cases blank : trim first = []
      · have nothing : Term.ofPiece? start first = none := if_pos blank
        rw [nothing, Option.toList_none, List.nil_append] at split
        rcases ih split with ⟨front, piece, more, rfl, rfl, notBlank, rfl⟩
        refine ⟨first :: front, piece, more, rfl, ?_, notBlank, ?_⟩
        · rw [termsOfPieces, nothing, Option.toList_none, List.nil_append]
        · rw [place]
      · have found : Term.ofPiece? start first = some ⟨start + placeOf [] first, trim first⟩ := by
          rw [Term.ofPiece?, if_neg blank, placeOf_eq_width_add, width, Nat.zero_add]
        rw [found, Option.toList_some, List.singleton_append] at split
        cases before with
        | nil =>
            cases split
            exact ⟨[], first, pieces, rfl, rfl, blank, rfl⟩
        | cons earlier before =>
            obtain ⟨rfl, others⟩ := List.cons.inj split
            rcases ih others with ⟨front, piece, more, rfl, rfl, notBlank, rfl⟩
            refine ⟨first :: front, piece, more, rfl, ?_, notBlank, ?_⟩
            · rw [termsOfPieces, found, Option.toList_some, List.singleton_append]
            · rw [place]

end OData.Query
