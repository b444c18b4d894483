import OData.Text.Blank
import OData.Text.Utf8

/-!
# Lists in options

Three options are lists.  Their terms are separated by commas, blanks around a
term are dropped, and so are blank terms.  A term remembers at which byte of
the option it starts.
-/

namespace OData.Query

open Text

/-- A term of a list with the offset of its first byte. -/
structure Term where
  offset : Nat
  text : List Char
deriving DecidableEq

/-- The term within a piece between two commas, unless the piece is blank. -/
def Term.ofPiece? (start : Nat) (piece : List Char) : Option Term :=
  if trim piece = [] then
    none
  else
    some ⟨start + byteLength (piece.takeWhile isBlank), trim piece⟩

/-- The terms of the pieces that follow one another from byte `start` on, with
a comma of one byte between any two. -/
def termsOfPieces (start : Nat) : List (List Char) → List Term
  | [] => []
  | piece :: pieces =>
      (Term.ofPiece? start piece).toList ++
        termsOfPieces (start + byteLength piece + 1) pieces

/-- The terms of a list. -/
def terms (raw : String) : List Term :=
  termsOfPieces 0 (raw.toList.splitOn ',')

end OData.Query
