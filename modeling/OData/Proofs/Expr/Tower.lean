import Mathlib.Order.Bounds.Basic
import OData.Proofs.Expr.Depth

/-!
# The deepest trees

The square of the limit is not only a bound on the depth of a filter, it is
reached.  A tower has the longest chains that a nesting allows at all four
ranks and a comparison, around a call of which the argument is the tower of
the nesting below.  Each of its layers adds what the bound adds.
-/

namespace OData.Expr

open Token (Kind)

/-- The phrases with the deepest tree for every nesting. -/
def tower : Nat → Phrase
  | 0 => sampleOperand.layer 0
  | height + 1 => (Phrase.call "a" [tower height]).layer (height + 1)

theorem tower_nesting (height : Nat) : (tower height).nesting = height := by
  induction height with
  | zero => rfl
  | succ height ih =>
      have ofCall : (Phrase.call "a" [tower height]).nesting = height + 1 := by
        simp [Phrase.call, largestNesting, ih]
      rw [tower, Phrase.layer_nesting, ofCall, Nat.max_self]

/-- A tower is as deep as the bound allows. -/
theorem tower_depth (height : Nat) : (tower height).expr.depth = 2 * (height + 1) ^ 2 := by
  induction height with
  | zero => rfl
  | succ height ih =>
      have ofCall : (Phrase.call "a" [tower height]).expr.depth = 1 + 2 * (height + 1) ^ 2 := by
        simp [Phrase.call, depth, maxDepth, ih]
      rw [tower, Phrase.layer_depth, ofCall]
      ring

theorem derives_tower (height : Nat) : Derives .disjunction (tower height) := by
  induction height with
  | zero => exact derives_sampleOperand.layer 0
  | succ height ih =>
      have isSimple : '/' ∉ "a".toList := by decide
      have ofCall : Derives .operand (.call "a" [tower height]) :=
        .call isSimple (List.forall_mem_singleton.mpr ih)
      exact (Derives.bare ofCall).layer (height + 1)

theorem isPlain_call {arg : Phrase} (plain : arg.IsPlain) : (Phrase.call "a" [arg]).IsPlain := by
  intro kind member
  simp only [Phrase.call, List.map_singleton, List.intercalate_singleton, List.cons_append,
    List.mem_cons, List.mem_append, List.not_mem_nil, or_false] at member
  rcases member with rfl | rfl | inArg | rfl
  · exact isWord_sampleName
  · exact trivial
  · exact plain kind inArg
  · exact trivial

theorem isPlain_tower (height : Nat) : (tower height).IsPlain := by
  induction height with
  | zero => exact isPlain_sampleOperand.layer 0
  | succ height ih => exact (isPlain_call ih).layer (height + 1)

/-- Some source is read as a tower, where the limit covers its height. -/
theorem exists_read_tower (height : Nat) :
    ∃ source, read height source = .ok (some (tower height).expr) :=
  exists_read (derives_tower height) (isPlain_tower height) (Nat.le_of_eq (tower_nesting height))

/-- Twice the square of the limit and one is the largest depth of a filter. -/
theorem isGreatest_depth_of_read (maxNesting : Nat) :
    IsGreatest {depth | ∃ source expr, read maxNesting source = .ok (some expr) ∧
      expr.depth = depth} (2 * (maxNesting + 1) ^ 2) := by
  constructor
  · rcases exists_read_tower maxNesting with ⟨source, isRead⟩
    exact ⟨source, _, isRead, tower_depth maxNesting⟩
  · rintro _ ⟨source, expr, isRead, rfl⟩
    calc expr.depth
      _ ≤ 2 * (maxNesting + 1) * (maxNesting + 1) := depth_le_of_read isRead
      _ = 2 * (maxNesting + 1) ^ 2 := by ring

end OData.Expr
