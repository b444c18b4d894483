import OData.Proofs.Expr.Acceptance

/-!
# Readable expressions

An expression has a text in the query language only if the language has words
for its names: a property whose path is a reserved word or starts with a digit
cannot be written, and neither can such a function.  `isReadable` is this
condition on all names of a tree.  Every tree that is read meets it, since its
names come from path tokens, and it only depends on the tree up to `same`.
-/

namespace OData

open Token (Kind)

/-! ## Names -/

/-- Whether a text starts with a letter. -/
def startsAlpha (text : String) : Bool :=
  text.toList.head?.any Char.isAlpha

/-- Whether a query can name a property by a path: its first segment starts
with a letter, and if that is all of the path, it is not reserved. -/
def Path.isReadable (path : Path) : Bool :=
  match path.segments with
  | [] => false
  | [word] => startsAlpha word && (Kind.ofWord? word).isNone
  | first :: _ => startsAlpha first

/-- Whether a query can call a function by a name. -/
def isFunctionName (name : String) : Bool :=
  isSegment name && startsAlpha name && (Kind.ofWord? name).isNone

theorem IsPathText.isAlphanum_of_mem {text : List Char} (isText : IsPathText text)
    (noSlash : '/' ∉ text) : ∀ c ∈ text, c.isAlphanum := by
  intro c member
  rcases isText.isAlphanum_or_slash c member with alphanum | rfl
  · exact alphanum
  · exact absurd member noSlash

/-- The readable paths are those that are written as words. -/
theorem Path.isReadable_iff {path : Path} : path.isReadable ↔ Token.IsWord path.written := by
  have written := path.toList_written
  have isText := path.isPathText_written
  unfold Path.isReadable
  cases segments : path.segments with
  | nil => exact absurd segments path.segments_ne_nil
  | cons first others =>
      rw [segments] at written
      cases others with
      | nil =>
          have same : path.written = first := by
            rw [← String.toList_inj, written]
            exact List.intercalate_singleton
          rw [same] at isText ⊢
          constructor
          · intro readable
            rw [Bool.and_eq_true, Option.isNone_iff_eq_none] at readable
            exact ⟨readable.1, isText, readable.2⟩
          · intro word
            rw [Bool.and_eq_true, Option.isNone_iff_eq_none]
            exact ⟨word.startsAlpha, word.notReserved⟩
      | cons second others =>
          have isSegment := path.isSegment_of_mem first (segments ▸ List.mem_cons_self)
          have nonempty := (isSegment_iff.mp isSegment).1
          rw [List.map_cons, List.map_cons, List.intercalate_cons_cons,
            List.append_assoc] at written
          have slash : '/' ∈ path.written.toList := by simp [written]
          have starts : startsAlpha path.written = startsAlpha first := by
            rw [startsAlpha, startsAlpha, written]
            cases letters : first.toList with
            | nil => exact absurd letters nonempty
            | cons => rfl
          constructor
          · intro readable
            exact ⟨starts.trans readable, isText, Token.ofWord?_eq_none_of_slash slash⟩
          · intro word
            exact starts.symm.trans word.startsAlpha

/-- Function names are words without a slash. -/
theorem isFunctionName_iff {name : String} :
    isFunctionName name ↔ Token.IsWord name ∧ '/' ∉ name.toList := by
  rw [isFunctionName, Bool.and_eq_true, Bool.and_eq_true, Option.isNone_iff_eq_none, isSegment_iff]
  constructor
  · rintro ⟨⟨⟨nonempty, alphanum⟩, starts⟩, notReserved⟩
    exact ⟨⟨starts, .of_segment nonempty alphanum, notReserved⟩,
      fun slash => not_isAlphanum_slash (alphanum '/' slash)⟩
  · rintro ⟨word, noSlash⟩
    have nonempty : name.toList ≠ [] := by
      intro empty
      have starts := word.startsAlpha
      rw [empty] at starts
      cases starts
    exact ⟨⟨⟨nonempty, word.isPathText.isAlphanum_of_mem noSlash⟩, word.startsAlpha⟩,
      word.notReserved⟩

namespace Expr

/-! ## Trees -/

mutual

/-- Whether the query language has words for all names of an expression. -/
def isReadable : Expr → Bool
  | binary _ left right => left.isReadable && right.isReadable
  | unary _ operand => operand.isReadable
  | call name args => isFunctionName name && areReadable args
  | property path => path.isReadable
  | literal _ => true

/-- Whether all of several expressions are readable. -/
def areReadable : List Expr → Bool
  | [] => true
  | arg :: args => arg.isReadable && areReadable args

end

theorem areReadable_iff {args : List Expr} :
    areReadable args ↔ ∀ arg ∈ args, arg.isReadable := by
  induction args with
  | nil => simp [areReadable]
  | cons arg args ih => simp [areReadable, ih]

mutual

/-- Trees that agree have the same names. -/
theorem isReadable_eq_of_same {left right : Expr} (agree : left.same right) :
    left.isReadable = right.isReadable := by
  cases left with
  | binary op first second =>
      cases right with
      | binary op' first' second' =>
          rw [same, Bool.and_eq_true, Bool.and_eq_true] at agree
          rw [isReadable, isReadable, isReadable_eq_of_same agree.1.2,
            isReadable_eq_of_same agree.2]
      | _ => cases agree
  | unary op operand =>
      cases right with
      | unary op' operand' =>
          rw [same, Bool.and_eq_true] at agree
          rw [isReadable, isReadable, isReadable_eq_of_same agree.2]
      | _ => cases agree
  | call name args =>
      cases right with
      | call name' args' =>
          rw [same, Bool.and_eq_true, beq_iff_eq] at agree
          rw [isReadable, isReadable, agree.1, areReadable_eq_of_sameAll agree.2]
      | _ => cases agree
  | property path =>
      cases right with
      | property path' =>
          rw [same, beq_iff_eq] at agree
          rw [agree]
      | _ => cases agree
  | literal value =>
      cases right with
      | literal value' => rfl
      | _ => cases agree

theorem areReadable_eq_of_sameAll {args args' : List Expr} (agree : sameAll args args') :
    areReadable args = areReadable args' := by
  cases args with
  | nil =>
      cases args' with
      | nil => rfl
      | cons => cases agree
  | cons arg args =>
      cases args' with
      | nil => cases agree
      | cons arg' args' =>
          rw [sameAll, Bool.and_eq_true] at agree
          rw [areReadable, areReadable, isReadable_eq_of_same agree.1,
            areReadable_eq_of_sameAll agree.2]

end

/-! ## What is read -/

theorem mem_chainKinds_of_mem {others : List (BinaryOperator × Phrase)}
    {other : BinaryOperator × Phrase} (member : other ∈ others) {kind : Kind}
    (isKind : kind ∈ other.2.kinds) : kind ∈ chainKinds others :=
  List.mem_flatMap.mpr ⟨other, member, List.mem_cons_of_mem _ isKind⟩

theorem mem_intercalate_of_mem {separator item : List Kind} {items : List (List Kind)}
    (member : item ∈ items) {kind : Kind} (isKind : kind ∈ item) :
    kind ∈ separator.intercalate items := by
  induction items with
  | nil => cases member
  | cons first items ih =>
      cases items with
      | nil =>
          rw [List.intercalate_singleton, ← List.mem_singleton.mp member]
          exact isKind
      | cons second items =>
          rw [List.intercalate_cons_cons, List.mem_append, List.mem_append]
          rcases List.mem_cons.mp member with rfl | later
          · exact .inl (.inl isKind)
          · exact .inr (ih later)

theorem isReadable_chainExpr {left : Expr} {others : List (BinaryOperator × Phrase)}
    (leftReadable : left.isReadable) (readable : ∀ other ∈ others, other.2.expr.isReadable) :
    (chainExpr left others).isReadable := by
  induction others generalizing left with
  | nil => exact leftReadable
  | cons other others ih =>
      rcases List.forall_mem_cons.mp readable with ⟨first, rest⟩
      exact ih (by rw [isReadable, leftReadable, first]; rfl) rest

/-- A phrase whose paths are words has a readable tree. -/
theorem Derives.isReadable {rank : Rank} {phrase : Phrase} (derives : Derives rank phrase)
    (lexical : ∀ kind ∈ phrase.kinds, kind.IsLexical) : phrase.expr.isReadable := by
  induction derives with
  | chain _ _ _ _ start rest =>
      rw [Phrase.chain_kinds, List.forall_mem_append] at lexical
      apply isReadable_chainExpr (start lexical.1)
      intro other member
      apply rest other member
      exact fun kind isKind => lexical.2 kind (mem_chainKinds_of_mem member isKind)
  | uncompared _ sum => exact sum lexical
  | compared _ _ _ left right =>
      rw [Phrase.compare, List.forall_mem_append, List.forall_mem_cons] at lexical
      rw [Phrase.compare, Expr.isReadable, left lexical.1, right lexical.2.2]
      rfl
  | bare _ operand => exact operand lexical
  | prefixed _ _ inner => exact inner (List.forall_mem_cons.mp lexical).2
  | parenthesized _ inner =>
      rw [Phrase.parenthesized, List.forall_mem_append, List.forall_mem_cons] at lexical
      exact inner lexical.1.2
  | @call name args isSimple _ ih =>
      rw [Phrase.call, List.forall_mem_append, List.forall_mem_cons,
        List.forall_mem_cons] at lexical
      have isName : isFunctionName name := isFunctionName_iff.mpr ⟨lexical.1.1, isSimple⟩
      have readable : areReadable (args.map Phrase.expr) := by
        rw [areReadable_iff, List.forall_mem_map]
        intro arg member
        apply ih arg member
        intro kind isKind
        exact lexical.1.2.2 kind (mem_intercalate_of_mem (List.mem_map_of_mem member) isKind)
      rw [Phrase.call, Expr.isReadable, isName, readable]
      rfl
  | property isPath =>
      have word := (List.forall_mem_cons.mp lexical).1
      rw [Path.read?_eq_some_iff.mp isPath] at word
      exact Path.isReadable_iff.mpr word
  | literal => rfl

end Expr

end OData
