import Mathlib.Computability.RegularExpressions
import OData.Proofs.Characters
import OData.Proofs.Path

/-!
# Paths as a regular language

`Path.pattern` is the pattern `[A-Za-z0-9]+(?:/[A-Za-z0-9]+)*` as a regular
expression.  It matches exactly the path texts, so scanning a text with
`Path.fits` decides it.
-/

namespace OData.Path

open RegularExpression Text

/-- Any one of some characters. -/
def oneOf (chars : List Char) : RegularExpression Char :=
  (chars.map char).sum

/-- The characters of segments. -/
def segmentChars : List Char :=
  "ABCDEFGHIJKLMNOPQRSTUVWXYZabcdefghijklmnopqrstuvwxyz0123456789".toList

/-- One character of a segment or more. -/
def segmentPattern : RegularExpression Char :=
  oneOf segmentChars * star (oneOf segmentChars)

/-- A segment, and then any number of segments with a slash in front. -/
def pattern : RegularExpression Char :=
  segmentPattern * star (char '/' * segmentPattern)

variable {text : List Char}

/-! ## Segments -/

theorem mem_matches_oneOf {chars : List Char} :
    text ∈ (oneOf chars).matches' ↔ ∃ c ∈ chars, text = [c] := by
  induction chars with
  | nil => exact iff_of_false (Language.notMem_zero text) (by simp)
  | cons c chars ih =>
      rw [oneOf, List.map_cons, List.sum_cons, matches'_add, Language.mem_add, ← oneOf, ih,
        List.exists_mem_cons_iff]
      exact Iff.rfl

/-- The characters of segments are the letters and digits. -/
theorem mem_segmentChars_iff {c : Char} : c ∈ segmentChars ↔ c.isAlphanum := by
  constructor
  · have allAlphanum : segmentChars.all Char.isAlphanum := by decide
    exact List.all_eq_true.mp allAlphanum c
  · intro alphanum
    have complete : ∀ code < 128,
        (Char.ofNat code).isAlphanum → Char.ofNat code ∈ segmentChars := by
      decide
    have range := isAlphanum_iff_toNat.mp alphanum
    have member := complete c.toNat (by omega)
    rw [Char.ofNat_toNat] at member
    exact member alphanum

theorem mem_matches_segmentPattern :
    text ∈ segmentPattern.matches' ↔ text ≠ [] ∧ ∀ c ∈ text, c.isAlphanum := by
  rw [segmentPattern, matches'_mul, matches'_star, Language.mem_mul]
  constructor
  · rintro ⟨first, isFirst, others, ⟨letters, rfl, areLetters⟩, rfl⟩
    rcases mem_matches_oneOf.mp isFirst with ⟨c, isChar, rfl⟩
    refine ⟨List.cons_ne_nil c _, List.forall_mem_cons.mpr ⟨mem_segmentChars_iff.mp isChar, ?_⟩⟩
    intro d member
    rcases List.mem_flatten.mp member with ⟨letter, isLetter, inLetter⟩
    rcases mem_matches_oneOf.mp (areLetters letter isLetter) with ⟨e, isChar, rfl⟩
    rw [List.mem_singleton.mp inLetter]
    exact mem_segmentChars_iff.mp isChar
  · rintro ⟨nonempty, alphanum⟩
    have isLetter : ∀ c ∈ text, [c] ∈ (oneOf segmentChars).matches' := fun c member =>
      mem_matches_oneOf.mpr ⟨c, mem_segmentChars_iff.mpr (alphanum c member), rfl⟩
    cases text with
    | nil => exact absurd rfl nonempty
    | cons c text =>
        rcases List.forall_mem_cons.mp isLetter with ⟨first, others⟩
        refine ⟨[c], first, text, ⟨text.map fun d => [d], ?_, ?_⟩, rfl⟩
        · simp [← List.flatMap_def]
        intro letter member
        rcases List.mem_map.mp member with ⟨d, isChar, rfl⟩
        exact others d isChar

/-! ## Paths -/

/-- Segments behind a first one, each with a slash in front, make a path text
with it. -/
theorem isPathText_append_flatten {segment : List Char} {others : List (List Char)}
    (first : segment ∈ segmentPattern.matches')
    (areOthers : ∀ other ∈ others, other ∈ (char '/' * segmentPattern).matches') :
    IsPathText (segment ++ others.flatten) := by
  induction others generalizing segment with
  | nil =>
      rcases mem_matches_segmentPattern.mp first with ⟨nonempty, alphanum⟩
      rw [List.flatten_nil, List.append_nil]
      exact .of_segment nonempty alphanum
  | cons other others ih =>
      rcases mem_matches_segmentPattern.mp first with ⟨nonempty, alphanum⟩
      rcases List.forall_mem_cons.mp areOthers with ⟨isOther, areMore⟩
      rcases Language.mem_mul.mp isOther with ⟨_, rfl, next, isNext, rfl⟩
      rw [List.flatten_cons, List.append_assoc]
      exact .segment_append nonempty alphanum (ih isNext areMore)

theorem intercalate_cons_eq_append_flatten (separator : Char) (first : List Char)
    (others : List (List Char)) :
    [separator].intercalate (first :: others) =
      first ++ (others.map fun other => [separator] ++ other).flatten := by
  induction others generalizing first with
  | nil => simp
  | cons other others ih => simp [List.intercalate_cons_cons, ih]

/-- The pattern matches exactly the path texts. -/
theorem mem_matches_pattern_iff_isPathText : text ∈ pattern.matches' ↔ IsPathText text := by
  rw [pattern, matches'_mul, matches'_star, Language.mem_mul]
  constructor
  · rintro ⟨segment, first, _, ⟨others, rfl, areOthers⟩, rfl⟩
    exact isPathText_append_flatten first areOthers
  · intro isText
    rcases isText.exists_segments with ⟨segments, nonempty, valid, rfl⟩
    cases segments with
    | nil => exact absurd rfl nonempty
    | cons first others =>
        rcases List.forall_mem_cons.mp valid with ⟨isFirst, areOthers⟩
        rw [intercalate_cons_eq_append_flatten]
        refine ⟨first, mem_matches_segmentPattern.mpr isFirst, _, Language.join_mem_kstar ?_, rfl⟩
        intro other member
        rcases List.mem_map.mp member with ⟨segment, isSegment, rfl⟩
        have isMatch := mem_matches_segmentPattern.mpr (areOthers segment isSegment)
        exact Language.append_mem_mul rfl isMatch

/-- Scanning decides the pattern. -/
theorem fits_iff_mem_matches_pattern : fits text ↔ text ∈ pattern.matches' :=
  fits_iff_isPathText.trans mem_matches_pattern_iff_isPathText.symm

end OData.Path
