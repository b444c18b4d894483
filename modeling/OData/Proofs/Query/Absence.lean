import OData.Proofs.Expr.Threshold
import OData.Proofs.Query.Number

/-!
# Options that say nothing

An option is absent from a query that was read exactly if its text says
nothing: a filter or a number with nothing but blanks, a list with nothing but
blanks and commas.  No text that says anything is read and then dropped, and no
text that says nothing is refused.
-/

namespace OData.Query

open Text

/-- Whether the text of an option has nothing in it to read. -/
def SaysNothing : Part → String → Prop
  | .filter, text | .top, text | .skip, text => ∀ c ∈ text.toList, isBlank c
  | .orderBy, text | .select, text | .expand, text => ∀ c ∈ text.toList, isBlank c ∨ c = ','

/-- Whether an option is absent from a query. -/
def IsAbsent (query : Query) : Part → Prop
  | .filter => query.filter = none
  | .orderBy => query.orderBy = []
  | .top => query.top = none
  | .skip => query.skip = none
  | .select => query.select = []
  | .expand => query.expand = []

theorem isEmpty_iff_forall_isAbsent {query : Query} :
    query.isEmpty ↔ ∀ part, query.IsAbsent part := by
  rw [isEmpty_iff]
  constructor
  · rintro rfl part
    cases part <;> rfl
  · intro absent
    rcases query with ⟨filter, orderBy, top, skip, select, expand⟩
    cases absent .filter
    cases absent .orderBy
    cases absent .top
    cases absent .skip
    cases absent .select
    cases absent .expand
    rfl

variable {maxNesting : Nat} {raw : String}

/-! ## Filters and numbers -/

/-- There is no filter exactly if there is nothing but blanks: tokens are read
as some filter or not at all. -/
theorem readFilter_eq_ok_none_iff :
    Expr.read maxNesting raw = .ok none ↔ ∀ c ∈ raw.toList, isBlank c := by
  rw [← trim_eq_nil_iff]
  constructor
  · intro absent
    by_contra notBlank
    rw [Expr.read, if_neg notBlank, Except.bind_eq_ok_iff] at absent
    rcases absent with ⟨tokens, _, impossible⟩
    rcases Except.map_eq_ok_iff.mp impossible with ⟨_, _, ⟨⟩⟩
  · exact Expr.read_of_blank

theorem readTop_eq_ok_none_iff : readTop raw = .ok none ↔ ∀ c ∈ raw.toList, isBlank c := by
  rw [← readNumber_eq_ok_none_iff, readTop, Except.bind_eq_ok_iff]
  constructor
  · rintro ⟨top, isNumber, absent⟩
    split at absent
    · cases absent
    · cases absent
      exact isNumber
  · intro isNumber
    exact ⟨none, isNumber, rfl⟩

/-! ## Lists -/

/-- The pieces between commas have all characters but the commas. -/
theorem forall_splitOn_blank_iff {text : List Char} :
    (∀ piece ∈ text.splitOn ',', ∀ c ∈ piece, isBlank c) ↔ ∀ c ∈ text, isBlank c ∨ c = ',' := by
  induction text with
  | nil => simp
  | cons c text ih =>
      rw [List.splitOn_cons_eq_if_modifyHead, List.forall_mem_cons, ← ih]
      by_cases isComma : c = ','
      · simp [isComma]
      · cases pieces : text.splitOn ',' with
        | nil => exact absurd pieces (List.splitOn_ne_nil _ _)
        | cons piece pieces => simp [isComma, and_assoc]

/-- A list has no segments exactly if it has nothing but blanks and commas. -/
theorem segments_eq_nil_iff : segments raw = [] ↔ ∀ c ∈ raw.toList, isBlank c ∨ c = ',' := by
  rw [segments, List.filter_eq_nil_iff, List.forall_mem_map, ← forall_splitOn_blank_iff]
  simp only [← trim_eq_nil_iff, ne_eq, decide_not, Bool.not_eq_true', decide_eq_false_iff_not,
    not_not]

/-- A list is read as no terms exactly if it has no segments, whatever its
terms are read as. -/
theorem mapM_terms_eq_ok_nil_iff {α : Type} {step : Term → Except SyntaxError α} :
    (terms raw).mapM step = .ok [] ↔ ∀ c ∈ raw.toList, isBlank c ∨ c = ',' := by
  rw [Except.mapM_eq_ok_iff, List.forall₂_nil_right_iff, ← segments_eq_nil_iff, ← terms_texts,
    List.map_eq_nil_iff]

/-! ## Whole queries -/

variable {options : Options}

/-- An option of a query that was read is absent exactly if its text says
nothing. -/
theorem Holds.isAbsent_iff {query : Query} (holds : Holds maxNesting options query) (part : Part) :
    query.IsAbsent part ↔ SaysNothing part (options.get part) := by
  cases part with
  | filter =>
      rw [IsAbsent, ← Except.ok.injEq, ← holds.filter]
      exact readFilter_eq_ok_none_iff
  | orderBy =>
      rw [IsAbsent, ← Except.ok.injEq, ← holds.orderBy]
      exact mapM_terms_eq_ok_nil_iff
  | top =>
      rw [IsAbsent, ← Except.ok.injEq, ← holds.top]
      exact readTop_eq_ok_none_iff
  | skip =>
      rw [IsAbsent, ← Except.ok.injEq, ← holds.skip]
      exact readNumber_eq_ok_none_iff
  | select =>
      rw [IsAbsent, ← Except.ok.injEq, ← holds.select]
      exact mapM_terms_eq_ok_nil_iff
  | expand =>
      rw [IsAbsent, ← Except.ok.injEq, ← holds.expand]
      exact mapM_terms_eq_ok_nil_iff

/-- Options that say nothing are read as the query without any. -/
theorem holds_empty (sayNothing : ∀ part, SaysNothing part (options.get part)) :
    Holds maxNesting options empty where
  filter := readFilter_eq_ok_none_iff.mpr (sayNothing .filter)
  orderBy := mapM_terms_eq_ok_nil_iff.mpr (sayNothing .orderBy)
  top := readTop_eq_ok_none_iff.mpr (sayNothing .top)
  skip := readNumber_eq_ok_none_iff.mpr (sayNothing .skip)
  select := mapM_terms_eq_ok_nil_iff.mpr (sayNothing .select)
  expand := mapM_terms_eq_ok_nil_iff.mpr (sayNothing .expand)

/-- A query is read and empty exactly if the texts of all options say nothing.
Of any query that was read, an option is absent exactly if its own text says
nothing, whatever the others say. -/
theorem read_isEmpty_iff_and_isAbsent_iff (maxNesting : Nat) (options : Options) :
    ((∃ query, (read maxNesting options).outcome = .ok query ∧ query.isEmpty) ↔
      ∀ part, SaysNothing part (options.get part)) ∧
    ∀ query, (read maxNesting options).outcome = .ok query →
      ∀ part, query.IsAbsent part ↔ SaysNothing part (options.get part) := by
  have absent_iff (query : Query) (isRead : (read maxNesting options).outcome = .ok query) :
      ∀ part, query.IsAbsent part ↔ SaysNothing part (options.get part) :=
    (read_eq_ok_iff.mp isRead).isAbsent_iff
  refine ⟨?_, absent_iff⟩
  constructor
  · rintro ⟨query, isRead, isEmpty⟩ part
    exact (absent_iff query isRead part).mp (isEmpty_iff_forall_isAbsent.mp isEmpty part)
  · intro sayNothing
    exact ⟨empty, read_eq_ok_iff.mpr (holds_empty sayNothing), isEmpty_empty⟩

theorem read_isAbsent_beside_star_and_number :
    let options : Options :=
      { filter := "\u2003", orderBy := " ,\u3000,", top := "5", select := ",*" }
    let query : Query := ⟨none, [], some 5, none, [.wildcard], []⟩
    (read 0 options).outcome = .ok query ∧ SaysNothing .filter options.filter ∧
      SaysNothing .orderBy options.orderBy ∧ ¬ SaysNothing .top options.top ∧
      SaysNothing .skip options.skip ∧ ¬ SaysNothing .select options.select := by
  intro options query
  have filter : Expr.read 0 "\u2003" = .ok none := Expr.read_of_blank (by decide)
  have isRead : (read 0 options).outcome = .ok query :=
    read_eq_ok_iff.mpr ⟨filter, by decide, by decide, by decide, by decide, by decide⟩
  have absent_iff := (read_isEmpty_iff_and_isAbsent_iff 0 options).2 query isRead
  have top : ¬ query.IsAbsent .top := by rintro ⟨⟩
  have select : ¬ query.IsAbsent .select := by rintro ⟨⟩
  exact ⟨isRead, (absent_iff .filter).mp rfl, (absent_iff .orderBy).mp rfl,
    fun nothing => top ((absent_iff .top).mpr nothing), (absent_iff .skip).mp rfl,
    fun nothing => select ((absent_iff .select).mpr nothing)⟩

end OData.Query
