import Mathlib.Data.Nat.Find
import OData.Proofs.Expr.Acceptance
import OData.Proofs.Expr.Budget
import OData.Proofs.Token.Places
import OData.Proofs.Token.Refusal

/-!
# The nesting that a source needs

A limit on nesting does one thing to a source: below a threshold it is refused
as nested too deeply, and from the threshold on the limit does not matter.  An
expression has its nesting as its threshold, which the grammar computes from
its parts; siblings need no more than the one that needs most.  A source that
is no expression has a threshold too, from which on it is refused for what is
wrong with it.
-/

namespace OData.Expr

open Token (Kind)
open SyntaxError (Cause)

variable {budget budget' : Nat} {kinds : List Kind}

/-! ## Kinds -/

theorem foldNesting_le_iff {nestings : List Nat} {bound : Nat} :
    foldNesting nestings ≤ bound ↔
      ∀ index nesting, nestings[index]? = some nesting → index + nesting < bound := by
  induction nestings generalizing bound with
  | nil => simp [foldNesting]
  | cons first nestings ih =>
      rw [foldNesting, Nat.succ_le_iff, Nat.max_lt]
      constructor
      · rintro ⟨ofFirst, ofOthers⟩ index nesting found
        cases index with
        | zero =>
            cases found
            rwa [Nat.zero_add]
        | succ index =>
            have bounded := ih.mp (Nat.le_sub_one_of_lt ofOthers) index nesting found
            omega
      · intro bounded
        have ofFirst := bounded 0 first rfl
        rw [Nat.zero_add] at ofFirst
        refine ⟨ofFirst, Nat.lt_of_le_sub_one (Nat.zero_lt_of_lt ofFirst) (ih.mpr ?_)⟩
        intro index nesting found
        have ofOther := bounded (index + 1) nesting found
        omega

/-- The operand after the n-th operator of a chain stands n levels deeper, and
the chain needs what the deepest of its operands needs there. -/
theorem chain_nesting_le_iff {first : Phrase} {others : List (BinaryOperator × Phrase)}
    {bound : Nat} :
    (first.chain others).nesting ≤ bound ↔
      ∀ index operand, (first :: others.map Prod.snd)[index]? = some operand →
        index + operand.nesting ≤ bound := by
  rw [Phrase.chain_nesting, Nat.max_le, foldNesting_le_iff]
  constructor
  · rintro ⟨ofFirst, ofOthers⟩ index operand found
    cases index with
    | zero =>
        cases found
        rwa [Nat.zero_add]
    | succ index =>
        rw [List.getElem?_cons_succ, List.getElem?_map, Option.map_eq_some_iff] at found
        rcases found with ⟨other, found, rfl⟩
        have ofOther := ofOthers index other.2.nesting (by rw [List.getElem?_map, found]; rfl)
        omega
  · intro bounded
    have ofFirst := bounded 0 first rfl
    rw [Nat.zero_add] at ofFirst
    refine ⟨ofFirst, fun index nesting found => ?_⟩
    rw [List.getElem?_map, Option.map_eq_some_iff] at found
    rcases found with ⟨other, found, rfl⟩
    have ofOther := bounded (index + 1) other.2
      (by rw [List.getElem?_cons_succ, List.getElem?_map, found]; rfl)
    omega

theorem ofKinds_eq_nestedTooDeeply_iff {rest : List Kind} :
    ofKinds budget kinds = .error ⟨.nestedTooDeeply, rest⟩ ↔
      expression budget kinds = .error ⟨.nestedTooDeeply, rest⟩ := by
  unfold ofKinds
  cases expression budget kinds with
  | error failure =>
      constructor
      · rintro ⟨⟩
        rfl
      · rintro ⟨⟩
        rfl
  | ok read =>
      rcases read with ⟨expr, _ | ⟨kind, rest⟩⟩
      · constructor <;> intro impossible <;> cases impossible
      · constructor <;> intro impossible <;> cases impossible

/-- A list of kinds that is nested too deeply has more kinds than the budget. -/
theorem lt_length_of_nestedTooDeeply {rest : List Kind}
    (tooDeep : ofKinds budget kinds = .error ⟨.nestedTooDeeply, rest⟩) :
    budget + rest.length < kinds.length := by
  have spent := (expression_spends budget kinds).budget_le rest
    (ofKinds_eq_nestedTooDeeply_iff.mp tooDeep)
  omega

/-- A smaller budget makes no difference, or makes nesting too deep, and then no
further on than a larger budget does. -/
theorem ofKinds_cutShort (le : budget ≤ budget') (kinds : List Kind) :
    ofKinds budget kinds = ofKinds budget' kinds ∨
      ∃ rest, ofKinds budget kinds = .error ⟨.nestedTooDeeply, rest⟩ ∧
        ∀ rest', ofKinds budget' kinds = .error ⟨.nestedTooDeeply, rest'⟩ →
          rest'.length ≤ rest.length := by
  rcases (expression_cutShort le kinds).eq_or_nestedTooDeeply with same | ⟨rest, tooDeep, behind⟩
  · left
    rw [ofKinds, ofKinds, same]
  · right
    refine ⟨rest, ofKinds_eq_nestedTooDeeply_iff.mpr tooDeep, fun rest' tooDeep' => ?_⟩
    rw [ofKinds_eq_nestedTooDeeply_iff.mp tooDeep'] at behind
    exact behind

/-- Where a budget is no longer too small, a larger one changes nothing. -/
theorem ofKinds_eq_of_le (le : budget ≤ budget')
    (enough : ∀ rest, ofKinds budget kinds ≠ .error ⟨.nestedTooDeeply, rest⟩) :
    ofKinds budget' kinds = ofKinds budget kinds := by
  rcases ofKinds_cutShort le kinds with same | ⟨rest, tooDeep, _⟩
  · exact same.symm
  · exact absurd tooDeep (enough rest)

/-- A budget as large as the list of kinds is enough, so there is a least one. -/
theorem exists_least_budget (kinds : List Kind) :
    ∃ threshold ≤ kinds.length,
      (∀ rest, ofKinds threshold kinds ≠ .error ⟨.nestedTooDeeply, rest⟩) ∧
      ∀ budget < threshold, ∃ rest, ofKinds budget kinds = .error ⟨.nestedTooDeeply, rest⟩ := by
  classical
  have whole : ∀ rest, ofKinds kinds.length kinds ≠ .error ⟨.nestedTooDeeply, rest⟩ := by
    intro rest tooDeep
    have tooLong := lt_length_of_nestedTooDeeply tooDeep
    omega
  have exists_enough : ∃ budget, ∀ rest, ofKinds budget kinds ≠ .error ⟨.nestedTooDeeply, rest⟩ :=
    ⟨kinds.length, whole⟩
  refine ⟨Nat.find exists_enough, Nat.find_min' exists_enough whole, Nat.find_spec exists_enough, ?_⟩
  intro budget less
  simpa using Nat.find_min exists_enough less

/-! ## Sources -/

section Sources

variable {source : String} {maxNesting : Nat}

theorem read_of_blank (blank : Text.trim source.toList = []) : read maxNesting source = .ok none :=
  if_pos blank

theorem read_of_tokenize_eq_error {error : SyntaxError}
    (notBlank : Text.trim source.toList ≠ []) (refused : Token.tokenize source = .error error) :
    read maxNesting source = .error error := by
  rw [read, if_neg notBlank, refused]
  rfl

theorem read_of_tokenize_eq_ok {tokens : List Token} (notBlank : Text.trim source.toList ≠ [])
    (tokenized : Token.tokenize source = .ok tokens) :
    read maxNesting source = (ofTokens maxNesting tokens).map some := by
  rw [read, if_neg notBlank, tokenized]
  rfl

/-- The lexer does not count nesting. -/
theorem cause_ne_nestedTooDeeply {error : SyntaxError}
    (refused : Token.tokenize source = .error error) : error.cause ≠ .nestedTooDeeply := by
  intro tooDeep
  have lexical := (Token.sticks_of_tokensFrom refused).part_and_cause.2
  rw [tooDeep] at lexical
  exact lexical

/-- A source is nested too deeply at the token from which on its kinds are. -/
theorem read_eq_nestedTooDeeply_iff {tokens : List Token}
    (notBlank : Text.trim source.toList ≠ []) (tokenized : Token.tokenize source = .ok tokens)
    {offset : Option Nat} :
    read maxNesting source = .error ⟨.filter, offset, .nestedTooDeeply⟩ ↔
      ∃ rest, ofKinds maxNesting (kindsOf tokens) = .error ⟨.nestedTooDeeply, rest⟩ ∧
        tokens[(kindsOf tokens).length - rest.length]?.map Token.start = offset := by
  rw [read_of_tokenize_eq_ok notBlank tokenized, Except.map_eq_error_iff, ofTokens,
    Except.mapError_eq_error_iff]
  constructor
  · rintro ⟨⟨cause, rest⟩, failed, same⟩
    cases same
    exact ⟨rest, failed, rfl⟩
  · rintro ⟨rest, failed, rfl⟩
    exact ⟨_, failed, rfl⟩

/-- From a threshold on, the limit on nesting does not matter to a source; below
it, the source is nested too deeply. -/
structure IsThreshold (source : String) (threshold : Nat) : Prop where
  settled : ∀ maxNesting ≥ threshold, read maxNesting source = read threshold source
  enough : ∀ offset, read threshold source ≠ .error ⟨.filter, offset, .nestedTooDeeply⟩
  tooDeep : ∀ maxNesting < threshold, ∃ offset,
    read maxNesting source = .error ⟨.filter, some offset, .nestedTooDeeply⟩

theorem IsThreshold.unique {threshold threshold' : Nat} (first : IsThreshold source threshold)
    (second : IsThreshold source threshold') : threshold = threshold' := by
  rcases Nat.lt_trichotomy threshold threshold' with less | same | greater
  · rcases second.tooDeep threshold less with ⟨offset, tooDeep⟩
    exact absurd tooDeep (first.enough _)
  · exact same
  · rcases first.tooDeep threshold' greater with ⟨offset, tooDeep⟩
    exact absurd tooDeep (second.enough _)

/-- A source that is read alike under all limits has the threshold zero. -/
theorem isThreshold_zero {outcome : Except SyntaxError (Option Expr)}
    (always : ∀ maxNesting, read maxNesting source = outcome)
    (enough : ∀ offset, outcome ≠ .error ⟨.filter, offset, .nestedTooDeeply⟩) :
    IsThreshold source 0 where
  settled := fun maxNesting _ => (always maxNesting).trans (always 0).symm
  enough := by
    intro offset
    rw [always]
    exact enough offset
  tooDeep := fun maxNesting less => absurd less (Nat.not_lt_zero maxNesting)

theorem isThreshold_of_blank (blank : Text.trim source.toList = []) : IsThreshold source 0 :=
  isThreshold_zero (fun _ => read_of_blank blank) fun _ impossible => nomatch impossible

theorem isThreshold_of_tokenize_eq_error {error : SyntaxError}
    (notBlank : Text.trim source.toList ≠ []) (refused : Token.tokenize source = .error error) :
    IsThreshold source 0 := by
  apply isThreshold_zero fun _ => read_of_tokenize_eq_error notBlank refused
  rintro offset ⟨⟩
  exact cause_ne_nestedTooDeeply refused rfl

/-- The threshold of a source is that of its kinds. -/
theorem isThreshold_of_tokenize_eq_ok {tokens : List Token}
    (notBlank : Text.trim source.toList ≠ []) (tokenized : Token.tokenize source = .ok tokens)
    {threshold : Nat}
    (enough : ∀ rest, ofKinds threshold (kindsOf tokens) ≠ .error ⟨.nestedTooDeeply, rest⟩)
    (tooDeep : ∀ budget < threshold, ∃ rest,
      ofKinds budget (kindsOf tokens) = .error ⟨.nestedTooDeeply, rest⟩) :
    IsThreshold source threshold where
  settled := by
    intro maxNesting le
    rw [read_of_tokenize_eq_ok notBlank tokenized, read_of_tokenize_eq_ok notBlank tokenized,
      ofTokens, ofTokens, ofKinds_eq_of_le le enough]
  enough := by
    intro offset failed
    rcases (read_eq_nestedTooDeeply_iff notBlank tokenized).mp failed with ⟨rest, failed, _⟩
    exact enough rest failed
  tooDeep := by
    intro maxNesting less
    rcases tooDeep maxNesting less with ⟨rest, failed⟩
    have place : (kindsOf tokens).length - rest.length < tokens.length := by
      have lengths := length_eq_of_tokenize tokenized
      omega
    refine ⟨tokens[(kindsOf tokens).length - rest.length].start, ?_⟩
    refine (read_eq_nestedTooDeeply_iff notBlank tokenized).mpr ⟨rest, failed, ?_⟩
    rw [List.getElem?_eq_getElem place]
    rfl

/-- An expression has its nesting as the threshold. -/
theorem isThreshold_of_derives {tokens : List Token} {expr : Expr} {nesting : Nat}
    (tokenized : Token.tokenize source = .ok tokens)
    (derives : Derives .disjunction ⟨kindsOf tokens, expr, nesting⟩) :
    IsThreshold source nesting := by
  have isRead : ofKinds nesting (kindsOf tokens) = .ok expr :=
    ofKinds_eq_ok_iff.mpr ⟨nesting, Nat.le_refl _, derives⟩
  have notBlank : Text.trim source.toList ≠ [] := by
    intro blank
    have readSome := read_eq_ok_some_iff.mpr ⟨tokens, tokenized, nesting, Nat.le_refl _, derives⟩
    rw [read_of_blank blank] at readSome
    cases readSome
  apply isThreshold_of_tokenize_eq_ok notBlank tokenized
  · intro rest failed
    rw [isRead] at failed
    cases failed
  · intro budget less
    rcases ofKinds_cutShort (Nat.le_of_lt less) (kindsOf tokens) with same | ⟨rest, failed, _⟩
    · rcases ofKinds_eq_ok_iff.mp (same.trans isRead) with ⟨nesting', enough, derives'⟩
      have sameNesting := (derives.unique derives').2
      omega
    · exact ⟨rest, failed⟩

section Derived

variable {threshold : Nat} (isThreshold : IsThreshold source threshold) {tokens : List Token}
  (tokenized : Token.tokenize source = .ok tokens)

include isThreshold tokenized

theorem IsThreshold.eq_nesting {expr : Expr} {nesting : Nat}
    (derives : Derives .disjunction ⟨kindsOf tokens, expr, nesting⟩) : threshold = nesting :=
  isThreshold.unique (isThreshold_of_derives tokenized derives)

/-- The threshold of a chain is the largest sum of the place of an operand and
its nesting. -/
theorem IsThreshold.le_iff_of_chain {first : Phrase} {others : List (BinaryOperator × Phrase)}
    (whole : (first.chain others).kinds = kindsOf tokens)
    (derives : Derives .disjunction (first.chain others)) {bound : Nat} :
    threshold ≤ bound ↔
      ∀ index operand, (first :: others.map Prod.snd)[index]? = some operand →
        index + operand.nesting ≤ bound := by
  have derives : Derives .disjunction
      ⟨kindsOf tokens, (first.chain others).expr, (first.chain others).nesting⟩ := whole ▸ derives
  rw [isThreshold.eq_nesting tokenized derives, chain_nesting_le_iff]

end Derived

/-- The place where a source is nested too deeply moves forward as the limit
grows. -/
theorem offset_le_offset {fewer more offset offset' : Nat} (le : fewer ≤ more)
    (failed : read fewer source = .error ⟨.filter, some offset, .nestedTooDeeply⟩)
    (failed' : read more source = .error ⟨.filter, some offset', .nestedTooDeeply⟩) :
    offset ≤ offset' := by
  by_cases blank : Text.trim source.toList = []
  · rw [read_of_blank blank] at failed
    cases failed
  cases tokenized : Token.tokenize source with
  | error error =>
      rw [read_of_tokenize_eq_error blank tokenized] at failed
      cases failed
      exact absurd rfl (cause_ne_nestedTooDeeply tokenized)
  | ok tokens =>
      rcases (read_eq_nestedTooDeeply_iff blank tokenized).mp failed with ⟨rest, tooDeep, place⟩
      rcases (read_eq_nestedTooDeeply_iff blank tokenized).mp failed' with ⟨rest', tooDeep', place'⟩
      have behind : rest'.length ≤ rest.length := by
        rcases ofKinds_cutShort le (kindsOf tokens) with same | ⟨_, tooDeepAgain, behind⟩
        · rw [tooDeep, tooDeep'] at same
          cases same
          exact Nat.le_refl _
        · rw [tooDeep] at tooDeepAgain
          cases tooDeepAgain
          exact behind rest' tooDeep'
      rcases Option.map_eq_some_iff.mp place with ⟨token, isToken, rfl⟩
      rcases Option.map_eq_some_iff.mp place' with ⟨token', isToken', rfl⟩
      rcases List.getElem?_eq_some_iff.mp isToken with ⟨lt, rfl⟩
      rcases List.getElem?_eq_some_iff.mp isToken' with ⟨lt', rfl⟩
      exact Token.start_le_start_of_tokenize tokenized (by omega) lt lt'

/-- Every source has a threshold, below its number of tokens, and zero if it has
none. -/
theorem exists_isThreshold_lt (source : String) :
    ∃ threshold, IsThreshold source threshold ∧
      (∀ tokens, Token.tokenize source = .ok tokens → threshold < tokens.length) ∧
      (∀ error, Token.tokenize source = .error error → threshold = 0) ∧
      (Text.trim source.toList = [] → threshold = 0) := by
  by_cases blank : Text.trim source.toList = []
  · refine ⟨0, isThreshold_of_blank blank, ?_, fun _ _ => rfl, fun _ => rfl⟩
    intro tokens tokenized
    rw [length_eq_of_tokenize tokenized]
    exact Nat.succ_pos _
  cases tokenized : Token.tokenize source with
  | error error =>
      have isThreshold := isThreshold_of_tokenize_eq_error blank tokenized
      refine ⟨0, isThreshold, ?_, fun _ _ => rfl, fun _ => rfl⟩
      rintro _ ⟨⟩
  | ok tokens =>
      rcases exists_least_budget (kindsOf tokens) with ⟨threshold, le, enough, tooDeep⟩
      have isThreshold := isThreshold_of_tokenize_eq_ok blank tokenized enough tooDeep
      refine ⟨threshold, isThreshold, ?_, ?_, fun isBlank => absurd isBlank blank⟩
      · rintro _ ⟨⟩
        rw [length_eq_of_tokenize tokenized]
        exact Nat.lt_succ_of_le le
      · rintro _ ⟨⟩

/-- A limit on nesting only ever makes a source nested too deeply.  Every source
has a threshold, below its number of tokens; from the threshold on it is read
alike or refused alike, and below the threshold it is nested too deeply, at a
place that moves forward as the limit grows.  The threshold of an expression is
its nesting, and that of a chain the largest that its operands need at their
places. -/
theorem exists_isThreshold (source : String) :
    ∃ threshold, IsThreshold source threshold ∧
      (∀ fewer more offset offset', fewer ≤ more →
        read fewer source = .error ⟨.filter, some offset, .nestedTooDeeply⟩ →
        read more source = .error ⟨.filter, some offset', .nestedTooDeeply⟩ →
        offset ≤ offset') ∧
      (∀ tokens, Token.tokenize source = .ok tokens → threshold < tokens.length) ∧
      (∀ error, Token.tokenize source = .error error → threshold = 0) ∧
      (Text.trim source.toList = [] → threshold = 0) ∧
      (∀ tokens expr nesting, Token.tokenize source = .ok tokens →
        Derives .disjunction ⟨kindsOf tokens, expr, nesting⟩ → threshold = nesting) ∧
      ∀ tokens first others, Token.tokenize source = .ok tokens →
        (Phrase.chain first others).kinds = kindsOf tokens →
        Derives .disjunction (first.chain others) →
        ∀ bound, threshold ≤ bound ↔
          ∀ index operand, (first :: others.map Prod.snd)[index]? = some operand →
            index + operand.nesting ≤ bound := by
  rcases exists_isThreshold_lt source with ⟨threshold, isThreshold, below, refused, blank⟩
  refine ⟨threshold, isThreshold, fun _ _ _ _ => offset_le_offset, below, refused, blank, ?_, ?_⟩
  · exact fun tokens expr nesting tokenized => isThreshold.eq_nesting tokenized
  · exact fun tokens first others tokenized whole derives bound =>
      isThreshold.le_iff_of_chain tokenized whole derives

end Sources

end OData.Expr
