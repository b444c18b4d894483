import OData.Proofs.Expr.Soundness

/-!
# Running out of budget

Two facts about all readers, whatever they read.

A reader that fails because nothing may be nested any more has spent its whole
budget, and every unit of it on a kind of its own (`Spends`); so it is never
short of budget with as much of it as there are kinds.

A reader with a smaller budget does the same as with a larger one, or fails
for want of nesting before the other run ends (`CutShort`).  Nothing but the
failure depends on the budget, and that failure moves forward as the budget
grows.

As for soundness, each level has these properties if the readers of nested
expressions that it is given have them.
-/

namespace OData.Expr

open Token (Kind)

variable {α β : Type}

/-- The kinds that a run leaves where it ends, with a value or in failure. -/
def remaining : Except Failure (α × List Kind) → List Kind
  | .ok (_, rest) => rest
  | .error failure => failure.rest

/-! ## Spending the budget -/

/-- A run over some kinds ends within them, and for want of nesting only after
as many of them as its budget. -/
structure Spends (budget : Nat) (kinds : List Kind) (outcome : Except Failure (α × List Kind)) :
    Prop where
  remaining_le : (remaining outcome).length ≤ kinds.length
  budget_le : ∀ rest, outcome = .error ⟨.nestedTooDeeply, rest⟩ →
    budget + rest.length ≤ kinds.length

theorem spends_ok (budget : Nat) (value : α) {kinds rest : List Kind}
    (le : rest.length ≤ kinds.length) : Spends budget kinds (.ok (value, rest)) where
  remaining_le := le
  budget_le := fun _ impossible => nomatch impossible

/-- A failure for another reason says nothing about the budget. -/
theorem spends_error (budget : Nat) {failure : Failure} {kinds : List Kind}
    (enough : failure.cause ≠ .nestedTooDeeply) (le : failure.rest.length ≤ kinds.length) :
    Spends budget kinds (.error failure : Except Failure (α × List Kind)) where
  remaining_le := le
  budget_le := by
    rintro rest ⟨⟩
    exact absurd rfl enough

theorem spends_nestedTooDeeply {budget : Nat} {kinds rest : List Kind}
    (le : budget + rest.length ≤ kinds.length) :
    Spends budget kinds (.error ⟨.nestedTooDeeply, rest⟩ : Except Failure (α × List Kind)) where
  remaining_le := Nat.le_trans (Nat.le_add_left _ _) le
  budget_le := by
    rintro _ ⟨⟩
    exact le

/-- Kinds that were read before can pay for more budget. -/
theorem Spends.of_shorter {budget more : Nat} {shorter kinds : List Kind}
    {outcome : Except Failure (α × List Kind)} (spends : Spends budget shorter outcome)
    (skipped : Nat) (lengths : shorter.length + skipped ≤ kinds.length)
    (enough : more ≤ budget + skipped) : Spends more kinds outcome where
  remaining_le := by
    have within := spends.remaining_le
    omega
  budget_le := by
    intro rest failed
    have within := spends.budget_le rest failed
    omega

theorem Spends.bind {budget : Nat} {kinds : List Kind} {first : Except Failure (α × List Kind)}
    {more : α × List Kind → Except Failure (β × List Kind)} (spends : Spends budget kinds first)
    (spendsMore : ∀ value rest, first = .ok (value, rest) → rest.length ≤ kinds.length →
      Spends budget kinds (more (value, rest))) :
    Spends budget kinds (first >>= more) := by
  cases first with
  | ok read => exact spendsMore read.1 read.2 rfl spends.remaining_le
  | error failure =>
      constructor
      · exact spends.remaining_le
      · rintro rest ⟨⟩
        exact spends.budget_le rest rfl

/-- Readers of nested expressions that spend their budget and one kind more. -/
def Below.Spends {budget : Nat} (below : Below budget) : Prop :=
  ∀ smaller lt kinds, Expr.Spends (smaller + 1) kinds (below smaller lt kinds)

/-- A level that spends its budget and one kind more if the readers of nested
expressions do. -/
def Level.Spends (level : Level) : Prop :=
  ∀ budget (below : Below budget), below.Sound → below.Spends → ∀ kinds,
    Expr.Spends (budget + 1) kinds (level budget below kinds)

theorem Below.Spends.lower {budget smaller : Nat} {below : Below budget} (spends : below.Spends)
    (le : smaller ≤ budget) : (below.lower le).Spends :=
  fun smallest lt => spends smallest (Nat.lt_of_lt_of_le lt le)

/-- What was read takes a kind at least. -/
theorem Reads.length_lt {rank : Rank} {budget : Nat} {kinds rest : List Kind} {expr : Expr}
    (reads : Reads rank budget kinds expr rest) : rest.length < kinds.length := by
  rcases reads with ⟨phrase, derives, _, _, rfl⟩
  have nonempty := List.length_pos_iff.mpr derives.kinds_ne_nil
  rw [List.length_append]
  omega

theorem nested_spends {budget : Nat} {below : Below budget} (spends : below.Spends)
    (kinds : List Kind) : Spends budget kinds (nested budget below kinds) := by
  cases budget with
  | zero => exact spends_nestedTooDeeply (Nat.le_of_eq (Nat.zero_add _))
  | succ smaller => exact spends smaller (Nat.lt_succ_self smaller) kinds

theorem closing_spends (budget : Nat) (value : α) (kinds : List Kind) :
    Spends budget kinds (closing value kinds) := by
  unfold closing
  split
  · exact spends_ok budget value (Nat.le_succ _)
  · exact spends_error budget (by rintro ⟨⟩) (Nat.le_refl _)

theorem commaSeparated_spends {budget : Nat} {item : Reader Expr}
    (spends : ∀ kinds, Spends budget kinds (item kinds)) (rounds : Nat) (kinds : List Kind) :
    Spends budget kinds (commaSeparated item rounds kinds) := by
  induction rounds generalizing kinds with
  | zero => exact spends_error budget (by rintro ⟨⟩) (Nat.le_refl _)
  | succ rounds ih =>
      rw [commaSeparated]
      apply (spends kinds).bind
      intro first afterFirst _ within
      dsimp only
      split
      · next afterComma _ =>
          rw [List.length_cons] at within
          apply Spends.bind ((ih afterComma).of_shorter 0 (by omega) (Nat.le_refl _))
          intro others rest _ le
          exact spends_ok budget _ le
      · exact spends_ok budget _ within

theorem arguments_spends {budget : Nat} {below : Below budget} (spends : below.Spends)
    (kinds : List Kind) : Spends budget kinds (arguments budget below kinds) := by
  unfold arguments
  split
  · split
    · next isZero => exact spends_nestedTooDeeply (by omega)
    · exact spends_ok budget _ (Nat.le_refl _)
  · exact commaSeparated_spends (nested_spends spends) _ _

theorem operand_spends : Level.Spends operand := by
  intro budget below _ spends kinds
  unfold operand
  split
  · next afterParen =>
      apply Spends.bind ((nested_spends spends afterParen).of_shorter 1 (Nat.le_refl _)
        (Nat.le_refl _))
      intro inner rest _ within
      exact (closing_spends (budget + 1) inner rest).of_shorter 0 within (Nat.le_refl _)
  · next name afterName =>
      split
      · exact spends_error _ (by rintro ⟨⟩) (Nat.le_refl _)
      · apply Spends.bind ((arguments_spends spends afterName).of_shorter 2 (Nat.le_refl _)
          (Nat.le_succ _))
        intro args rest _ within
        exact (closing_spends (budget + 1) _ rest).of_shorter 0 within (Nat.le_refl _)
  · split
    · exact spends_ok _ _ (Nat.le_succ _)
    · exact spends_error _ (by rintro ⟨⟩) (Nat.le_refl _)
  · exact spends_ok _ _ (Nat.le_succ _)
  · exact spends_error _ (by rintro ⟨⟩) (Nat.le_refl _)
  · exact spends_error _ (by rintro ⟨⟩) (Nat.le_refl _)

theorem prefixed_spends : Level.Spends prefixed := by
  intro budget below sound spends kinds
  induction budget, below, kinds using prefixed.induct with
  | case1 budget below =>
      rw [prefixed]
      exact operand_spends budget below sound spends []
  | case2 kind kinds budget noPrefix below =>
      rw [prefixed.eq_2 kind kinds budget below noPrefix]
      exact operand_spends budget below sound spends _
  | case3 kind kinds op isPrefix below =>
      rw [prefixed.eq_3 kind kinds below op isPrefix]
      exact spends_nestedTooDeeply (by rw [List.length_cons]; omega)
  | case4 kind kinds op budget isPrefix below ih =>
      rw [prefixed.eq_4 kind kinds op budget below isPrefix]
      have ofInner := ih (sound.lower (Nat.le_succ budget)) (spends.lower (Nat.le_succ budget))
      apply Spends.bind (ofInner.of_shorter 1 (Nat.le_refl _) (Nat.le_refl _))
      intro inner rest _ within
      exact spends_ok _ _ within

section Chains

variable {rank operands : Rank} {ops : List BinaryOperator} {level : Level}

theorem folded_spends (spends : level.Spends) {left : Expr} {budget : Nat} {below : Below budget}
    (soundBelow : below.Sound) (spendsBelow : below.Spends) (kinds : List Kind) :
    Spends budget kinds (folded ops level left budget below kinds) := by
  induction left, budget, below, kinds using folded.induct ops with
  | case1 left budget below =>
      rw [folded]
      exact spends_ok _ _ (Nat.le_refl _)
  | case2 left budget kind kinds noOperator below =>
      rw [folded.eq_2 ops level left kind kinds budget below noOperator]
      exact spends_ok _ _ (Nat.le_refl _)
  | case3 left kind kinds op isOperator below =>
      rw [folded.eq_3 ops level left kind kinds below op isOperator]
      exact spends_nestedTooDeeply (Nat.le_of_eq (Nat.zero_add _))
  | case4 left kind kinds op budget isOperator below lowered ih =>
      rw [folded.eq_4 ops level left kind kinds op budget below isOperator]
      have soundLowered : lowered.Sound := soundBelow.lower (Nat.le_succ budget)
      have spendsLowered : lowered.Spends := spendsBelow.lower (Nat.le_succ budget)
      have ofRight := spends budget lowered soundLowered spendsLowered kinds
      apply Spends.bind (ofRight.of_shorter 1 (Nat.le_refl _) (Nat.le_succ _))
      intro right rest readRight _
      have within := ofRight.remaining_le
      rw [readRight] at within
      exact (ih right rest soundLowered spendsLowered).of_shorter 1 (Nat.succ_le_succ within)
        (Nat.le_refl _)

theorem chain_spends (sound : level.Sound operands) (spends : level.Spends) :
    Level.Spends (chain ops level) := by
  intro budget below soundBelow spendsBelow kinds
  rw [chain]
  apply (spends budget below soundBelow spendsBelow kinds).bind
  intro first rest readFirst _
  have shorter := (sound budget below soundBelow readFirst).length_lt
  exact (folded_spends spends soundBelow spendsBelow rest).of_shorter 1 shorter (Nat.le_refl _)

end Chains

theorem compared_spends {level : Level} (spends : level.Spends) :
    Level.Spends (compared level) := by
  intro budget below soundBelow spendsBelow kinds
  have ofLevel := spends budget below soundBelow spendsBelow
  rw [compared]
  apply (ofLevel kinds).bind
  intro left rest _ within
  dsimp only
  split
  · exact spends_ok _ _ (Nat.zero_le _)
  · next kind afterKind _ =>
      split
      · exact spends_ok _ _ within
      · rw [List.length_cons] at within
        apply Spends.bind ((ofLevel afterKind).of_shorter 1 within (Nat.le_succ _))
        intro right rest _ withinRight
        dsimp only
        split
        · exact spends_error _ (by rintro ⟨⟩) withinRight
        · exact spends_ok _ _ withinRight

theorem product_spends : Level.Spends product :=
  chain_spends prefixed_sound prefixed_spends

theorem sum_spends : Level.Spends sum :=
  chain_spends product_sound product_spends

theorem comparison_spends : Level.Spends comparison :=
  compared_spends sum_spends

theorem conjunction_spends : Level.Spends conjunction :=
  chain_spends comparison_sound comparison_spends

theorem disjunction_spends : Level.Spends disjunction :=
  chain_spends conjunction_sound conjunction_spends

theorem expression_spends (budget : Nat) (kinds : List Kind) :
    Spends (budget + 1) kinds (expression budget kinds) := by
  induction budget using Nat.strongRecOn generalizing kinds with
  | ind budget ih =>
      rw [expression_eq]
      exact disjunction_spends budget _ (fun smaller _ => expression_sound smaller)
        (fun smaller lt kinds => ih smaller lt kinds) kinds

/-! ## Runs that are cut short -/

/-- A run over some kinds ends within them, and a shorter run is the same or
fails for want of nesting no later than it ends. -/
structure CutShort (kinds : List Kind) (short long : Except Failure (α × List Kind)) : Prop where
  remaining_le : (remaining long).length ≤ kinds.length
  eq_or_nestedTooDeeply : short = long ∨
    ∃ rest, short = .error ⟨.nestedTooDeeply, rest⟩ ∧ (remaining long).length ≤ rest.length

theorem CutShort.refl {kinds : List Kind} {run : Except Failure (α × List Kind)}
    (within : (remaining run).length ≤ kinds.length) : CutShort kinds run run where
  remaining_le := within
  eq_or_nestedTooDeeply := .inl rfl

theorem cutShort_nestedTooDeeply {kinds rest : List Kind} {long : Except Failure (α × List Kind)}
    (behind : (remaining long).length ≤ rest.length) (le : rest.length ≤ kinds.length) :
    CutShort kinds (.error ⟨.nestedTooDeeply, rest⟩) long where
  remaining_le := Nat.le_trans behind le
  eq_or_nestedTooDeeply := .inr ⟨rest, rfl, behind⟩

theorem CutShort.of_shorter {shorter kinds : List Kind}
    {short long : Except Failure (α × List Kind)} (cut : CutShort shorter short long)
    (le : shorter.length ≤ kinds.length) : CutShort kinds short long where
  remaining_le := Nat.le_trans cut.remaining_le le
  eq_or_nestedTooDeeply := cut.eq_or_nestedTooDeeply

/-- What goes on after a run ends behind the place where that run was cut. -/
theorem CutShort.bind {kinds : List Kind} {short long : Except Failure (α × List Kind)}
    {more more' : α × List Kind → Except Failure (β × List Kind)}
    (cut : CutShort kinds short long)
    (cutMore : ∀ value rest, CutShort rest (more (value, rest)) (more' (value, rest))) :
    CutShort kinds (short >>= more) (long >>= more') := by
  have behind : (remaining (long >>= more')).length ≤ (remaining long).length := by
    cases long with
    | ok read => exact (cutMore read.1 read.2).remaining_le
    | error failure => exact Nat.le_refl _
  constructor
  · exact Nat.le_trans behind cut.remaining_le
  · rcases cut.eq_or_nestedTooDeeply with rfl | ⟨rest, rfl, ahead⟩
    · cases short with
      | ok read => exact (cutMore read.1 read.2).eq_or_nestedTooDeeply
      | error failure => exact .inl rfl
    · exact .inr ⟨rest, rfl, Nat.le_trans behind ahead⟩

/-- Readers of nested expressions that are cut short where others are not. -/
def Below.CutShort {budget budget' : Nat} (below : Below budget) (below' : Below budget') : Prop :=
  ∀ smaller smaller' lt lt', smaller ≤ smaller' → ∀ kinds,
    Expr.CutShort kinds (below smaller lt kinds) (below' smaller' lt' kinds)

/-- A level that only cuts runs short where it has a smaller budget. -/
def Level.CutShort (level : Level) : Prop :=
  ∀ ⦃budget budget'⦄, budget ≤ budget' → ∀ ⦃below : Below budget⦄ ⦃below' : Below budget'⦄,
    below.CutShort below' → below'.Sound → below'.Spends → ∀ kinds,
      Expr.CutShort kinds (level budget below kinds) (level budget' below' kinds)

theorem Below.CutShort.lower {budget budget' smaller smaller' : Nat} {below : Below budget}
    {below' : Below budget'} (cut : below.CutShort below') (le : smaller ≤ budget)
    (le' : smaller' ≤ budget') : (below.lower le).CutShort (below'.lower le') :=
  fun smallest smallest' lt lt' =>
    cut smallest smallest' (Nat.lt_of_lt_of_le lt le) (Nat.lt_of_lt_of_le lt' le')

theorem closing_cutShort (value : α) (kinds : List Kind) :
    CutShort kinds (closing value kinds) (closing value kinds) :=
  .refl (closing_spends 0 value kinds).remaining_le

theorem commaSeparated_cutShort {item item' : Reader Expr}
    (cut : ∀ kinds, CutShort kinds (item kinds) (item' kinds)) (rounds : Nat) (kinds : List Kind) :
    CutShort kinds (commaSeparated item rounds kinds) (commaSeparated item' rounds kinds) := by
  induction rounds generalizing kinds with
  | zero => exact .refl (Nat.le_refl _)
  | succ rounds ih =>
      rw [commaSeparated, commaSeparated]
      apply (cut kinds).bind
      intro first afterFirst
      dsimp only
      split
      · next afterComma =>
          apply ((ih afterComma).of_shorter (Nat.le_succ _)).bind
          intro others rest
          exact .refl (Nat.le_refl _)
      · exact .refl (Nat.le_refl _)

section Readers

variable {budget budget' : Nat} {below : Below budget} {below' : Below budget'}

theorem nested_cutShort (le : budget ≤ budget') (cut : below.CutShort below')
    (spends : below'.Spends) (kinds : List Kind) :
    CutShort kinds (nested budget below kinds) (nested budget' below' kinds) := by
  cases budget with
  | zero => exact cutShort_nestedTooDeeply (nested_spends spends kinds).remaining_le (Nat.le_refl _)
  | succ smaller =>
      cases budget' with
      | zero => cases le
      | succ smaller' => exact cut smaller smaller' _ _ (Nat.le_of_succ_le_succ le) kinds

theorem arguments_cutShort (le : budget ≤ budget') (cut : below.CutShort below')
    (spends : below'.Spends) (kinds : List Kind) :
    CutShort kinds (arguments budget below kinds) (arguments budget' below' kinds) := by
  have within := (arguments_spends spends kinds).remaining_le
  unfold arguments at within ⊢
  split
  · split
    · exact cutShort_nestedTooDeeply within (Nat.le_refl _)
    · rw [if_neg (by omega)]
      exact .refl (Nat.le_refl _)
  · exact commaSeparated_cutShort (nested_cutShort le cut spends) _ _

end Readers

theorem operand_cutShort : Level.CutShort operand := by
  intro budget budget' le below below' cut _ spends kinds
  unfold operand
  split
  · next afterParen =>
      apply CutShort.bind ((nested_cutShort le cut spends afterParen).of_shorter (Nat.le_succ _))
      exact closing_cutShort
  · next name afterName =>
      split
      · exact .refl (Nat.le_refl _)
      · apply CutShort.bind
          ((arguments_cutShort le cut spends afterName).of_shorter (Nat.le_add_right _ 2))
        intro args rest
        exact closing_cutShort _ rest
  · split
    · exact .refl (Nat.le_succ _)
    · exact .refl (Nat.le_refl _)
  · exact .refl (Nat.le_succ _)
  · exact .refl (Nat.le_refl _)
  · exact .refl (Nat.le_refl _)

theorem prefixed_cutShort : Level.CutShort prefixed := by
  intro budget budget' le below below' cut sound spends kinds
  induction budget, below, kinds using prefixed.induct generalizing budget' with
  | case1 budget below =>
      rw [prefixed, prefixed]
      exact operand_cutShort le cut sound spends []
  | case2 kind kinds budget noPrefix below =>
      rw [prefixed.eq_2 kind kinds budget below noPrefix,
        prefixed.eq_2 kind kinds budget' below' noPrefix]
      exact operand_cutShort le cut sound spends _
  | case3 kind kinds op isPrefix below =>
      rw [prefixed.eq_3 kind kinds below op isPrefix]
      cases budget' with
      | zero =>
          rw [prefixed.eq_3 kind kinds below' op isPrefix]
          exact .refl (Nat.le_succ _)
      | succ smaller' =>
          rw [prefixed.eq_4 kind kinds op smaller' below' isPrefix]
          have within := (prefixed_spends smaller' _ (sound.lower (Nat.le_succ smaller'))
            (spends.lower (Nat.le_succ smaller')) kinds).remaining_le
          apply cutShort_nestedTooDeeply _ (Nat.le_succ _)
          generalize prefixed smaller' _ kinds = inner at within
          cases inner with
          | ok read => exact within
          | error failure => exact within
  | case4 kind kinds op budget isPrefix below ih =>
      cases budget' with
      | zero => cases le
      | succ smaller' =>
          rw [prefixed.eq_4 kind kinds op budget below isPrefix,
            prefixed.eq_4 kind kinds op smaller' below' isPrefix]
          have ofInner := ih (Nat.le_of_succ_le_succ le)
            (cut.lower (Nat.le_succ budget) (Nat.le_succ smaller'))
            (sound.lower (Nat.le_succ smaller')) (spends.lower (Nat.le_succ smaller'))
          apply CutShort.bind (ofInner.of_shorter (Nat.le_succ _))
          intro inner rest
          exact .refl (Nat.le_refl _)

section Chains

variable {operands : Rank} {ops : List BinaryOperator} {level : Level}

theorem folded_cutShort (cutLevel : level.CutShort) (spendsLevel : level.Spends) {left : Expr}
    {budget budget' : Nat} (le : budget ≤ budget') {below : Below budget} {below' : Below budget'}
    (cut : below.CutShort below') (sound : below'.Sound) (spends : below'.Spends)
    (kinds : List Kind) :
    CutShort kinds (folded ops level left budget below kinds)
      (folded ops level left budget' below' kinds) := by
  induction left, budget, below, kinds using folded.induct ops generalizing budget' with
  | case1 left budget below =>
      rw [folded, folded]
      exact .refl (Nat.le_refl _)
  | case2 left budget kind kinds noOperator below =>
      rw [folded.eq_2 ops level left kind kinds budget below noOperator,
        folded.eq_2 ops level left kind kinds budget' below' noOperator]
      exact .refl (Nat.le_refl _)
  | case3 left kind kinds op isOperator below =>
      rw [folded.eq_3 ops level left kind kinds below op isOperator]
      exact cutShort_nestedTooDeeply (folded_spends spendsLevel sound spends _).remaining_le
        (Nat.le_refl _)
  | case4 left kind kinds op budget isOperator below lowered =>
      rename_i ih
      cases budget' with
      | zero => cases le
      | succ smaller' =>
          rw [folded.eq_4 ops level left kind kinds op budget below isOperator,
            folded.eq_4 ops level left kind kinds op smaller' below' isOperator]
          have leLower := Nat.le_of_succ_le_succ le
          have cutLower : lowered.CutShort (below'.lower (Nat.le_succ smaller')) :=
            cut.lower (Nat.le_succ budget) (Nat.le_succ smaller')
          have soundLower := sound.lower (Nat.le_succ smaller')
          have spendsLower := spends.lower (Nat.le_succ smaller')
          have ofRight := cutLevel leLower cutLower soundLower spendsLower kinds
          apply (ofRight.of_shorter (Nat.le_succ _)).bind
          intro right rest
          exact ih right rest leLower cutLower soundLower spendsLower

theorem chain_cutShort (cutLevel : level.CutShort) (spendsLevel : level.Spends) :
    Level.CutShort (chain ops level) := by
  intro budget budget' le below below' cut sound spends kinds
  rw [chain, chain]
  apply (cutLevel le cut sound spends kinds).bind
  intro first rest
  exact folded_cutShort cutLevel spendsLevel le cut sound spends rest

end Chains

theorem compared_cutShort {level : Level} (cutLevel : level.CutShort) :
    Level.CutShort (compared level) := by
  intro budget budget' le below below' cut sound spends kinds
  have ofLevel := cutLevel le cut sound spends
  rw [compared, compared]
  apply (ofLevel kinds).bind
  intro left rest
  dsimp only
  split
  · exact .refl (Nat.le_refl _)
  · next kind afterKind =>
      split
      · exact .refl (Nat.le_refl _)
      · apply CutShort.bind ((ofLevel afterKind).of_shorter (Nat.le_succ _))
        intro right rest
        dsimp only
        split
        · exact .refl (Nat.le_refl _)
        · exact .refl (Nat.le_refl _)

theorem disjunction_cutShort : Level.CutShort disjunction :=
  have product : Level.CutShort product := chain_cutShort prefixed_cutShort prefixed_spends
  have sum : Level.CutShort sum := chain_cutShort product product_spends
  have conjunction : Level.CutShort conjunction :=
    chain_cutShort (compared_cutShort sum) comparison_spends
  chain_cutShort conjunction conjunction_spends

/-- A smaller budget only cuts the reading of an expression short. -/
theorem expression_cutShort {budget budget' : Nat} (le : budget ≤ budget') (kinds : List Kind) :
    CutShort kinds (expression budget kinds) (expression budget' kinds) := by
  induction budget' using Nat.strongRecOn generalizing budget kinds with
  | ind budget' ih =>
      rw [expression_eq budget, expression_eq budget']
      apply disjunction_cutShort le
      · intro smaller smaller' _ lt' leSmaller kinds
        exact ih smaller' lt' leSmaller kinds
      · intro smaller _
        exact expression_sound smaller
      · intro smaller _ kinds
        exact expression_spends smaller kinds

end OData.Expr
