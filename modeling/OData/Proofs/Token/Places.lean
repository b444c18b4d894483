import OData.Proofs.Token.Cutting

/-!
# Where tokens stand

The tokens of a source stand in their order: each starts where the one before
it stops, or later.  So a token further back in the list is further back in
the source, which is how offsets of errors compare.
-/

namespace OData.Token

open Text

variable {start : Nat} {afterOperand : Bool} {text : List Char} {tokens : List Token}

/-- No token stands before its text. -/
theorem Cuts.le_start (cuts : Cuts start afterOperand text tokens) :
    ∀ token ∈ tokens, start ≤ token.start := by
  induction cuts with
  | done =>
      rw [List.forall_mem_singleton]
      exact Nat.le_add_right _ _
  | token _ _ _ _ ih =>
      rw [List.forall_mem_cons]
      refine ⟨Nat.le_add_right _ _, fun token member => ?_⟩
      have behind := ih token member
      omega

theorem Cuts.stop_eq (cuts : Cuts start afterOperand text tokens) :
    ∀ token ∈ tokens, token.stop = token.start + byteLength token.text.toList := by
  induction cuts with
  | done =>
      rw [List.forall_mem_singleton]
      rfl
  | token _ _ _ _ ih =>
      refine List.forall_mem_cons.mpr ⟨?_, ih⟩
      rw [String.toList_ofList]

/-- A token with others behind it is not empty, and they start where it has
stopped. -/
theorem Cuts.pairwise_apart (cuts : Cuts start afterOperand text tokens) :
    tokens.Pairwise fun earlier later =>
      earlier.start < earlier.stop ∧ earlier.stop ≤ later.start := by
  induction cuts with
  | done => exact List.pairwise_singleton _ _
  | token _ _ read rest ih =>
      have positive := byteLength_pos (text_ne_nil_of_readToken read)
      refine List.pairwise_cons.mpr ⟨fun later member => ⟨?_, rest.le_start later member⟩, ih⟩
      exact Nat.lt_add_of_pos_right positive

/-- Tokens start in the order in which they are listed. -/
theorem start_lt_start_of_tokenize {source : String} (tokenized : tokenize source = .ok tokens)
    {first second : Nat} (lt : first < second) (ltFirst : first < tokens.length)
    (ltSecond : second < tokens.length) : tokens[first].start < tokens[second].start := by
  have cuts := tokensFrom_eq_ok_iff.mp tokenized
  have apart := List.pairwise_iff_getElem.mp cuts.pairwise_apart first second ltFirst ltSecond lt
  exact Nat.lt_of_lt_of_le apart.1 apart.2

theorem start_le_start_of_tokenize {source : String} (tokenized : tokenize source = .ok tokens)
    {first second : Nat} (le : first ≤ second) (ltFirst : first < tokens.length)
    (ltSecond : second < tokens.length) : tokens[first].start ≤ tokens[second].start := by
  rcases Nat.eq_or_lt_of_le le with rfl | before
  · exact Nat.le_refl _
  · exact Nat.le_of_lt (start_lt_start_of_tokenize tokenized before ltFirst ltSecond)

end OData.Token
