/-!
# The last word on a matter

Where a later item overrides an earlier one, a list says of a matter what its
last item on that matter says, and nothing if it has none.  `IsLast` names that
item.  If items are taken one after the other into a state, then what only the
items on the matter change is in the end as the last of them left it.
-/

namespace OData

universe u v w

variable {α : Type u} {σ : Type v} {β : Type w}

/-- Whether an item is the last in a list of which something holds. -/
def IsLast (holds : α → Prop) (items : List α) (item : α) : Prop :=
  ∃ before after, items = before ++ item :: after ∧ holds item ∧ ∀ later ∈ after, ¬ holds later

variable {relevant : α → Prop} {items : List α} {item : α}

theorem IsLast.mem (last : IsLast relevant items item) : item ∈ items := by
  rcases last with ⟨before, after, rfl, _, _⟩
  exact List.mem_append_right before List.mem_cons_self

theorem IsLast.holds (last : IsLast relevant items item) : relevant item := by
  rcases last with ⟨_, _, _, isRelevant, _⟩
  exact isRelevant

theorem IsLast.of_append_eq {before after more : List α} {other : α}
    (others : ∀ later ∈ after, ¬ relevant later) (isRelevant : relevant other)
    (same : item :: after = more ++ other :: before) : item = other := by
  cases more with
  | nil => exact (List.cons.inj same).1
  | cons first more =>
      have member : other ∈ after := by simp [(List.cons.inj same).2]
      exact absurd isRelevant (others other member)

/-- There is only one last item. -/
theorem IsLast.unique {other : α} (last : IsLast relevant items item)
    (otherLast : IsLast relevant items other) : item = other := by
  rcases last with ⟨before, after, rfl, isRelevant, others⟩
  rcases otherLast with ⟨otherBefore, otherAfter, same, otherRelevant, otherOthers⟩
  rcases List.append_eq_append_iff.mp same with ⟨more, _, rest⟩ | ⟨more, _, rest⟩
  · exact IsLast.of_append_eq others otherRelevant rest
  · exact (IsLast.of_append_eq otherOthers isRelevant rest).symm

/-- What holds of some item has a last item of which it holds. -/
theorem exists_isLast_of_mem (member : item ∈ items) (isRelevant : relevant item) :
    ∃ last, IsLast relevant items last := by
  induction items generalizing item with
  | nil => cases member
  | cons first items ih =>
      -- The given item need not be the last, so the cases are on what comes later.
      by_cases further : ∃ later ∈ items, relevant later
      · rcases further with ⟨later, isLater, laterRelevant⟩
        rcases ih isLater laterRelevant with ⟨last, before, after, rfl, lastRelevant, others⟩
        exact ⟨last, first :: before, after, rfl, lastRelevant, others⟩
      · have others : ∀ later ∈ items, ¬ relevant later :=
          fun later isLater laterRelevant => further ⟨later, isLater, laterRelevant⟩
        rcases List.mem_cons.mp member with rfl | isLater
        · exact ⟨item, [], items, rfl, isRelevant, others⟩
        · exact absurd isRelevant (others item isLater)

section Folding

variable {step : σ → α → σ} (view : σ → β)

/-- Items on other matters leave a view of the state as it was. -/
theorem view_foldl_of_forall_not
    (keeps : ∀ state item, ¬ relevant item → view (step state item) = view state)
    (others : ∀ item ∈ items, ¬ relevant item) (state : σ) :
    view (items.foldl step state) = view state := by
  induction items generalizing state with
  | nil => rfl
  | cons first items ih =>
      rcases List.forall_mem_cons.mp others with ⟨notFirst, notLater⟩
      rw [List.foldl_cons, ih notLater, keeps state first notFirst]

/-- The last item on a matter decides the view of the state. -/
theorem view_foldl_of_isLast
    (keeps : ∀ state item, ¬ relevant item → view (step state item) = view state) {value : β}
    (sets : ∀ state, view (step state item) = value) (last : IsLast relevant items item)
    (state : σ) : view (items.foldl step state) = value := by
  rcases last with ⟨before, after, rfl, _, others⟩
  rw [List.foldl_append, List.foldl_cons, view_foldl_of_forall_not view keeps others, sets]

end Folding

end OData
