import OData.Proofs.Path

/-!
# The two notations of a path

Queries write the segments of a path with slashes between them, a schema knows
the path by the same segments with dots.  Each notation has all there is to the
path: it can be read back from what queries write, no other text is read as it,
and no other path has its name.  The notations differ in nothing but the
separator, of which there is one less than there are segments.
-/

namespace OData.Path

/-! ## Separators -/

section Separators

variable {separator : Char} {segments : List (List Char)}

/-- Another separator in the place of each gives the segments with that
separator, if it stands nowhere else. -/
theorem map_intercalate (absent : ∀ segment ∈ segments, separator ∉ segment) (other : Char) :
    ([separator].intercalate segments).map (fun c => if c = separator then other else c) =
      [other].intercalate segments := by
  induction segments with
  | nil => rfl
  | cons segment segments ih =>
      rcases List.forall_mem_cons.mp absent with ⟨notInFirst, notInOthers⟩
      have fixed : ∀ c ∈ segment, (if c = separator then other else c) = id c := by
        intro c member
        exact if_neg (ne_of_mem_of_not_mem member notInFirst)
      have kept : segment.map (fun c => if c = separator then other else c) = segment := by
        rw [List.map_congr_left fixed, List.map_id]
      by_cases single : segments = []
      · subst single
        rw [List.intercalate_singleton, List.intercalate_singleton, kept]
      · rw [List.intercalate_cons_of_ne_nil single, List.intercalate_cons_of_ne_nil single,
          List.map_append, List.map_append, kept, ih notInOthers]
        simp

/-- A separator that stands nowhere else stands once less than there are
segments. -/
theorem count_intercalate (nonempty : segments ≠ [])
    (absent : ∀ segment ∈ segments, separator ∉ segment) :
    ([separator].intercalate segments).count separator + 1 = segments.length := by
  induction segments with
  | nil => exact absurd rfl nonempty
  | cons segment segments ih =>
      rcases List.forall_mem_cons.mp absent with ⟨notInFirst, notInOthers⟩
      have none : segment.count separator = 0 := List.count_eq_zero.mpr notInFirst
      by_cases single : segments = []
      · subst single
        rw [List.intercalate_singleton, none]
        rfl
      · rw [List.intercalate_cons_of_ne_nil single, List.count_append, List.count_append, none,
          List.count_singleton_self, Nat.zero_add, List.length_cons, ← ih single notInOthers,
          Nat.add_comm 1]

end Separators

/-! ## Notations -/

theorem slash_notMem_segments (path : Path) :
    ∀ segment ∈ path.segments.map String.toList, '/' ∉ segment := by
  intro segment member
  rcases List.mem_map.mp member with ⟨name, isMember, rfl⟩
  exact notMem_segment not_isAlphanum_slash isMember

/-- The canonical name is what queries write, with a dot for every slash. -/
theorem toList_canonical (path : Path) :
    path.canonical.toList = path.written.toList.map fun c => if c = '/' then '.' else c := by
  rw [toList_written, map_intercalate path.slash_notMem_segments, canonical, toList_joined]

/-- A path has one segment more than queries write slashes for it. -/
theorem depth_eq_count_slash (path : Path) :
    path.depth = path.written.toList.count '/' + 1 := by
  have nonempty : path.segments.map String.toList ≠ [] := by simpa using path.segments_ne_nil
  rw [toList_written, count_intercalate nonempty path.slash_notMem_segments, List.length_map]
  rfl

/-- One segment at least, and every segment one or more letters and digits. -/
def AreSegments (segments : List String) : Prop :=
  segments ≠ [] ∧ ∀ segment ∈ segments, segment ≠ "" ∧ ∀ c ∈ segment.toList, c.isAlphanum

/-- A path can be made of segments and of nothing else. -/
theorem exists_ofSegments?_iff {segments : List String} :
    (∃ path, ofSegments? segments = some path) ↔ AreSegments segments := by
  have isSegment_iff_letters (segment : String) :
      isSegment segment = true ↔ segment ≠ "" ∧ ∀ c ∈ segment.toList, c.isAlphanum := by
    simp [isSegment]
  simp only [ofSegments?_eq_some_iff, AreSegments, ← isSegment_iff_letters]
  constructor
  · rintro ⟨path, rfl⟩
    exact ⟨path.segments_ne_nil, path.isSegment_of_mem⟩
  · rintro ⟨nonempty, valid⟩
    exact ⟨⟨segments, nonempty, valid⟩, rfl⟩

/-- A path is read from exactly what it is written as, is made of its own
segments again, and is known by a name that no other path has.  The name is the
text that the path was read from with a dot for every slash. -/
theorem read?_and_ofSegments?_and_canonical :
    (∀ raw path, read? raw = some path ↔ raw = path.written) ∧
      (∀ segments, (∃ path, ofSegments? segments = some path) ↔ AreSegments segments) ∧
      (∀ raw segments path, read? raw = some path ∨ ofSegments? segments = some path →
        AreSegments path.segments ∧ ofSegments? path.segments = some path) ∧
      (∀ raw path, read? raw = some path →
        path.canonical.toList = raw.toList.map (fun c => if c = '/' then '.' else c) ∧
          path.depth = raw.toList.count '/' + 1) ∧
      Function.Injective canonical := by
  refine ⟨fun _ _ => read?_eq_some_iff, fun _ => exists_ofSegments?_iff, ?_, ?_,
    canonical_injective⟩
  · intro _ _ path _
    have made := ofSegments?_segments path
    exact ⟨exists_ofSegments?_iff.mp ⟨path, made⟩, made⟩
  · intro raw path isRead
    rw [read?_eq_some_iff.mp isRead]
    exact ⟨toList_canonical path, depth_eq_count_slash path⟩

theorem read?_and_canonical_three_segments :
    ∃ path, read? "A1/b2/9" = some path ∧ AreSegments path.segments ∧
      ofSegments? path.segments = some path ∧ path.canonical.toList = "A1.b2.9".toList ∧
      path.depth = 3 := by
  rcases read?_and_ofSegments?_and_canonical with ⟨_, _, made, told, _⟩
  have isRead : read? "A1/b2/9" = some ⟨["A1", "b2", "9"], by decide, by decide⟩ := by decide
  rcases made _ [] _ (.inl isRead) with ⟨areSegments, again⟩
  rcases told _ _ isRead with ⟨name, depth⟩
  exact ⟨_, isRead, areSegments, again, name, depth⟩

end OData.Path
