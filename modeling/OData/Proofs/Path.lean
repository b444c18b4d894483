import OData.Path

/-!
# Path texts

The texts that are read as paths are those that paths are written as, and a
path is read back from what it is written as.  `IsPathText` describes these
texts from the left to the right, a letter or digit at a time, which is the
form that scanning them needs.
-/

namespace OData

theorem isSegment_iff {text : String} :
    isSegment text ↔ text.toList ≠ [] ∧ ∀ c ∈ text.toList, c.isAlphanum := by
  simp [isSegment]

/-- Letters and digits, with single slashes between them. -/
inductive IsPathText : List Char → Prop
  | single {c : Char} (alphanum : c.isAlphanum) : IsPathText [c]
  | extend {c : Char} {text : List Char} (alphanum : c.isAlphanum) (rest : IsPathText text) :
      IsPathText (c :: text)
  | slash {c : Char} {text : List Char} (alphanum : c.isAlphanum) (rest : IsPathText text) :
      IsPathText (c :: '/' :: text)

theorem not_isAlphanum_slash : ¬ '/'.isAlphanum := by
  decide

namespace IsPathText

theorem tail {c d : Char} {text : List Char} (isText : IsPathText (c :: d :: text))
    (alphanum : d.isAlphanum) : IsPathText (d :: text) := by
  cases isText with
  | extend _ rest => exact rest
  | slash => exact absurd alphanum not_isAlphanum_slash

theorem of_segment {segment : List Char} (nonempty : segment ≠ [])
    (alphanum : ∀ c ∈ segment, c.isAlphanum) : IsPathText segment := by
  induction segment with
  | nil => exact absurd rfl nonempty
  | cons c segment ih =>
      rcases List.forall_mem_cons.mp alphanum with ⟨first, others⟩
      by_cases single : segment = []
      · subst single
        exact .single first
      · exact .extend first (ih single others)

theorem segment_append {segment text : List Char} (nonempty : segment ≠ [])
    (alphanum : ∀ c ∈ segment, c.isAlphanum) (rest : IsPathText text) :
    IsPathText (segment ++ '/' :: text) := by
  induction segment with
  | nil => exact absurd rfl nonempty
  | cons c segment ih =>
      rcases List.forall_mem_cons.mp alphanum with ⟨first, others⟩
      by_cases single : segment = []
      · subst single
        exact .slash first rest
      · exact .extend first (ih single others)

theorem intercalate {segments : List (List Char)} (nonempty : segments ≠ [])
    (valid : ∀ segment ∈ segments, segment ≠ [] ∧ ∀ c ∈ segment, c.isAlphanum) :
    IsPathText (['/'].intercalate segments) := by
  induction segments with
  | nil => exact absurd rfl nonempty
  | cons segment segments ih =>
      rcases List.forall_mem_cons.mp valid with ⟨first, others⟩
      by_cases single : segments = []
      · subst single
        rw [List.intercalate_singleton]
        exact of_segment first.1 first.2
      · rw [List.intercalate_cons_of_ne_nil single, List.append_assoc]
        exact segment_append first.1 first.2 (ih single others)

theorem exists_segments {text : List Char} (isText : IsPathText text) :
    ∃ segments : List (List Char), segments ≠ [] ∧
      (∀ segment ∈ segments, segment ≠ [] ∧ ∀ c ∈ segment, c.isAlphanum) ∧
      ['/'].intercalate segments = text := by
  induction isText with
  | @single c alphanum => exact ⟨[[c]], by simp, by simpa using alphanum, rfl⟩
  | @extend c text alphanum _ ih =>
      rcases ih with ⟨segments, nonempty, valid, rfl⟩
      cases segments with
      | nil => exact absurd rfl nonempty
      | cons segment segments =>
          rcases List.forall_mem_cons.mp valid with ⟨first, others⟩
          refine ⟨(c :: segment) :: segments, List.cons_ne_nil _ _, ?_,
            List.intercalate_cons_cons_left⟩
          refine List.forall_mem_cons.mpr ⟨⟨List.cons_ne_nil c segment, ?_⟩, others⟩
          exact List.forall_mem_cons.mpr ⟨alphanum, first.2⟩
  | @slash c text alphanum _ ih =>
      rcases ih with ⟨segments, nonempty, valid, rfl⟩
      refine ⟨[c] :: segments, List.cons_ne_nil _ _, ?_,
        List.intercalate_cons_of_ne_nil nonempty⟩
      exact List.forall_mem_cons.mpr ⟨by simpa using alphanum, valid⟩

theorem head_isAlphanum {c : Char} {text : List Char} (isText : IsPathText (c :: text)) :
    c.isAlphanum := by
  cases isText with
  | single alphanum => exact alphanum
  | extend alphanum => exact alphanum
  | slash alphanum => exact alphanum

/-- A slash goes on with another path text. -/
theorem after_slash {c : Char} {text : List Char} (isText : IsPathText (c :: '/' :: text)) :
    IsPathText text := by
  cases isText with
  | extend _ rest => exact absurd rest.head_isAlphanum not_isAlphanum_slash
  | slash _ rest => exact rest

/-- A path text has no other characters. -/
theorem isAlphanum_or_slash {text : List Char} (isText : IsPathText text) :
    ∀ c ∈ text, c.isAlphanum ∨ c = '/' := by
  induction isText with
  | single alphanum => exact List.forall_mem_singleton.mpr (.inl alphanum)
  | extend alphanum _ ih => exact List.forall_mem_cons.mpr ⟨.inl alphanum, ih⟩
  | slash alphanum _ ih =>
      exact List.forall_mem_cons.mpr ⟨.inl alphanum, List.forall_mem_cons.mpr ⟨.inr rfl, ih⟩⟩

end IsPathText

namespace Path

variable {text : String} {path : Path}

theorem toList_joined (path : Path) (separator : Char) :
    (path.joined separator).toList = [separator].intercalate (path.segments.map String.toList) := by
  rw [joined, String.toList_ofList]

theorem toList_written (path : Path) :
    path.written.toList = ['/'].intercalate (path.segments.map String.toList) :=
  path.toList_joined '/'

theorem notMem_segment {separator : Char} (notAlphanum : ¬ separator.isAlphanum)
    {segment : String} (member : segment ∈ path.segments) : separator ∉ segment.toList := by
  intro inSegment
  have alphanum := (isSegment_iff.mp (path.isSegment_of_mem segment member)).2
  exact notAlphanum (alphanum separator inSegment)

/-- Splitting undoes joining, for any separator that no segment can have. -/
theorem splitOn_joined (path : Path) {separator : Char} (notAlphanum : ¬ separator.isAlphanum) :
    (path.joined separator).toList.splitOn separator = path.segments.map String.toList := by
  rw [toList_joined]
  apply List.splitOn_intercalate
  · intro segment member
    rcases List.mem_map.mp member with ⟨name, isMember, rfl⟩
    exact notMem_segment notAlphanum isMember
  · simpa using path.segments_ne_nil

theorem map_ofList_toList (names : List String) :
    (names.map String.toList).map String.ofList = names := by
  rw [List.map_map, Function.comp_def]
  simp

/-- Reading a path undoes writing it, and reads nothing else. -/
theorem read?_eq_some_iff : read? text = some path ↔ text = path.written := by
  rw [read?, ofSegments?_eq_some_iff]
  constructor
  · intro segments
    rw [← String.toList_inj, toList_written, segments, List.map_map, Function.comp_def]
    simp only [String.toList_ofList, List.map_id']
    exact (List.intercalate_splitOn '/').symm
  · rintro rfl
    rw [written, splitOn_joined path not_isAlphanum_slash, map_ofList_toList]

theorem read?_written (path : Path) : read? path.written = some path :=
  read?_eq_some_iff.mpr rfl

/-- Paths with one canonical name are the same path. -/
theorem canonical_injective : Function.Injective canonical := by
  intro path other sameName
  have notAlphanum : ¬ '.'.isAlphanum := by decide
  have split := splitOn_joined path notAlphanum
  rw [← canonical, sameName, canonical, splitOn_joined other notAlphanum] at split
  have sameSegments : path.segments = other.segments := by
    rw [← map_ofList_toList path.segments, ← split, map_ofList_toList]
  cases path
  cases other
  cases sameSegments
  rfl

theorem isPathText_written (path : Path) : IsPathText path.written.toList := by
  rw [toList_written]
  apply IsPathText.intercalate
  · simpa using path.segments_ne_nil
  intro segment member
  rcases List.mem_map.mp member with ⟨name, isMember, rfl⟩
  exact isSegment_iff.mp (path.isSegment_of_mem name isMember)

/-- The path texts are what paths are written as. -/
theorem isPathText_iff_exists_read? :
    IsPathText text.toList ↔ ∃ path, read? text = some path := by
  constructor
  · intro isText
    rcases isText.exists_segments with ⟨segments, nonempty, valid, joined⟩
    have segmentsEq : (segments.map String.ofList).map String.toList = segments := by
      rw [List.map_map, Function.comp_def]
      simp
    refine ⟨⟨segments.map String.ofList, by simpa using nonempty, ?_⟩, ?_⟩
    · intro name member
      rcases List.mem_map.mp member with ⟨segment, isMember, rfl⟩
      simpa [isSegment_iff] using valid segment isMember
    · rw [read?_eq_some_iff, ← String.toList_inj, toList_written, segmentsEq, joined]
  · rintro ⟨path, read⟩
    rw [read?_eq_some_iff.mp read]
    exact isPathText_written path

/-! ## The form of paths -/

/-- Scanning goes on behind a letter or digit as the letter or digit makes it a
path text, and before a segment as for a path text of its own. -/
theorem endsFrom_iff_isPathText (text : List Char) :
    (∀ c : Char, c.isAlphanum → (endsFrom true text ↔ IsPathText (c :: text))) ∧
      (endsFrom false text ↔ IsPathText text) := by
  induction text with
  | nil =>
      constructor
      · intro c alphanum
        exact iff_of_true rfl (.single alphanum)
      · exact iff_of_false nofun nofun
  | cons d text ih =>
      rcases ih with ⟨within, before⟩
      by_cases alphanum : d.isAlphanum
      · have next (behind : Bool) : endsFrom behind (d :: text) = endsFrom true text :=
          if_pos alphanum
        constructor
        · intro c isFirst
          rw [next, within d alphanum]
          exact ⟨fun rest => .extend isFirst rest, fun isText => isText.tail alphanum⟩
        · rw [next, within d alphanum]
      · have next (behind : Bool) :
            endsFrom behind (d :: text) = (d == '/' && behind && endsFrom false text) :=
          if_neg alphanum
        constructor
        · intro c isFirst
          rw [next, Bool.and_true, Bool.and_eq_true, beq_iff_eq, before]
          constructor
          · rintro ⟨rfl, rest⟩
            exact .slash isFirst rest
          · intro isText
            have isSlash : d = '/' := by
              have inText := isText.isAlphanum_or_slash d (by simp)
              exact inText.resolve_left alphanum
            subst isSlash
            exact ⟨rfl, isText.after_slash⟩
        · rw [next, Bool.and_false, Bool.false_and]
          exact iff_of_false nofun fun isText => alphanum isText.head_isAlphanum

theorem fits_iff_isPathText {text : List Char} : fits text ↔ IsPathText text :=
  (endsFrom_iff_isPathText text).2

/-- The texts that have the form of a path are those that are read as one. -/
theorem fits_iff_exists_read? : fits text.toList ↔ ∃ path, read? text = some path :=
  fits_iff_isPathText.trans isPathText_iff_exists_read?

end Path

end OData
