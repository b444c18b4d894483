/-!
# Property paths

A path names a property by the way that leads to it: segments of ASCII letters
and digits, at least one.  Queries write a path with slashes; its canonical
name, under which a schema knows it, has dots.
-/

namespace OData

/-- Segments are nonempty and hold ASCII letters and digits only. -/
def isSegment (text : String) : Bool :=
  text ≠ "" && text.toList.all Char.isAlphanum

/-- The way to a property. -/
structure Path where
  segments : List String
  segments_ne_nil : segments ≠ []
  isSegment_of_mem : ∀ segment ∈ segments, isSegment segment = true
deriving DecidableEq

namespace Path

/-- The path with these segments, if they make one. -/
def ofSegments? (segments : List String) : Option Path :=
  if valid : segments ≠ [] ∧ ∀ segment ∈ segments, isSegment segment = true then
    some ⟨segments, valid.1, valid.2⟩
  else
    none

/-- Read a path as queries write it, with slashes between its segments. -/
def read? (text : String) : Option Path :=
  ofSegments? ((text.toList.splitOn '/').map String.ofList)

/-- Whether a text is the rest of a path.  The path can end, or go on with a
slash, only right behind a segment. -/
def endsFrom (behindSegment : Bool) : List Char → Bool
  | [] => behindSegment
  | c :: text =>
      if c.isAlphanum then
        endsFrom true text
      else
        c == '/' && behindSegment && endsFrom false text

/-- Whether a text has the form of a path as queries write it. -/
def fits (text : List Char) : Bool :=
  endsFrom false text

/-- The segments with a separator between any two. -/
def joined (path : Path) (separator : Char) : String :=
  String.ofList ([separator].intercalate (path.segments.map String.toList))

/-- The name of a property in a schema, with dots. -/
def canonical (path : Path) : String :=
  path.joined '.'

/-- The path as queries write it, with slashes. -/
def written (path : Path) : String :=
  path.joined '/'

/-- The number of segments. -/
def depth (path : Path) : Nat :=
  path.segments.length

instance : ToString Path :=
  ⟨canonical⟩

@[simp]
theorem ofSegments?_segments (path : Path) : ofSegments? path.segments = some path :=
  dif_pos ⟨path.segments_ne_nil, path.isSegment_of_mem⟩

theorem ofSegments?_eq_some_iff {segments : List String} {path : Path} :
    ofSegments? segments = some path ↔ path.segments = segments := by
  constructor
  · intro built
    unfold ofSegments? at built
    split at built
    · cases built
      rfl
    · cases built
  · rintro rfl
    exact ofSegments?_segments path

end Path

end OData
