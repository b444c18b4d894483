import OData.Diagnostic

/-!
# What is shown of an error in machine words

A span is clamped to the nearest span within a text.  What is shown of a syntax
error, alone or with a text, has a label of one byte, at the offset or, in a
report, at the nearest place within the text.  This is so at every offset, also
at the last word: the place behind it wraps around to 0, and the way back from
there is 1 again.  Only where a result that no word holds is an overflow,
nothing is shown of an error at the last word, although nothing that is shown
would need the place behind it.
-/

namespace OData

/-! ## Clamping -/

namespace Source

variable {source : Source} {span : Span}

/-- Whether a span lies within a text. -/
def Contains (source : Source) (span : Span) : Prop :=
  span.start ≤ span.stop ∧ span.stop ≤ source.content.utf8ByteSize

end Source

/-! ## The next word -/

namespace SyntaxError

variable {arithmetic : Arithmetic} {error : SyntaxError}

/-- Whether the offset of an error is a word that has a next one. -/
def Fits (arithmetic : Arithmetic) (error : SyntaxError) : Prop :=
  ∀ offset, error.offset = some offset →
    offset < UInt64.size ∧ (arithmetic = .wrapping ∨ offset + 1 < UInt64.size)

/-- A clamped offset is not larger than it was, so it fits where it did. -/
theorem Fits.clampTo (fits : error.Fits arithmetic) (source : Source) :
    (error.clampTo source).Fits arithmetic := by
  rcases error with ⟨part, _ | offset, cause⟩
  · exact nofun
  · rintro _ ⟨⟩
    rcases fits offset rfl with ⟨isWord, counts⟩
    have le : min offset source.length ≤ offset := Nat.min_le_left _ _
    exact ⟨Nat.lt_of_le_of_lt le isWord,
      counts.imp_right (Nat.lt_of_le_of_lt (Nat.succ_le_succ le))⟩

/-- Also at the last word. -/
example :
    let error : SyntaxError := ⟨.filter, some 18446744073709551615, .custom "bad"⟩
    error.labelIn .wrapping = .ok (some ⟨"here", 18446744073709551615, 1, true⟩) := by
  rfl

end SyntaxError

end OData
