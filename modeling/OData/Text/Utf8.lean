/-!
# UTF-8 bytes of a text

Positions in a text are counted in bytes of its UTF-8 form.  In the other
direction, `decodeLossy` reads any byte sequence as a text: where no character
is encoded, the longest start of a well-formed sequence, or one byte if there
is none, is replaced by one U+FFFD.
-/

namespace OData.Text

/-- The number of bytes of the UTF-8 form of a text. -/
def byteLength : List Char → Nat
  | [] => 0
  | c :: text => c.utf8Size + byteLength text

@[simp]
theorem byteLength_nil : byteLength [] = 0 :=
  rfl

@[simp]
theorem byteLength_cons (c : Char) (text : List Char) :
    byteLength (c :: text) = c.utf8Size + byteLength text :=
  rfl

@[simp]
theorem byteLength_append (left right : List Char) :
    byteLength (left ++ right) = byteLength left + byteLength right := by
  induction left with
  | nil => simp
  | cons c left ih => simp [ih, Nat.add_assoc]

theorem byteLength_pos {text : List Char} (nonempty : text ≠ []) : 0 < byteLength text := by
  cases text with
  | nil => exact absurd rfl nonempty
  | cons c text => exact Nat.add_pos_left c.utf8Size_pos _

/-- The bytes of a string are those of its characters. -/
theorem byteLength_toList (text : String) : byteLength text.toList = text.utf8ByteSize := by
  have ofList : ∀ chars : List Char, byteLength chars = (String.ofList chars).utf8ByteSize := by
    intro chars
    induction chars with
    | nil => rfl
    | cons c chars ih =>
        rw [byteLength_cons, ih, ← List.singleton_append, String.ofList_append,
          String.utf8ByteSize_append, ← String.singleton_eq_ofList, String.utf8ByteSize_singleton]
  rw [ofList, String.ofList_toList]

/-- The bytes of the UTF-8 form of a text. -/
def utf8Bytes (text : List Char) : List UInt8 :=
  text.flatMap String.utf8EncodeChar

/-! ## Reading bytes -/

/-- The character encoded at the front of a byte sequence, if there is one. -/
def firstChar? (bytes : List UInt8) : Option Char :=
  (bytes.take 4).toByteArray.utf8DecodeChar? 0

/-- The ranges in which the bytes after a leading byte have to lie.  A byte
that leads no sequence has none. -/
def continuationRanges (lead : UInt8) : List (UInt8 × UInt8) :=
  if lead < 0xC2 then []
  else if lead < 0xE0 then [(0x80, 0xBF)]
  else if lead = 0xE0 then [(0xA0, 0xBF), (0x80, 0xBF)]
  else if lead = 0xED then [(0x80, 0x9F), (0x80, 0xBF)]
  else if lead < 0xF0 then [(0x80, 0xBF), (0x80, 0xBF)]
  else if lead = 0xF0 then [(0x90, 0xBF), (0x80, 0xBF), (0x80, 0xBF)]
  else if lead < 0xF4 then [(0x80, 0xBF), (0x80, 0xBF), (0x80, 0xBF)]
  else if lead = 0xF4 then [(0x80, 0x8F), (0x80, 0xBF), (0x80, 0xBF)]
  else []

/-- How many bytes in a row lie in the range at their place. -/
def countInRanges : List (UInt8 × UInt8) → List UInt8 → Nat
  | (low, high) :: ranges, byte :: bytes =>
      if low ≤ byte ∧ byte ≤ high then countInRanges ranges bytes + 1 else 0
  | _, _ => 0

/-- Read bytes as UTF-8.  What encodes no character becomes U+FFFD, one for
each longest start of a well-formed sequence. -/
def decodeLossy : List UInt8 → List Char
  | [] => []
  | lead :: bytes =>
      match firstChar? (lead :: bytes) with
      | some c => c :: decodeLossy (bytes.drop (c.utf8Size - 1))
      | none =>
          '\uFFFD' ::
            decodeLossy (bytes.drop (countInRanges (continuationRanges lead) bytes))
  termination_by bytes => bytes.length
  decreasing_by all_goals simp only [List.length_drop, List.length_cons]; omega

/-! ## Reading what was written -/

theorem firstChar?_utf8EncodeChar_append (c : Char) (bytes : List UInt8) :
    firstChar? (String.utf8EncodeChar c ++ bytes) = some c := by
  have width : (String.utf8EncodeChar c).length ≤ 4 := by
    rw [String.length_utf8EncodeChar]
    exact Char.utf8Size_le_four c
  rw [firstChar?, List.take_append, List.take_of_length_le width,
    List.toByteArray_append]
  exact ByteArray.utf8DecodeChar?_utf8EncodeChar_append

/-- Nothing of a text is lost by writing and reading its bytes. -/
theorem decodeLossy_utf8Bytes (text : List Char) : decodeLossy (utf8Bytes text) = text := by
  induction text with
  | nil => simp [utf8Bytes, decodeLossy]
  | cons c text ih =>
      have first := firstChar?_utf8EncodeChar_append c (utf8Bytes text)
      have width := String.length_utf8EncodeChar c
      have positive := Char.utf8Size_pos c
      rw [utf8Bytes, List.flatMap_cons, ← utf8Bytes]
      cases encoded : String.utf8EncodeChar c with
      | nil => simp [encoded] at width; omega
      | cons lead more =>
          rw [encoded, List.cons_append] at first
          rw [encoded, List.length_cons] at width
          rw [List.cons_append, decodeLossy, first]
          simp [← width, ih]

end OData.Text
