import Mathlib.Data.List.Forall2
import OData.Form
import OData.Proofs.Characters

/-!
# Reading what was form-encoded

A byte of a text can be written in several ways: a letter or a digit as itself,
a space as a plus, and every byte as a percent sign with its two hexadecimal
digits, each in either case.  Whichever way is taken for each byte, keys and
values have no ampersand and no equals sign of their own, and decoding finds
the pairs that were encoded.
-/

namespace OData.Form

/-- Whether a character is the hexadecimal digit of a value, in either case. -/
def IsHexDigit (value : Nat) (c : Char) : Prop :=
  c = value.digitChar ∨ c = value.digitChar.toUpper

/-- The ways to write the bytes of a text. -/
inductive EncodesBytes : List UInt8 → List Char → Prop
  | nil : EncodesBytes [] []
  | plain {byte : UInt8} {raw : List UInt8} {c : Char} {text : List Char}
      (alphanum : c.isAlphanum) (same : c.toNat = byte.toNat) (rest : EncodesBytes raw text) :
      EncodesBytes (byte :: raw) (c :: text)
  | escaped {byte : UInt8} {raw : List UInt8} {high low : Char} {text : List Char}
      (isHigh : IsHexDigit (byte.toNat / 16) high) (isLow : IsHexDigit (byte.toNat % 16) low)
      (rest : EncodesBytes raw text) :
      EncodesBytes (byte :: raw) ('%' :: high :: low :: text)
  | space {raw : List UInt8} {text : List Char} (rest : EncodesBytes raw text) :
      EncodesBytes (0x20 :: raw) ('+' :: text)

/-- The ways to write a key or a value. -/
def EncodesText (value : String) (text : List Char) : Prop :=
  EncodesBytes (Text.utf8Bytes value.toList) text

/-- The ways to write a pair. -/
def EncodesPair (pair : String × String) (text : List Char) : Prop :=
  ∃ key value, EncodesText pair.1 key ∧ EncodesText pair.2 value ∧ text = key ++ '=' :: value

/-- The ways to write the pairs of a form. -/
def Encodes (pairs : List (String × String)) (text : List Char) : Prop :=
  ∃ pieces, List.Forall₂ EncodesPair pairs pieces ∧ text = ['&'].intercalate pieces

/-- The characters in which keys and values are written. -/
def IsTextChar (c : Char) : Prop :=
  c.isAlphanum ∨ c = '%' ∨ c = '+'

instance : DecidablePred IsTextChar :=
  fun c => inferInstanceAs (Decidable (c.isAlphanum ∨ c = '%' ∨ c = '+'))

/-! ## Bytes -/

/-- A hexadecimal digit is read as its value and is a letter or a digit. -/
theorem IsHexDigit.read {value : Nat} {c : Char} (isDigit : IsHexDigit value c)
    (small : value < 16) : hexDigit? c = some value ∧ c.isAlphanum := by
  have lower : ∀ value < 16, hexDigit? value.digitChar = some value ∧
      value.digitChar.isAlphanum := by decide
  have upper : ∀ value < 16, hexDigit? value.digitChar.toUpper = some value ∧
      value.digitChar.toUpper.isAlphanum := by decide
  rcases isDigit with rfl | rfl
  · exact lower value small
  · exact upper value small

theorem digits_lt (byte : UInt8) : byte.toNat / 16 < 16 ∧ byte.toNat % 16 < 16 := by
  have small := byte.toNat_lt
  omega

theorem ne_plus_and_ne_percent_of_isAlphanum {c : Char} (alphanum : c.isAlphanum) :
    c ≠ '+' ∧ c ≠ '%' := by
  refine ⟨?_, ?_⟩ <;> (rintro rfl; exact absurd alphanum (by decide))

/-- A letter or a digit is one byte of UTF-8. -/
theorem utf8EncodeChar_of_isAlphanum {byte : UInt8} {c : Char} (alphanum : c.isAlphanum)
    (same : c.toNat = byte.toNat) : String.utf8EncodeChar c = [byte] := by
  change c.val.toNat = byte.toNat at same
  have ascii : byte.toNat ≤ 127 := by
    rw [Text.isAlphanum_iff_toNat, ← Char.toNat_val, same] at alphanum
    omega
  simp only [String.utf8EncodeChar, same, if_pos ascii, UInt8.ofNat_toNat]

variable {raw : List UInt8} {text : List Char}

/-- Reading finds the bytes, whichever way each was written. -/
theorem bytes_of_encodesBytes (encodes : EncodesBytes raw text) : bytes text = raw := by
  induction encodes with
  | nil => rfl
  | plain alphanum same rest ih =>
      -- Reading takes a character as itself only after plus and percent are ruled out.
      rcases ne_plus_and_ne_percent_of_isAlphanum alphanum with ⟨notPlus, notPercent⟩
      rw [bytes, utf8EncodeChar_of_isAlphanum alphanum same, ih, List.singleton_append]
      · exact notPlus
      · exact fun _ _ _ isPercent _ => notPercent isPercent
  | @escaped byte raw high low text isHigh isLow rest ih =>
      rcases digits_lt byte with ⟨highLt, lowLt⟩
      rw [bytes, (isHigh.read highLt).1, (isLow.read lowLt).1]
      simp only [Nat.div_add_mod, UInt8.ofNat_toNat, ih]
  | space rest ih => rw [bytes, ih]

theorem isTextChar_of_encodesBytes (encodes : EncodesBytes raw text) :
    ∀ c ∈ text, IsTextChar c := by
  induction encodes with
  | nil => simp
  | plain alphanum same rest ih => exact List.forall_mem_cons.mpr ⟨.inl alphanum, ih⟩
  | @escaped byte raw high low text isHigh isLow rest ih =>
      rcases digits_lt byte with ⟨highLt, lowLt⟩
      have highChar : IsTextChar high := .inl (isHigh.read highLt).2
      have lowChar : IsTextChar low := .inl (isLow.read lowLt).2
      have percent : IsTextChar '%' := .inr (.inl rfl)
      simpa [highChar, lowChar, percent] using ih
  | space rest ih => exact List.forall_mem_cons.mpr ⟨.inr (.inr rfl), ih⟩

/-! ## Keys and values -/

theorem notMem_of_encodesText {value : String} (encodes : EncodesText value text) {c : Char}
    (other : ¬ IsTextChar c) : c ∉ text :=
  fun member => other (isTextChar_of_encodesBytes encodes c member)

/-- Nothing of a key or a value is lost by writing and decoding it. -/
theorem decodeText_of_encodesText {value : String} (encodes : EncodesText value text) :
    decodeText text = value := by
  rw [decodeText, bytes_of_encodesBytes encodes, Text.decodeLossy_utf8Bytes,
    String.ofList_toList]

/-! ## Pairs -/

variable {pair : String × String} {pairs : List (String × String)}

theorem decodePair_of_encodesPair (encodes : EncodesPair pair text) : decodePair text = pair := by
  rcases encodes with ⟨key, value, isKey, isValue, rfl⟩
  have noEquals : ∀ c ∈ key, decide (c ≠ '=') = true := by
    intro c member
    rw [decide_eq_true_eq]
    rintro rfl
    exact notMem_of_encodesText isKey (by decide) member
  rw [decodePair, List.takeWhile_append_of_pos noEquals, List.dropWhile_append_of_pos noEquals]
  simp [decodeText_of_encodesText isKey, decodeText_of_encodesText isValue]

theorem notMem_of_encodesPair (encodes : EncodesPair pair text) {c : Char}
    (other : ¬ IsTextChar c) (notEquals : c ≠ '=') : c ∉ text := by
  rcases encodes with ⟨key, value, isKey, isValue, rfl⟩
  simp [notMem_of_encodesText isKey other, notMem_of_encodesText isValue other, notEquals]

theorem ne_nil_of_encodesPair (encodes : EncodesPair pair text) : text ≠ [] := by
  rcases encodes with ⟨key, value, _, _, rfl⟩
  simp

/-- What holds of every written pair holds of all pieces. -/
theorem forall_mem_of_forall₂ {pieces : List (List Char)} {holds : List Char → Prop}
    (written : List.Forall₂ EncodesPair pairs pieces)
    (each : ∀ pair piece, EncodesPair pair piece → holds piece) : ∀ piece ∈ pieces, holds piece := by
  induction written with
  | nil => simp
  | cons first rest ih => exact List.forall_mem_cons.mpr ⟨each _ _ first, ih⟩

theorem map_decodePair_of_forall₂ {pieces : List (List Char)}
    (written : List.Forall₂ EncodesPair pairs pieces) : pieces.map decodePair = pairs := by
  induction written with
  | nil => rfl
  | cons first rest ih => rw [List.map_cons, decodePair_of_encodesPair first, ih]

/-- Decoding a form finds the pairs that were encoded, however that was done. -/
theorem decode_of_encodes (encodes : Encodes pairs text) : decode text = pairs := by
  rcases encodes with ⟨pieces, written, rfl⟩
  have noAmpersand : ∀ piece ∈ pieces, '&' ∉ piece :=
    forall_mem_of_forall₂ written fun _ _ first =>
      notMem_of_encodesPair first (by decide) (by decide)
  have nonempty : ∀ piece ∈ pieces, decide (piece ≠ []) = true :=
    forall_mem_of_forall₂ written fun _ _ first => decide_eq_true (ne_nil_of_encodesPair first)
  have split : ((['&'].intercalate pieces).splitOn '&').filter (· ≠ []) = pieces := by
    cases pieces with
    | nil => rfl
    | cons first rest =>
        rw [List.splitOn_intercalate '&' noAmpersand (List.cons_ne_nil first rest),
          List.filter_eq_self.mpr nonempty]
  rw [decode, split, map_decodePair_of_forall₂ written]

theorem notMem_intercalate {separator : List Char} {pieces : List (List Char)} {c : Char}
    (notSeparator : c ∉ separator) (notPiece : ∀ piece ∈ pieces, c ∉ piece) :
    c ∉ separator.intercalate pieces := by
  induction pieces with
  | nil => exact List.not_mem_nil
  | cons first pieces ih =>
      rcases List.forall_mem_cons.mp notPiece with ⟨notFirst, notLater⟩
      by_cases single : pieces = []
      · rw [single, List.intercalate_singleton]
        exact notFirst
      · rw [List.intercalate_cons_of_ne_nil single]
        simp [notFirst, notSeparator, ih notLater]

/-- An encoded form does not start with a question mark, nor has it one
anywhere. -/
theorem questionMark_notMem_of_encodes (encodes : Encodes pairs text) : '?' ∉ text := by
  rcases encodes with ⟨pieces, written, rfl⟩
  have notPiece : ∀ piece ∈ pieces, '?' ∉ piece :=
    forall_mem_of_forall₂ written fun _ _ first =>
      notMem_of_encodesPair first (by decide) (by decide)
  exact notMem_intercalate (by decide) notPiece

end OData.Form
