import OData.Text.Utf8

/-!
# Form-encoded text

A query string is a list of pairs separated by ampersands, each with an equals
sign between key and value.  Inside a key or a value a plus is a space and a
percent sign with two hexadecimal digits is a byte; the bytes are then read as
UTF-8.  Decoding never fails: a percent sign without digits is itself, and
bytes that are no UTF-8 are replaced.
-/

namespace OData.Form

/-- The value of a hexadecimal digit in either case. -/
def hexDigit? (c : Char) : Option Nat :=
  if c.isDigit then some (c.toNat - '0'.toNat)
  else if 'a' ≤ c ∧ c ≤ 'f' then some (c.toNat - 'a'.toNat + 10)
  else if 'A' ≤ c ∧ c ≤ 'F' then some (c.toNat - 'A'.toNat + 10)
  else none

/-- The bytes that an encoded text stands for. -/
def bytes : List Char → List UInt8
  | [] => []
  | '+' :: text => 0x20 :: bytes text
  | '%' :: high :: low :: text =>
      match hexDigit? high, hexDigit? low with
      | some high, some low => UInt8.ofNat (16 * high + low) :: bytes text
      | _, _ => 0x25 :: bytes (high :: low :: text)
  | c :: text => String.utf8EncodeChar c ++ bytes text

/-- Decode a key or a value. -/
def decodeText (text : List Char) : String :=
  String.ofList (Text.decodeLossy (bytes text))

/-- Decode a pair.  The first equals sign ends the key; without one the value
is empty. -/
def decodePair (text : List Char) : String × String :=
  (decodeText (text.takeWhile (· ≠ '=')),
    decodeText ((text.dropWhile (· ≠ '=')).drop 1))

/-- Decode the pairs of a form.  Nothing between two ampersands is no pair. -/
def decode (text : List Char) : List (String × String) :=
  ((text.splitOn '&').filter (· ≠ [])).map decodePair

end OData.Form
