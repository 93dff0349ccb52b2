set_option autoImplicit false

/-! # Percent encoding

A text that becomes one segment of an address is encoded: letters, digits and four marks stand for
themselves, and every other character for its bytes, each written as a percent sign and two
hexadecimal digits. Decoding gives the bytes back. -/

namespace ReleaseCandidates.Http.Percent

/-- The characters that stand for themselves. -/
def isPlain (c : Char) : Bool :=
  c.isAlphanum || c == '-' || c == '_' || c == '.' || c == '~'

/-- A hexadecimal digit in upper case. -/
def hexDigit (n : Nat) : Char :=
  if n < 10 then Char.ofNat (48 + n) else Char.ofNat (55 + n)

/-- The value of a hexadecimal digit in either case. -/
def hexValue? (c : Char) : Option Nat :=
  if '0' ≤ c ∧ c ≤ '9' then some (c.toNat - 48)
  else if 'A' ≤ c ∧ c ≤ 'F' then some (c.toNat - 55)
  else if 'a' ≤ c ∧ c ≤ 'f' then some (c.toNat - 87)
  else none

/-- A byte as a percent sign and two digits. -/
def encodeByte (b : UInt8) : List Char :=
  ['%', hexDigit (b.toNat / 16), hexDigit (b.toNat % 16)]

/-- The bytes of a character, encoded. -/
def encodeBytes (c : Char) : List Char :=
  (String.utf8EncodeChar c).flatMap encodeByte

/-- The characters of a text with those that do not stand for themselves encoded. -/
def encodeChars (cs : List Char) : List Char :=
  cs.flatMap fun c => if isPlain c then [c] else encodeBytes c

/-- The text as one segment of an address. -/
def encode (s : String) : String :=
  String.ofList (encodeChars s.toList)

/-- The bytes that an encoded text stands for. A percent sign without two digits after it stands
for itself. -/
def decodeBytes : List Char → List UInt8
  | '%' :: a :: b :: rest =>
    match hexValue? a, hexValue? b with
    | some m, some n => UInt8.ofNat (16 * m + n) :: decodeBytes rest
    | _, _ => String.utf8EncodeChar '%' ++ decodeBytes (a :: b :: rest)
  | c :: rest => String.utf8EncodeChar c ++ decodeBytes rest
  | [] => []

end ReleaseCandidates.Http.Percent
