import StockRegister.Text

/-!
# The encoding of JSON bytes

JSON text starts with an ASCII character, so the zeros among its first bytes tell in which form
its characters are written: UTF-8, or UTF-16 or UTF-32 in one of two byte orders
(`Encoding.ofBytes`). `decode` reads the text of bytes. In UTF-16 and UTF-32 a half of a pair
that stands alone is a code point of the text like any other.
-/

namespace StockRegister.Json

/-- The form in which characters are written as bytes. -/
inductive Encoding where
  | utf8
  | utf16 (bigEndian : Bool)
  | utf32 (bigEndian : Bool)
deriving DecidableEq

/-- The form of the characters of JSON bytes. -/
def Encoding.ofBytes : List Nat → Encoding
  | [a, b] => if a = 0 then utf16 true else if b = 0 then utf16 false else utf8
  | a :: b :: c :: d :: _ =>
    if a = 0 then if b = 0 then utf32 true else utf16 true
    else if b = 0 then if c = 0 && d = 0 then utf32 false else utf16 false
    else utf8
  | _ => utf8

/-- Units of two bytes. -/
def pairUnits (bigEndian : Bool) : List Nat → Option (List Nat)
  | [] => some []
  | a :: b :: rest =>
    (pairUnits bigEndian rest).map ((if bigEndian then a * 256 + b else b * 256 + a) :: ·)
  | [_] => none

/-- Units of four bytes, made of units of two. -/
def quadUnits (bigEndian : Bool) : List Nat → Option (List Nat)
  | [] => some []
  | m :: n :: rest =>
    (quadUnits bigEndian rest).map ((if bigEndian then m * 65536 + n else n * 65536 + m) :: ·)
  | [_] => none

/-- The text of bytes in a form. -/
def Encoding.decode (bytes : List Nat) : Encoding → Option Text
  | utf8 => (String.fromUTF8? ⟨(bytes.map Nat.toUInt8).toArray⟩).map Text.ofString
  | utf16 bigEndian => (pairUnits bigEndian bytes).map fun units => ⟨Text.joinPairs units⟩
  | utf32 bigEndian => do
    let units ← quadUnits bigEndian (← pairUnits bigEndian bytes)
    if units.all (· ≤ 0x10FFFF) then some ⟨units⟩ else none

/-- The text of JSON bytes. -/
def decode (bytes : List Nat) : Option Text := (Encoding.ofBytes bytes).decode bytes

end StockRegister.Json
