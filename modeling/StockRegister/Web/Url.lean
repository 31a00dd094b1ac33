import StockRegister.Text.Digit
import StockRegister.Text.Pieces

/-!
# Addresses

In an address a byte may be written as `%` and two hexadecimal digits, and a character stands
for the bytes of its UTF-8 form. `decodePercent` reads the bytes of a text, and `decodeUtf8`
the characters of bytes: every longest run of bytes that begins a character and does not end
one becomes a single replacement character. `quoteAddress` writes an address in ASCII.

A query is a list of names and values (`readQuery`), in which `+` stands for a blank. It is
read by bytes: a character that should have been written with percent signs and was not is
taken for the characters that its bytes number (`byteChars`).
-/

namespace StockRegister.Web

/-! ## Bytes of characters -/

/-- The bytes of a character in UTF-8. -/
def utf8Bytes (c : Char) : List Nat :=
  let n := c.toNat
  if n < 0x80 then [n]
  else if n < 0x800 then [0xC0 + n / 0x40, 0x80 + n % 0x40]
  else if n < 0x10000 then [0xE0 + n / 0x1000, 0x80 + n / 0x40 % 0x40, 0x80 + n % 0x40]
  else [0xF0 + n / 0x40000, 0x80 + n / 0x1000 % 0x40, 0x80 + n / 0x40 % 0x40, 0x80 + n % 0x40]

/-- The character that stands for bytes that are none. -/
def replacement : Char := '\uFFFD'

/-- A character of which some bytes were read: how many are missing besides the next one, the
number that the bytes so far give, and the bounds of the next one. -/
structure Unfinished where
  missing : Nat
  code : Nat
  least : Nat := 0x80
  most : Nat := 0xBF

/-- What the first byte of a character begins: a character, or one that needs more bytes. -/
def firstByte (b : Nat) : Char ⊕ Unfinished :=
  if b < 0x80 then .inl (Char.ofNat b)
  else if b < 0xC2 then .inl replacement
  else if b < 0xE0 then .inr { missing := 0, code := b - 0xC0 }
  else if b == 0xE0 then .inr { missing := 1, code := 0, least := 0xA0 }
  else if b == 0xED then .inr { missing := 1, code := 0xD, most := 0x9F }
  else if b < 0xF0 then .inr { missing := 1, code := b - 0xE0 }
  else if b == 0xF0 then .inr { missing := 2, code := 0, least := 0x90 }
  else if b < 0xF4 then .inr { missing := 2, code := b - 0xF0 }
  else if b == 0xF4 then .inr { missing := 2, code := 4, most := 0x8F }
  else .inl replacement

/-- The characters of bytes, after those of an unfinished character if there is one. -/
def decodeFrom : Option Unfinished → List Nat → List Char
  | none, [] => []
  | some _, [] => [replacement]
  | none, b :: bs =>
    match firstByte b with
    | .inl c => c :: decodeFrom none bs
    | .inr u => decodeFrom (some u) bs
  | some u, b :: bs =>
    if u.least ≤ b && b ≤ u.most then
      let code := u.code * 0x40 + (b - 0x80)
      match u.missing with
      | 0 => Char.ofNat code :: decodeFrom none bs
      | missing + 1 => decodeFrom (some { missing := missing, code := code }) bs
    else
      match firstByte b with
      | .inl c => replacement :: c :: decodeFrom none bs
      | .inr u => replacement :: decodeFrom (some u) bs

/-- The characters of bytes. -/
def decodeUtf8 (bs : List Nat) : List Char := decodeFrom none bs

/-! ## Percent signs -/

/-- The bytes of a text; a percent sign that is not followed by two digits stands for itself. -/
def percentBytes : List Char → List Nat
  | [] => []
  | '%' :: a :: b :: rest =>
    match Text.hexDigit? a, Text.hexDigit? b with
    | some high, some low => (high * 16 + low) :: percentBytes rest
    | _, _ => 0x25 :: percentBytes (a :: b :: rest)
  | c :: rest => utf8Bytes c ++ percentBytes rest

/-- The text whose bytes are written with percent signs. -/
def decodePercent (cs : List Char) : List Char := decodeUtf8 (percentBytes cs)

/-- A hexadecimal digit in capitals. -/
def hexCapital (n : Nat) : Char := if n < 10 then Char.ofNat (48 + n) else Char.ofNat (55 + n)

/-- A byte with a percent sign. -/
def percentByte (b : Nat) : List Char := ['%', hexCapital (b / 16), hexCapital (b % 16)]

/-- A text with percent signs for the bytes of all characters that are not kept. -/
def encodePercent (keep : Char → Bool) (cs : List Char) : List Char :=
  cs.flatMap fun c => if keep c then [c] else (utf8Bytes c).flatMap percentByte

/-- The marks that an address may hold as they are. -/
def addressMarks : List Char := "_.-~:/%#?=@[]!$&'()*+,;".toList

/-- An address in ASCII. -/
def quoteAddress (cs : List Char) : List Char :=
  encodePercent (fun c => c.isAlphanum || addressMarks.contains c) cs

/-! ## Queries -/

/-- A name or value of a query. -/
def queryText (cs : List Char) : String :=
  String.ofList (decodePercent (cs.map fun c => if c == '+' then ' ' else c))

/-- One piece of a query; without `=` the value is empty. -/
def queryPair (piece : List Char) : String × String :=
  let (name, value) := Text.cutAtFirst '=' piece
  (queryText name, queryText (value.getD []))

/-- The characters that have the bytes of a text as their numbers. -/
def byteChars (cs : List Char) : List Char := (cs.flatMap utf8Bytes).map Char.ofNat

/-- The names and values of a query. -/
def readQuery (query : String) : List (String × String) :=
  ((Text.pieces '&' (byteChars query.toList)).filter (!·.isEmpty)).map queryPair

/-- The value of a name in a query: the last one counts. -/
def queryValue (query name : String) : Option String := (readQuery query).reverse.lookup name

/-! ## The path of an address -/

/-- The path that the address with a path names: without tabs and line breaks, and up to the
first mark that begins a query or a fragment. -/
def namedPath (cs : List Char) : List Char :=
  (cs.filter fun c => c != '\t' && c != '\n' && c != '\r').takeWhile fun c => c != '?' && c != '#'

end StockRegister.Web
