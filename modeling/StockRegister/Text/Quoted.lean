import StockRegister.Text.Printable

/-!
# Quoted text

`quoted` writes a text between quotes on one line. The quote is `'`, or `"` if the text has
the first and not the second. A backslash, the quote, a tab and the line breaks are escaped
by name, and every other character that is not printable by its code point in two, four or
eight hexadecimal digits.
-/

namespace StockRegister.Text

/-- The hexadecimal digits of `n`, zeros in front up to `width`. -/
def hexDigits (width n : Nat) : List Char :=
  let ds := Nat.toDigits 16 n
  List.replicate (width - ds.length) '0' ++ ds

/-- One character of a text between the given quotes. -/
def quotedChar (quote c : Char) : List Char :=
  if c == quote || c == '\\' then ['\\', c]
  else if c == '\t' then ['\\', 't']
  else if c == '\n' then ['\\', 'n']
  else if c == '\r' then ['\\', 'r']
  else if isPrintable c then [c]
  else if c.toNat < 0x100 then '\\' :: 'x' :: hexDigits 2 c.toNat
  else if c.toNat < 0x10000 then '\\' :: 'u' :: hexDigits 4 c.toNat
  else '\\' :: 'U' :: hexDigits 8 c.toNat

/-- The quote that a text is written in. -/
def quoteFor (cs : List Char) : Char :=
  if cs.contains '\x27' && !cs.contains '\x22' then '\x22' else '\x27'

/-- The characters of a text in quotes. -/
def quotedChars (cs : List Char) : List Char :=
  let q := quoteFor cs
  q :: cs.flatMap (quotedChar q) ++ [q]

/-- A text in quotes. -/
def quoted (s : String) : String := String.ofList (quotedChars s.toList)

end StockRegister.Text
