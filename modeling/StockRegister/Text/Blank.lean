import StockRegister.Text

/-!
# Blank characters

Two sets of blank code points are in use. `isBlankPoint` is the set that counts as blank in a
symbol or a name; `isSpacePoint` is the smaller set of white space that may surround a
number, without the four information separators.
-/

namespace StockRegister.Text

/-- White space: the code points that may surround a number. -/
def isSpacePoint (n : Nat) : Bool :=
  (9 ≤ n && n ≤ 13) || n == 32 || n == 0x85 || n == 0xA0 || n == 0x1680 ||
    (0x2000 ≤ n && n ≤ 0x200A) || n == 0x2028 || n == 0x2029 || n == 0x202F || n == 0x205F ||
    n == 0x3000

/-- Blank code points: white space and the four information separators. -/
def isBlankPoint (n : Nat) : Bool := (0x1C ≤ n && n ≤ 0x1F) || isSpacePoint n

/-- Whether a character is white space. -/
def isSpaceChar (c : Char) : Bool := isSpacePoint c.toNat

/-- Whether a character is blank. -/
def isBlankChar (c : Char) : Bool := isBlankPoint c.toNat

/-- Whether a text has no code point that is not blank. -/
def isBlank (t : Text) : Bool := t.points.all isBlankPoint

/-- The characters between the leading and the trailing ones that `p` accepts. -/
def strip (p : Char → Bool) (cs : List Char) : List Char :=
  ((cs.dropWhile p).reverse.dropWhile p).reverse

end StockRegister.Text
