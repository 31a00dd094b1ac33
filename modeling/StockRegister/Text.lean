/-!
# Texts

A `Text` is a sequence of code points. It is what a `String` is, but for one thing: notations
with escapes can spell a half of a surrogate pair that stands alone, and such a half is a code
point of a text although no character is one. `Text.toString?` gives the string that a text
is, if it has no half in it, and every string is a text (`toString?_ofString`).
-/

namespace StockRegister

/-- A text: its code points in order. -/
structure Text where
  points : List Nat
deriving DecidableEq, Inhabited

namespace Text

/-- The text that a string is. -/
def ofString (s : String) : Text := ⟨s.toList.map Char.toNat⟩

instance : Coe String Text := ⟨ofString⟩

/-- Whether a number is the first half of a surrogate pair. -/
def isHighHalf (n : Nat) : Bool := 0xD800 ≤ n && n < 0xDC00

/-- Whether a number is the second half of a surrogate pair. -/
def isLowHalf (n : Nat) : Bool := 0xDC00 ≤ n && n < 0xE000

/-- The code point of a pair with the given halves. -/
def joinHalves (high low : Nat) : Nat := 0x10000 + (high - 0xD800) * 0x400 + (low - 0xDC00)

/-- The code points of units of 16 bits: the halves of a pair are joined, and others stay. -/
def joinPairs : List Nat → List Nat
  | m :: n :: rest =>
    if isHighHalf m && isLowHalf n then joinHalves m n :: joinPairs rest
    else m :: joinPairs (n :: rest)
  | units => units

/-- The character of a code point. -/
def char? (n : Nat) : Option Char := if n.isValidChar then some (Char.ofNat n) else none

/-- The characters of a text, if each of its code points is one. -/
def chars? (t : Text) : Option (List Char) := t.points.mapM char?

/-- The string that a text is, if each of its code points is a character. -/
def toString? (t : Text) : Option String := t.chars?.map String.ofList

/-- Whether a text has no code points. -/
def isEmpty (t : Text) : Bool := t.points.isEmpty

/-- A text without a byte order mark at its head. -/
def withoutMark (t : Text) : Text :=
  match t.points with
  | 0xFEFF :: rest => ⟨rest⟩
  | _ => t

/-- One text after the other. -/
def append (s t : Text) : Text := ⟨s.points ++ t.points⟩

instance : Append Text := ⟨append⟩

/-- The number of bytes of a code point in UTF-8; a half of a pair stands for one byte. -/
def pointBytes (n : Nat) : Nat :=
  if n < 0x80 || isHighHalf n || isLowHalf n then 1
  else if n < 0x800 then 2
  else if n < 0x10000 then 3
  else 4

/-- The number of bytes of a text in UTF-8. -/
def byteCount (t : Text) : Nat := t.points.foldr (fun n count => pointBytes n + count) 0

theorem char?_toNat (c : Char) : char? c.toNat = some c := by
  have h : c.toNat.isValidChar := c.valid
  rw [char?, if_pos h, Char.ofNat_toNat]

/-- Every string is the string of its text. -/
theorem toString?_ofString (s : String) : (ofString s).toString? = some s := by
  have h : (s.toList.map Char.toNat).mapM char? = some s.toList := by
    induction s.toList with
    | nil => rfl
    | cons c cs ih => simp [char?_toNat, ih]
  simp [toString?, chars?, ofString, h]

end Text

end StockRegister
