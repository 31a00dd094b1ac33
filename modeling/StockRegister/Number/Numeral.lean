import StockRegister.Number.Double
import StockRegister.Text.Blank
import StockRegister.Text.Digit
import StockRegister.Text.Pieces

/-!
# Numerals

What counts as the text of a number, in two grammars.

A field of a model is read by `wholeNumeral` or `floatNumeral`. Around the text there may be
white space, and underscores may stand in it, at neither end and not side by side. The zeros
in front of an integer are dropped with all underscores between them and behind them
(`withoutLeadingZeros`), and a fraction of zeros is dropped too; what is left has to be an
integer in its one written form (`canonicalInteger`). A floating-point number has decimal or
exponent form, or is the name of infinity or of the number that is not one.

What is typed at a command line or stands in a document is read by `typedInteger` or
`typedNumber`. The digits may be of any script, and an underscore stands between two of them.
-/

namespace StockRegister

/-- The most digits that the text of an integer may have. -/
def maxIntegerDigits : Nat := 4300

/-- Whether the text of an integer has no more digits than it may have. -/
def integerIsWritable (n : Int) : Bool := n.natAbs < Nat.pow 10 maxIntegerDigits

/-- The sign at the start of a text, and the rest. -/
def splitSign : List Char → Bool × List Char
  | '-' :: cs => (true, cs)
  | '+' :: cs => (false, cs)
  | cs => (false, cs)

/-- An integer with the given sign. -/
def signedInt (negative : Bool) (n : Nat) : Int := if negative then -(n : Int) else n

/-- The text between its leading and trailing white space. -/
def trimmed (s : String) : List Char := Text.strip Text.isSpaceChar s.toList

/-- Whether underscores stand at neither end of a text and not side by side. -/
def underscoresApart : Bool → List Char → Bool
  | afterMark, [] => !afterMark
  | afterMark, c :: cs =>
    if c == '_' then !afterMark && underscoresApart true cs else underscoresApart false cs

/-- A text without its underscores, if they stand where they may. -/
def withoutUnderscores (cs : List Char) : List Char :=
  if underscoresApart true cs then cs.filter (· != '_') else cs

/-! ## Integers in fields -/

/-- Why a text is not that of an integer. -/
inductive NumeralError where
  | unreadable
  | tooLong
deriving DecidableEq

/-- Whether a text has a minus sign at its head, and the rest after the sign that it has there,
if it has one. A minus sign may not stand behind a plus sign. -/
def withoutSign : List Char → Option (Bool × List Char)
  | '+' :: '-' :: _ => none
  | cs => some (splitSign cs)

/-- The rest of a text after the zeros and underscores at its head, of which `last` was the
last one so far. It stands there again if nothing follows, or a fraction. -/
def skipZeros (last : Char) : List Char → Option (List Char)
  | [] => some [last]
  | c :: cs =>
    if c == '0' || c == '_' then skipZeros c cs
    else if c.isDigit || c == '-' then some (c :: cs)
    else if c == '.' then some (last :: c :: cs)
    else none

/-- A text without the zeros at its head, which must have a digit or a minus sign there. -/
def withoutLeadingZeros : List Char → Option (List Char)
  | [] => none
  | c :: cs =>
    if c == '0' then skipZeros c cs
    else if c.isDigit || c == '-' then some (c :: cs)
    else none

/-- A text without a fraction of zeros. -/
def withoutZeroFraction (cs : List Char) : List Char :=
  match Text.cutAtFirst '.' cs with
  | (whole, some zeros) => if !zeros.isEmpty && zeros.all (· == '0') then whole else cs
  | (_, none) => cs

/-- The integer that a text is in its one written form: a minus sign or none, and digits, of
which the first is a zero only if it is alone. -/
def canonicalInteger (cs : List Char) : Option Int :=
  let negative := cs.head? == some '-'
  match (if negative then cs.drop 1 else cs).mapM Text.asciiDigit? with
  | none => none
  | some ds =>
    if ds.isEmpty || (ds.head? == some 0 && 1 < ds.length) || maxIntegerDigits < ds.length then
      none
    else some (signedInt negative (Text.ofDigits 10 ds))

/-- Whether a text starts with an integer of too many digits, whatever stands behind it. -/
def startsTooLong (cs : List Char) : Bool :=
  let body := if cs.head? == some '-' then cs.drop 1 else cs
  body.head? != some '0' && maxIntegerDigits < (body.takeWhile Char.isDigit).length

/-- The integer that a text stands for once white space, zeros and underscores are taken out
of it. -/
def cleanedInteger (s : String) : Option Int := do
  let (negative, cs) ← withoutSign (trimmed s)
  let cs := withoutUnderscores (withoutZeroFraction (← withoutLeadingZeros cs))
  canonicalInteger (if negative then '-' :: cs else cs)

/-- The integer that a text stands for. A text is too long only for what stands at its very
head, where neither white space nor a plus sign is skipped. -/
def wholeNumeral (s : String) : Except NumeralError Int :=
  if startsTooLong s.toList then .error .tooLong
  else
    match cleanedInteger s with
    | none => .error .unreadable
    | some n => .ok n

/-! ## Floating-point numbers in fields -/

/-- ASCII letters in lower case, other characters as they are. -/
def lowerAscii (cs : List Char) : List Char := cs.map Char.toLower

/-- Digits, which may be none. -/
def takeAsciiDigits (cs : List Char) : List Nat × List Char :=
  ((cs.takeWhile Char.isDigit).filterMap Text.asciiDigit?, cs.dropWhile Char.isDigit)

/-- The exponent at the end of a numeral: nothing, or `e` with an integer. -/
def exponentPart : List Char → Option Int
  | [] => some 0
  | c :: cs =>
    if c == 'e' || c == 'E' then
      let (negative, body) := splitSign cs
      let (ds, rest) := takeAsciiDigits body
      if ds.isEmpty || !rest.isEmpty then none
      else some (signedInt negative (Text.ofDigits 10 ds))
    else none

/-- A number in decimal or exponent form. -/
def decimalForm (negative : Bool) (cs : List Char) : Option Double :=
  let (whole, rest) := takeAsciiDigits cs
  let (fraction, rest) :=
    if rest.head? == some '.' then takeAsciiDigits (rest.drop 1) else ([], rest)
  if whole.isEmpty && fraction.isEmpty then none
  else
    (exponentPart rest).map fun e =>
      Double.ofDecimal negative (Text.ofDigits 10 (whole ++ fraction)) (e - fraction.length)

/-- A number in decimal or exponent form, or by name, with a sign. -/
def signedNumber (cs : List Char) : Option Double :=
  let (negative, body) := splitSign cs
  let name := String.ofList (lowerAscii body)
  if name == "inf" || name == "infinity" then some (Double.infinity negative)
  else if name == "nan" then some Double.nan
  else decimalForm negative body

/-- The floating-point number that a text stands for. If there are underscores in it, there
may be no white space around it. -/
def floatNumeral (s : String) : Option Double :=
  (signedNumber (trimmed s)).or (signedNumber (withoutUnderscores s.toList))

/-! ## Typed numbers -/

/-- The digits of a text in which single underscores may stand between digits. -/
def separatedDigits (digit : Char → Option Nat) : List Char → Option (List Nat)
  | [] => none
  | [c] => (digit c).map ([·])
  | c :: '_' :: cs => do
    let d ← digit c
    let ds ← separatedDigits digit cs
    pure (d :: ds)
  | c :: cs => do
    let d ← digit c
    let ds ← separatedDigits digit cs
    pure (d :: ds)

/-- A digit of a base up to 36: a decimal digit of any script, or a letter. -/
def digitIn? (base : Nat) (c : Char) : Option Nat :=
  let d? := (Text.digit? c).or (if c.isAlpha then some (c.toLower.toNat - 87) else none)
  d?.filter (· < base)

/-- The letter that marks a base between a zero and the digits. -/
def baseLetter? (base : Nat) : Option Char :=
  if base == 2 then some 'b'
  else if base == 8 then some 'o'
  else if base == 16 then some 'x'
  else none

/-- A text without the mark of its base, which an underscore may follow. -/
def withoutBaseMark (base : Nat) (cs : List Char) : List Char :=
  match cs with
  | '0' :: c :: rest =>
    if some c.toLower == baseLetter? base then
      if rest.head? == some '_' then rest.drop 1 else rest
    else cs
  | cs => cs

/-- An integer in a base as it is typed: white space around it, a sign, and digits of any
script with single underscores between them. The length of a decimal numeral is limited. -/
def typedIntegerIn (base : Nat) (cs : List Char) : Option Int :=
  let (negative, body) := splitSign (Text.strip Text.isSpaceChar cs)
  match separatedDigits (digitIn? base) (withoutBaseMark base body) with
  | none => none
  | some ds =>
    if base == 10 && maxIntegerDigits < ds.length then none
    else some (signedInt negative (Text.ofDigits base ds))

/-- A decimal integer as it is typed. -/
def typedInteger (s : String) : Option Int := typedIntegerIn 10 s.toList

/-- Digits of any script as ASCII digits, other characters as they are. -/
def withAsciiDigits (cs : List Char) : List Char :=
  cs.map fun c =>
    match Text.digit? c with
    | some d => Char.ofNat (48 + d)
    | none => c

/-- A text without the underscores that stand between two digits; `digitBefore` says whether a
digit stands before it. -/
def joinDigits (digitBefore : Bool) : List Char → List Char
  | [] => []
  | '_' :: c :: cs =>
    if digitBefore && c.isDigit then c :: joinDigits true cs else '_' :: joinDigits false (c :: cs)
  | c :: cs => c :: joinDigits c.isDigit cs

/-- A floating-point number as it is typed: white space around it, digits of any script, and
single underscores between digits. -/
def typedNumber (cs : List Char) : Option Double :=
  signedNumber (joinDigits false (withAsciiDigits (Text.strip Text.isSpaceChar cs)))

end StockRegister
