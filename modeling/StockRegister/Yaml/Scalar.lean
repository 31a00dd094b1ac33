import StockRegister.Value
import StockRegister.Yaml.SixBit
import StockRegister.Yaml.Token

/-!
# The meaning of YAML scalars

A plain scalar means what its form says: a truth value, a number, a date, null, a mark of a
merge, or else a text (`ScalarType.ofForm`). Integers may be written in four bases and, like
floating-point numbers, in minutes and seconds with colons. `ScalarType.value` gives the
value of a scalar of a type, which may be looser than the form that has that type by itself.
-/

namespace StockRegister.Yaml

/-- What a scalar means. -/
inductive ScalarType where
  | null
  | bool
  | int
  | float
  | timestamp
  | binary
  | merge
  | defaultValue
  | markup
  | text
deriving DecidableEq

/-! ## Forms of plain scalars -/

/-- The words for null, besides the empty text. -/
def nullWords : List String := ["~", "null", "Null", "NULL"]

/-- The words for true. -/
def trueWords : List String := ["yes", "Yes", "YES", "true", "True", "TRUE", "on", "On", "ON"]

/-- The words for false. -/
def falseWords : List String :=
  ["no", "No", "NO", "false", "False", "FALSE", "off", "Off", "OFF"]

/-- Whether a character is a digit of a base up to 16, or an underscore. -/
def isDigitMark (base : Nat) (c : Char) : Bool :=
  c == '_' || (match Text.hexDigit? c with
    | some d => d < base
    | none => false)

/-- The text behind a sign, if there is one. -/
def unsigned (cs : List Char) : List Char := (splitSign cs).2

/-- Whether a text is a number of minutes or seconds: one digit, or two and the first below
six. -/
def isSixtieth (cs : List Char) : Bool :=
  match cs with
  | [d] => d.isDigit
  | [t, d] => '0' ≤ t && t ≤ '5' && d.isDigit
  | _ => false

/-- Whether a text is digits and underscores, the first a digit of the given kind. -/
def isDigitRun (first : Char → Bool) (cs : List Char) : Bool :=
  match cs with
  | [] => false
  | c :: rest => first c && rest.all (isDigitMark 10)

/-- A digit other than zero. -/
def isLeadingDigit (c : Char) : Bool := c.isDigit && c != '0'

/-- Whether a text has the form of an integer. -/
def isIntForm (cs : List Char) : Bool :=
  match unsigned cs with
  | ['0'] => true
  | '0' :: 'b' :: rest => !rest.isEmpty && rest.all (isDigitMark 2)
  | '0' :: 'x' :: rest => !rest.isEmpty && rest.all (isDigitMark 16)
  | '0' :: rest => rest.all (isDigitMark 8)
  | body =>
    match Text.pieces ':' body with
    | [] => false
    | first :: more => isDigitRun isLeadingDigit first && more.all isSixtieth

/-- Whether a text is nothing, or an exponent with a sign. -/
def isSignedExponent : List Char → Bool
  | [] => true
  | e :: s :: rest =>
    (e == 'e' || e == 'E') && (s == '+' || s == '-') && !rest.isEmpty && rest.all Char.isDigit
  | _ => false

/-- Whether a text is digits and underscores, and then perhaps an exponent. -/
def isFractionForm (cs : List Char) : Bool := isSignedExponent (cs.dropWhile (isDigitMark 10))

/-- Whether a text has the form of a floating-point number. -/
def isFloatForm (cs : List Char) : Bool :=
  let body := unsigned cs
  let (whole, fraction) := Text.cutAtFirst '.' body
  let name := String.ofList body
  match fraction with
  | none => false
  | some fraction =>
    if [".inf", ".Inf", ".INF"].contains name then true
    else if [".nan", ".NaN", ".NAN"].contains (String.ofList cs) then true
    else if whole.isEmpty then
      cs.head? == some '.' && (fraction.head?.any Char.isDigit) && isFractionForm fraction
    else
      match Text.pieces ':' whole with
      | [whole] => isDigitRun Char.isDigit whole && isFractionForm fraction
      | first :: more =>
        isDigitRun Char.isDigit first && more.all isSixtieth && fraction.all (isDigitMark 10)
      | [] => false

/-- The parts of the text of a date, and of a time if there is one. -/
structure TimestampParts where
  date : Date
  time : Option (Nat × Nat × Nat × Nat × Option Int)

/-- A run of digits whose length lies between two bounds, and the rest. -/
def digitRun (least most : Nat) (cs : List Char) : Option (Nat × List Char) :=
  let ds := (cs.takeWhile Char.isDigit).take most
  if ds.length < least then none
  else some (Text.ofDigits 10 (ds.filterMap Text.asciiDigit?), cs.drop ds.length)

/-- A space or a tab. -/
def isBlank (c : Char) : Bool := c == ' ' || c == '\t'

/-- The offset at the end of a time: nothing, `Z`, or a sign with hours and perhaps minutes. -/
def timestampOffset (cs : List Char) : Option (Option Int) :=
  match cs.dropWhile isBlank with
  | [] => if cs.isEmpty then some none else none
  | ['Z'] => some (some 0)
  | sign :: rest =>
    if sign != '+' && sign != '-' then none
    else do
      let (hours, rest) ← digitRun 1 2 rest
      let minutes ← match rest with
        | [] => some 0
        | rest => do
          let (minutes, rest) ← digitRun 2 2 (← behind (· == ':') rest)
          if rest.isEmpty then some minutes else none
      let seconds : Int := hours * 3600 + minutes * 60
      some (some (if sign == '-' then -seconds else seconds))

/-- The time behind a date: hour, minute, second, microsecond and offset. -/
def timestampTime (cs : List Char) : Option (Nat × Nat × Nat × Nat × Option Int) := do
  let (hour, rest) ← digitRun 1 2 cs
  let (minute, rest) ← digitRun 2 2 (← behind (· == ':') rest)
  let (second, rest) ← digitRun 2 2 (← behind (· == ':') rest)
  let (fraction, rest) := match rest with
    | '.' :: rest => (rest.takeWhile Char.isDigit, rest.dropWhile Char.isDigit)
    | rest => ([], rest)
  let offset ← timestampOffset rest
  some (hour, minute, second, microseconds (fraction.filterMap Text.asciiDigit?), offset)

/-- The parts of a text that has the form of a date, or of a date and a time. -/
def timestampParts? (cs : List Char) : Option TimestampParts := do
  let (year, rest) ← digitRun 4 4 cs
  let (month, rest) ← digitRun 1 2 (← behind (· == '-') rest)
  let (day, rest) ← digitRun 1 2 (← behind (· == '-') rest)
  match rest with
  | [] => some ⟨⟨year, month, day⟩, none⟩
  | c :: more =>
    let time ←
      if c == 'T' || c == 't' then timestampTime more
      else if isBlank c then timestampTime (rest.dropWhile isBlank)
      else none
    some ⟨⟨year, month, day⟩, some time⟩

/-- Whether a plain text has the form of a date, with two digits each for month and day, or of a
date and a time. -/
def isTimestampForm (cs : List Char) : Bool :=
  match timestampParts? cs with
  | none => false
  | some parts => parts.time.isSome || cs.length == 10

/-- A text without the line break at its end. -/
def withoutFinalBreak (cs : List Char) : List Char :=
  if cs.getLast? == some '\n' then cs.dropLast else cs

/-- What a scalar means by its form, apart from a line break at its end. -/
def ScalarType.ofForm (codes : List Nat) : ScalarType :=
  if codes.isEmpty then .null
  else
    match codes.mapM Text.char? with
    | none => .text
    | some cs =>
      let cs := withoutFinalBreak cs
      let word := String.ofList cs
      if nullWords.contains word then .null
      else if trueWords.contains word || falseWords.contains word then .bool
      else if isFloatForm cs then .float
      else if isIntForm cs then .int
      else if isTimestampForm cs then .timestamp
      else if word == "<<" then .merge
      else if word == "=" then .defaultValue
      else if word == "!" || word == "&" || word == "*" then .markup
      else .text

/-! ## Values -/

/-- The characters of a text given by code points; halves of characters become the null
character, which no form of a number or a word has. -/
def characters (codes : List Nat) : List Char := codes.map Char.ofNat

/-- A decimal integer or one in another base, which must have that form. -/
def integerIn (base : Nat) (cs : List Char) : Except YamlError Int :=
  match typedIntegerIn base cs with
  | some n => .ok n
  | none => .error .badNumber

/-- A sum of whole numbers, each of them in sixtieths of what stands before it. -/
def sixtieths (parts : List Int) : Int := parts.foldl (fun n part => n * 60 + part) 0

/-- The value of an integer, whatever its base. Behind the sign and the mark of the base there
may be another sign and another mark. -/
def intValue (cs : List Char) : Except YamlError Int := do
  let cs := cs.filter (· != '_')
  if cs.isEmpty then throw .noDigits
  let (negative, body) := splitSign cs
  let n ← match body with
    | [] => throw .noDigits
    | ['0'] => pure 0
    | '0' :: 'b' :: rest => integerIn 2 rest
    | '0' :: 'x' :: rest => integerIn 16 rest
    | '0' :: rest => integerIn 8 ('0' :: rest)
    | body =>
      if body.contains ':' then sixtieths <$> (Text.pieces ':' body).mapM (integerIn 10)
      else integerIn 10 body
  return if negative then -n else n

/-- A floating-point number in decimal form. -/
def decimalNumber (cs : List Char) : Except YamlError Double :=
  match typedNumber cs with
  | some x => .ok x
  | none => .error .badNumber

/-- A sum with one part more, `power` places before the last one. -/
def addSixtieths (sum : Double × Nat) (part : Double) : Except YamlError (Double × Nat) :=
  let scale := Double.ofInt (Nat.pow 60 sum.2)
  if scale.isFinite then .ok (sum.1.add (part.mul scale), sum.2 + 1) else .error .tooLarge

/-- The value of a floating-point number. -/
def floatValue (cs : List Char) : Except YamlError Double := do
  let cs := lowerAscii (cs.filter (· != '_'))
  if cs.isEmpty then throw .noDigits
  let (negative, body) := splitSign cs
  let x ←
    if body == ".inf".toList then pure (Double.infinity false)
    else if body == ".nan".toList then pure Double.nan
    else if body.contains ':' then do
      let parts ← (Text.pieces ':' body).mapM decimalNumber
      let (sum, _) ← parts.reverse.foldlM addSixtieths (Double.zero, 0)
      pure sum
    else decimalNumber body
  return if negative then x.neg else x

/-- The value of a date or a moment, which must be one of the calendar. -/
def timestampValue (cs : List Char) : Except YamlError Value :=
  match timestampParts? (withoutFinalBreak cs) with
  | none => .error .noDate
  | some ⟨date, time⟩ =>
    if !date.isValid then .error .badDate
    else
      match time with
      | none => .ok (.date date)
      | some (hour, minute, second, micro, offset) =>
        let offsetFits := match offset with
          | none => true
          | some seconds => seconds.natAbs < 86400
        if hour < 24 && minute < 60 && second < 60 && offsetFits then
          .ok (.moment ⟨date, hour, minute, second, micro, offset⟩)
        else .error .badDate

/-- The value of a word for a truth value. -/
def boolValue (cs : List Char) : Except YamlError Value :=
  let word := String.ofList (lowerAscii cs)
  if ["yes", "true", "on"].contains word then .ok (.bool true)
  else if ["no", "false", "off"].contains word then .ok (.bool false)
  else .error .badWord

/-- The bytes that a text of six-bit digits stands for. -/
def binaryValue (codes : List Nat) : Except YamlError Value :=
  match SixBit.decode codes with
  | some octets => .ok (.bytes octets)
  | none => .error .malformed

/-- The value of a scalar of a type. -/
def ScalarType.value (codes : List Nat) : ScalarType → Except YamlError Value
  | null => .ok .null
  | bool => boolValue (characters codes)
  | int => (intValue (characters codes)).map .int
  | float => (floatValue (characters codes)).map .float
  | timestamp => timestampValue (characters codes)
  | binary => binaryValue codes
  | merge => .error .malformed
  | defaultValue => .error .malformed
  | markup => .error .malformed
  | text => .ok (.text ⟨codes⟩)

end StockRegister.Yaml
