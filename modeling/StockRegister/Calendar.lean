import StockRegister.Number.Decimal
import StockRegister.Text.Digit

/-!
# Dates and moments

A `Moment` is a date with a time of day and, if it is known, the offset from universal time.
`Date.isoText` and `Moment.isoText` write them with the largest unit first, and
`Moment.readFull` reads such a text; a date alone stands for its midnight
(`Moment.readMidnight`). The errors of reading name the part at which it stopped.
`Moment.ofSeconds` counts from the start of 1970, and two moments with an offset are one point
in time if their `Moment.instant` is one.
-/

namespace StockRegister

/-- A day of the calendar. -/
structure Date where
  year : Nat
  month : Nat
  day : Nat
deriving DecidableEq

/-- A date and a time of day; `offset` is in seconds east of universal time. -/
structure Moment where
  date : Date
  hour : Nat
  minute : Nat
  second : Nat
  micro : Nat
  offset : Option Int
deriving DecidableEq

/-- Whether a year of the Gregorian calendar has a 29th of February. -/
def isLeapYear (year : Nat) : Bool :=
  year % 4 == 0 && (year % 100 != 0 || year % 400 == 0)

/-- The number of days of a month. -/
def daysInMonth (year month : Nat) : Nat :=
  if month == 2 then if isLeapYear year then 29 else 28
  else if month == 4 || month == 6 || month == 9 || month == 11 then 30
  else 31

/-- Whether a date is one of the calendar, from the year 1 to the year 9999. -/
def Date.isValid (d : Date) : Bool :=
  1 ≤ d.year && d.year ≤ 9999 && 1 ≤ d.month && d.month ≤ 12 && 1 ≤ d.day &&
    d.day ≤ daysInMonth d.year d.month

/-- The number of days from the start of 1970 to a date. Years are counted from March, so that
the leap day is the last of its year. -/
def Date.toDays (d : Date) : Int :=
  let year : Int := if d.month ≤ 2 then (d.year : Int) - 1 else d.year
  let month : Int := (d.month + 9) % 12
  365 * year + year / 4 - year / 100 + year / 400 + (153 * month + 2) / 5 + d.day - 1 - 719468

/-- The date so many days after the start of 1970, from the year 0 on. -/
def Date.ofDays (days : Int) : Date :=
  let n := days + 719468
  let era := n / 146097
  let inEra := n % 146097
  let yearInEra := (inEra - inEra / 1460 + inEra / 36524 - inEra / 146096) / 365
  let inYear := inEra - (365 * yearInEra + yearInEra / 4 - yearInEra / 100)
  let shifted := (5 * inYear + 2) / 153
  let month := (shifted + 2) % 12 + 1
  let year := era * 400 + yearInEra + (if month ≤ 2 then 1 else 0)
  ⟨year.toNat, month.toNat, (inYear - (153 * shifted + 2) / 5 + 1).toNat⟩

/-- The number of seconds from the start of 1970 to a moment, offsets apart. -/
def Moment.localSeconds (m : Moment) : Int :=
  m.date.toDays * 86400 + (m.hour * 3600 + m.minute * 60 + m.second : Nat)

/-- The point in time that a moment with an offset is, in microseconds from the start of 1970. -/
def Moment.instant (m : Moment) : Option Int :=
  m.offset.map fun seconds => (m.localSeconds - seconds) * 1000000 + m.micro

/-- The moment in universal time so many seconds and microseconds after the start of 1970. -/
def Moment.ofSeconds (seconds : Int) (micro : Nat) : Moment :=
  let rest := (seconds % 86400).toNat
  ⟨Date.ofDays (seconds / 86400), rest / 3600, rest / 60 % 60, rest % 60, micro, some 0⟩

/-- A date as year, month and day. -/
def Date.isoText (d : Date) : String :=
  padDigits 4 d.year ++ "-" ++ padDigits 2 d.month ++ "-" ++ padDigits 2 d.day

/-- An offset as sign, hours and minutes, with the seconds if there are any. -/
def offsetText (seconds : Int) : String :=
  let n := seconds.natAbs
  (if seconds < 0 then "-" else "+") ++ padDigits 2 (n / 3600) ++ ":" ++
    padDigits 2 (n / 60 % 60) ++ (if n % 60 == 0 then "" else ":" ++ padDigits 2 (n % 60))

/-- A moment as date, `T` and time; a fraction and an offset are written if there are any. -/
def Moment.isoText (m : Moment) : String :=
  m.date.isoText ++ "T" ++ padDigits 2 m.hour ++ ":" ++ padDigits 2 m.minute ++ ":" ++
    padDigits 2 m.second ++ (if m.micro == 0 then "" else "." ++ padDigits 6 m.micro) ++
    (match m.offset with
      | none => ""
      | some seconds => offsetText seconds)

/-! ## Reading -/

/-- Why a text or a number is no moment. -/
inductive MomentError where
  | tooShort
  | extraCharacters
  | badYear
  | badMonth
  | badDay
  | badSeparator
  | monthRange
  | dayRange
  | tooEarly
  | tooLate
  | notNumber
  | yearZero
deriving DecidableEq

/-- The wording of a reading error. -/
def MomentError.message : MomentError → String
  | tooShort => "input is too short"
  | extraCharacters => "unexpected extra characters at the end of the input"
  | badYear => "invalid character in year"
  | badMonth => "invalid character in month"
  | badDay => "invalid character in day"
  | badSeparator => "invalid date separator, expected `-`"
  | monthRange => "month value is outside expected range of 1-12"
  | dayRange => "day value is outside expected range"
  | tooEarly => "dates before 0000 are not supported as unix timestamps"
  | tooLate => "dates after 9999 are not supported as unix timestamps"
  | notNumber => "NaN values not permitted"
  | yearZero => "year 0 is out of range"

/-- The first `count` characters as digits, and the rest. -/
def takeDigits (count : Nat) (cs : List Char) : Option (Nat × List Char) :=
  match (cs.take count).mapM Text.asciiDigit? with
  | some ds => if ds.length = count then some (Text.ofDigits 10 ds, cs.drop count) else none
  | none => none

/-- The rest of a text behind a character of the given kind. -/
def behind (expected : Char → Bool) : List Char → Option (List Char)
  | [] => none
  | c :: cs => if expected c then some cs else none

/-- What is there, or else an error. -/
def orError {α : Type} (error : MomentError) : Option α → Except MomentError α
  | some a => .ok a
  | none => .error error

/-- A date at the start of a text of at least ten bytes. The year 0 can be read. -/
def Date.readStart (s : String) : Except MomentError (Date × List Char) := do
  if s.utf8ByteSize < 10 then throw .tooShort
  let (year, cs) ← orError .badYear (takeDigits 4 s.toList)
  let cs ← orError .badSeparator (behind (· == '-') cs)
  let (month, cs) ← orError .badMonth (takeDigits 2 cs)
  let cs ← orError .badSeparator (behind (· == '-') cs)
  let (day, cs) ← orError .badDay (takeDigits 2 cs)
  if month < 1 || 12 < month then throw .monthRange
  if day < 1 || daysInMonth year month < day then throw .dayRange
  return (⟨year, month, day⟩, cs)

/-- The digits of a fraction of a second as microseconds; further digits are dropped. -/
def microseconds (ds : List Nat) : Nat := Text.ofDigits 10 ((ds ++ List.replicate 6 0).take 6)

/-- The seconds of a time and their fraction, if there are any, and the rest. -/
def readSeconds (cs : List Char) : Option (Nat × Nat × List Char) :=
  match behind (· == ':') cs with
  | none => some (0, 0, cs)
  | some cs =>
    match takeDigits 2 cs with
    | none => none
    | some (second, cs) =>
      match behind (fun c => c == '.' || c == ',') cs with
      | none => some (second, 0, cs)
      | some cs =>
        let ds := (cs.takeWhile Char.isDigit).filterMap Text.asciiDigit?
        if ds.isEmpty then none else some (second, microseconds ds, cs.dropWhile Char.isDigit)

/-- An offset at the end of a text: none, `Z`, or a sign with hours and minutes. -/
def readOffset : List Char → Option (Option Int)
  | [] => some none
  | ['Z'] => some (some 0)
  | ['z'] => some (some 0)
  | sign :: cs => do
    let cs ← if sign == '+' || sign == '-' || sign == '\u2212' then some cs else none
    let (hours, cs) ← takeDigits 2 cs
    let (minutes, cs) ← takeDigits 2 ((behind (· == ':') cs).getD cs)
    let seconds : Int := hours * 3600 + minutes * 60
    if !cs.isEmpty || 59 < minutes || 86400 ≤ seconds then none
    else some (some (if sign == '+' then seconds else -seconds))

/-- A time of day and an offset, up to the end of a text. -/
def Moment.readTime (date : Date) (cs : List Char) : Option Moment := do
  let (hour, cs) ← takeDigits 2 cs
  let (minute, cs) ← takeDigits 2 (← behind (· == ':') cs)
  let (second, micro, cs) ← readSeconds cs
  let offset ← readOffset cs
  if 23 < hour || 59 < minute || 59 < second then none
  else some ⟨date, hour, minute, second, micro, offset⟩

/-- The moment that a text is, written as date and time. -/
def Moment.readFull (s : String) : Option Moment := do
  let (date, cs) ← (Date.readStart s).toOption
  Moment.readTime date (← behind (fun c => c == 'T' || c == 't' || c == '_' || c == ' ') cs)

/-- The midnight of a date that is the whole text. -/
def Moment.readMidnight (s : String) : Except MomentError Moment := do
  let (date, cs) ← Date.readStart s
  if cs.isEmpty then .ok ⟨date, 0, 0, 0, 0, none⟩ else .error .extraCharacters

end StockRegister
