import StockRegister.Calendar
import StockRegister.Number.Numeral

/-!
# Time stamps

A time stamp is a moment as a number of seconds from the start of 1970. A number too large to
be meant so counts milliseconds. `Moment.ofTimestamp` takes a whole number with microseconds
beside it, and gives the moment if it is in the years 0 to 9999; `Moment.ofDouble` takes a
floating-point number. `Moment.read` reads a moment from a text, which is a date and a time, or
a time stamp, or a date alone.

A number with a fraction is split at the integer below it (`Double.floor`). What is left counts
in the unit of the number itself, and is rounded to whole microseconds.
-/

namespace StockRegister

/-- The largest number that counts seconds; a larger one counts milliseconds. -/
def largestSeconds : Nat := 20000000000

/-- The moment so many seconds and microseconds after the start of 1970. -/
def Moment.ofTimestamp (n : Int) (micro : Nat) : Except MomentError Moment :=
  let (seconds, rest) :=
    if n.natAbs ≤ largestSeconds then (n, 0) else (n / 1000, (n % 1000).toNat * 1000)
  let micro := micro + rest
  let seconds := seconds + (micro / 1000000 : Nat)
  if seconds < -62167219200 then .error .tooEarly
  else if 253402300799 < seconds then .error .tooLate
  else .ok (.ofSeconds seconds (micro % 1000000))

/-! ## Numbers with a fraction -/

namespace Double

/-- The largest integer that is not above a finite number. -/
def floor (x : Double) : Int := x.signedUnits / Int.pow 2 1074

/-- The integer nearest to a number that is not below zero, a half going up. -/
def rounded (x : Double) : Nat := (2 * x.units + Nat.pow 2 1074) / Nat.pow 2 1075

end Double

/-- The moment so many seconds after the start of 1970. The microseconds are those of what the
number has above the integer below it. -/
def Moment.ofDouble (x : Double) : Except MomentError Moment :=
  if x.isNaN then .error .notNumber
  else if x.isInfinite then .error (if x.negative then .tooEarly else .tooLate)
  else
    let unit :=
      if (Double.ofInt largestSeconds).lt { x with negative := false } then 1000 else 1000000
    let fraction := x.sub (Double.ofInt x.floor)
    Moment.ofTimestamp x.floor (fraction.mul (Double.ofInt unit)).rounded

/-! ## Texts -/

/-- A time stamp as it is written: a whole number, or one with a point. -/
inductive Timestamp where
  | whole (n : Int)
  | fractional (x : Double)

/-- A time stamp without its sign. Its whole part has less than 64 bits, and may be missing
before a point. -/
def Timestamp.readUnsigned (negative : Bool) (cs : List Char) : Option Timestamp :=
  let (ds, rest) := takeAsciiDigits cs
  let n := Text.ofDigits 10 ds
  if Nat.pow 2 63 ≤ n then none
  else if rest.head? == some '.' then (decimalForm negative cs).map .fractional
  else if ds.isEmpty || !rest.isEmpty then none
  else some (.whole (signedInt negative n))

/-- The time stamp that a text is, with a sign or without. -/
def Timestamp.read? : List Char → Option Timestamp
  | '-' :: cs => readUnsigned true cs
  | '+' :: cs => readUnsigned false cs
  | cs => readUnsigned false cs

/-- A date and a time, or a time stamp, or a date alone. The error is that of a whole time
stamp if the text is one, and otherwise that of a date alone. -/
def Moment.read (s : String) : Except MomentError Moment :=
  match Moment.readFull s, Timestamp.read? s.toList with
  | some m, _ => .ok m
  | none, some (.whole n) => Moment.ofTimestamp n 0
  | none, some (.fractional x) =>
    match Moment.ofDouble x with
    | .ok m => .ok m
    | .error _ => Moment.readMidnight s
  | none, none => Moment.readMidnight s

end StockRegister
