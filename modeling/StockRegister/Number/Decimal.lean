import StockRegister.Number.Double

/-!
# Decimal text of floating-point numbers

`Double.shortest` finds the fewest decimal digits that read back as a number, and among
those of that length the ones nearest to it. A `DecimalLayout` says how digits and an
exponent become text, and `Double.text` writes a number in a layout. The report layout,
`DecimalLayout.report`, is the one in which this library writes numbers.
-/

namespace StockRegister

/-- The number of decimal digits of `n`, one for zero. -/
def decimalLength (n : Nat) : Nat := (Nat.toDigits 10 n).length

/-- Decimal digits and the exponent of the first of them: `digits` read as
`d.ddd * 10 ^ exponent`. -/
structure Scientific where
  digits : Nat
  exponent : Int

namespace Double

/-- The exponent of the leading decimal digit of `num / den`, for a positive quotient. -/
def leadingExponent (num den : Nat) : Int :=
  if den ≤ num then (decimalLength (num / den) : Int) - 1
  else
    let least := (den + num - 1) / num
    Int.neg (decimalLength (least - 1))

/-- The integer part of `num / den / 10 ^ e`, with whether its successor is nearer. -/
def decimalFloor (num den : Nat) (e : Int) : Nat × Bool :=
  let (n, d) :=
    if 0 ≤ e then (num, den * Nat.pow 10 e.toNat) else (num * Nat.pow 10 (-e).toNat, den)
  (n / d, d < 2 * (n % d) || (d == 2 * (n % d) && n / d % 2 == 1))

/-- The candidate with `count` digits that reads back as `x`, the nearer of two first. -/
def withDigits (x : Double) (lead : Int) (count : Nat) : Option Scientific :=
  let e := lead - (count : Int) + 1
  let (floor, up) := decimalFloor x.units (Nat.pow 2 1074) e
  let first := if up then floor + 1 else floor
  let second := if up then floor else floor + 1
  let readsBack (d : Nat) : Bool := (ofDecimal false d e).magnitude == x.magnitude
  if readsBack first then some ⟨first, e⟩
  else if readsBack second then some ⟨second, e⟩
  else none

/-- The first of the lengths from `count` on, `fuel` of them, that has a candidate. -/
def searchDigits (x : Double) (lead : Int) : Nat → Nat → Scientific
  | 0, count => ⟨(decimalFloor x.units (Nat.pow 2 1074) (lead - (count : Int) + 1)).1,
      lead - (count : Int) + 1⟩
  | fuel + 1, count =>
    match x.withDigits lead count with
    | some s => s
    | none => searchDigits x lead fuel (count + 1)

/-- Digits without the zeros at their end; the exponent is that of the last digit. -/
def trimZeros : Nat → Scientific → Scientific
  | 0, s => s
  | fuel + 1, s =>
    if s.digits != 0 && s.digits % 10 == 0 then trimZeros fuel ⟨s.digits / 10, s.exponent + 1⟩
    else s

/-- The fewest digits that read back as the absolute value of a finite `x`, and the
exponent of the first of them. -/
def shortest (x : Double) : Scientific :=
  if x.isZero then ⟨0, 0⟩
  else
    let found := searchDigits x (leadingExponent x.units (Nat.pow 2 1074)) 17 1
    let s := trimZeros 400 found
    ⟨s.digits, s.exponent + (decimalLength s.digits : Int) - 1⟩

end Double

/-- How digits and an exponent are written. -/
structure DecimalLayout where
  /-- The least exponent of the first digit that is written without an exponent. -/
  leastPositional : Int
  /-- The first exponent beyond those written without one. -/
  firstExponential : Int
  /-- The least number of digits of a written exponent. -/
  exponentDigits : Nat
  /-- Whether a whole number written without an exponent ends in `.0`. -/
  markWhole : Bool

/-- The layout of reports: exponents from -4 to 15 are written out, a whole number keeps
`.0`, and an exponent has a sign and two digits. -/
def DecimalLayout.report : DecimalLayout := ⟨-4, 16, 2, true⟩

/-- The digits of `n` with zeros in front up to `width`. -/
def padDigits (width n : Nat) : String :=
  let s := String.ofList (Nat.toDigits 10 n)
  String.ofList (List.replicate (width - s.length) '0') ++ s

/-- Digits and exponent in a layout. -/
def Scientific.text (layout : DecimalLayout) (s : Scientific) : String :=
  let ds := Nat.toDigits 10 s.digits
  let count : Int := ds.length
  if s.exponent < layout.leastPositional || layout.firstExponential ≤ s.exponent then
    let mantissa := match ds with
      | [] => ""
      | [d] => String.ofList [d]
      | d :: rest => String.ofList (d :: '.' :: rest)
    mantissa ++ "e" ++ (if s.exponent < 0 then "-" else "+") ++
      padDigits layout.exponentDigits s.exponent.natAbs
  else if s.exponent < 0 then
    "0." ++ String.ofList (List.replicate (-s.exponent - 1).toNat '0' ++ ds)
  else if count ≤ s.exponent + 1 then
    String.ofList (ds ++ List.replicate (s.exponent + 1 - count).toNat '0') ++
      (if layout.markWhole then ".0" else "")
  else
    let whole := (s.exponent + 1).toNat
    String.ofList (ds.take whole ++ '.' :: ds.drop whole)

/-- The text of a number in a layout. -/
def Double.text (layout : DecimalLayout) (x : Double) : String :=
  if x.isNaN then "nan"
  else
    let body := if x.isInfinite then "inf" else x.shortest.text layout
    if x.negative then "-" ++ body else body

end StockRegister
