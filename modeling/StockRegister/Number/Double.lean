/-!
# Binary floating-point numbers

A `Double` is a sign and a magnitude: the rank of its absolute value among the 64-bit
floating-point numbers, counted from zero. The rank of infinity is `infinityRank`, and
every rank above it is a number that is not one. In these terms the order of two numbers
is the order of two integers (`Double.key`), and the bits of a number are its rank and
its sign side by side.

`roundRank` gives the rank nearest to a quotient of natural numbers, a tie going to the
even rank. Every operation (`add`, `sub`, `mul`, `div`, `ofInt`, `ofDecimal`) states its exact
result as such a quotient and rounds it once.
-/

namespace StockRegister

/-- The rank of infinity, the first rank that is no finite number. -/
def infinityRank : Nat := 2047 * Nat.pow 2 52

/-- A 64-bit floating-point number: a sign and the rank of the absolute value. -/
structure Double where
  negative : Bool
  magnitude : Nat
  magnitude_lt : magnitude < Nat.pow 2 63
deriving DecidableEq

namespace Double

/-! ## Rounding -/

/-- The integer nearest to `num / den`, a tie going to the even one. -/
def roundQuotient (num den : Nat) : Nat :=
  let floor := num / den
  let rest := 2 * (num % den)
  if rest < den then floor
  else if den < rest then floor + 1
  else floor + floor % 2

/-- The quotient `num / (den * 2 ^ q)` for an exponent of either sign, as a numerator and
a denominator. -/
def scaled (num den : Nat) (q : Int) : Nat × Nat :=
  if 0 ≤ q then (num, den * Nat.pow 2 q.toNat) else (num * Nat.pow 2 (-q).toNat, den)

/-- The exponent of the last place of `num / den`: the one that leaves 53 binary digits
before the point, or the smallest there is. -/
def lastPlace (num den : Nat) : Int :=
  let guess : Int := (num.log2 : Int) - (den.log2 : Int) - 52
  let (n, d) := scaled num den guess
  let q := if n / d < Nat.pow 2 52 then guess - 1 else guess
  max q (-1074)

/-- The rank nearest to `num / den`, at most that of infinity. -/
def roundRank (num den : Nat) : Nat :=
  if num = 0 then 0
  else
    let q := lastPlace num den
    let (n, d) := scaled num den q
    min infinityRank ((q + 1074).toNat * Nat.pow 2 52 + roundQuotient n d)

theorem roundRank_le (num den : Nat) : roundRank num den ≤ infinityRank := by
  unfold roundRank
  split
  · exact Nat.zero_le _
  · exact Nat.min_le_left _ _

/-- The number of the given sign nearest to `num / den`. -/
def ofQuotient (negative : Bool) (num den : Nat) : Double :=
  ⟨negative, roundRank num den,
    Nat.lt_of_le_of_lt (roundRank_le num den) (by decide)⟩

/-! ## Particular numbers and classes -/

/-- Positive zero. -/
def zero : Double := ⟨false, 0, by decide⟩

instance : Inhabited Double := ⟨zero⟩

/-- One. -/
def one : Double := ⟨false, 1023 * Nat.pow 2 52, by decide⟩

/-- Infinity of the given sign. -/
def infinity (negative : Bool) : Double := ⟨negative, infinityRank, by decide⟩

/-- The number that is not one. -/
def nan : Double := ⟨false, infinityRank + Nat.pow 2 51, by decide⟩

/-- Whether `x` is not a number. -/
def isNaN (x : Double) : Bool := infinityRank < x.magnitude

/-- Whether `x` is infinite. -/
def isInfinite (x : Double) : Bool := x.magnitude == infinityRank

/-- Whether `x` is a finite number. -/
def isFinite (x : Double) : Bool := x.magnitude < infinityRank

/-- Whether `x` is a zero of either sign. -/
def isZero (x : Double) : Bool := x.magnitude == 0

/-- The number of the opposite sign. -/
def neg (x : Double) : Double := { x with negative := !x.negative }

/-- The bits of `x`, the sign first; all numbers that are not one share one pattern. -/
def bits (x : Double) : Nat :=
  if x.isNaN then infinityRank + Nat.pow 2 51
  else (if x.negative then Nat.pow 2 63 else 0) + x.magnitude

/-! ## Order -/

/-- The place of `x` among the numbers, both zeros at 0. -/
def key (x : Double) : Int := if x.negative then -(x.magnitude : Int) else x.magnitude

/-- `x < y`, never true of a number that is not one. -/
def lt (x y : Double) : Bool := !x.isNaN && !y.isNaN && x.key < y.key

/-- `x ≤ y`, never true of a number that is not one. -/
def le (x y : Double) : Bool := !x.isNaN && !y.isNaN && x.key ≤ y.key

/-- Equality as numbers: both zeros are equal, and what is not a number equals nothing. -/
def same (x y : Double) : Bool := !x.isNaN && !y.isNaN && x.key == y.key

/-! ## Exact values -/

/-- The absolute value of a finite number in units of `2 ^ -1074`, the smallest positive
number. -/
def units (x : Double) : Nat :=
  let exponent := x.magnitude / Nat.pow 2 52
  let fraction := x.magnitude % Nat.pow 2 52
  if exponent = 0 then fraction else (Nat.pow 2 52 + fraction) * Nat.pow 2 (exponent - 1)

/-- The value of a finite number in units of `2 ^ -1074`. -/
def signedUnits (x : Double) : Int := if x.negative then -(x.units : Int) else x.units

/-- The integer that `x` equals, if there is one. -/
def toInt? (x : Double) : Option Int :=
  if x.isFinite && x.units % Nat.pow 2 1074 == 0 then
    some (x.signedUnits.tdiv (Int.pow 2 1074))
  else none

/-- The number nearest to an integer. -/
def ofInt (n : Int) : Double := ofQuotient (n < 0) n.natAbs 1

/-- The number nearest to `digits * 10 ^ exponent`. Exponents far outside the range give
infinity or zero without being computed. -/
def ofDecimal (negative : Bool) (digits : Nat) (exponent : Int) : Double :=
  let size : Int := (digits.log2 : Int) / 3 + 1
  if digits = 0 then ⟨negative, 0, by decide⟩
  else if 400 < exponent then infinity negative
  else if exponent + size < -400 then ⟨negative, 0, by decide⟩
  else if 0 ≤ exponent then ofQuotient negative (digits * Nat.pow 10 exponent.toNat) 1
  else ofQuotient negative digits (Nat.pow 10 (-exponent).toNat)

/-! ## Arithmetic -/

/-- The sum, rounded once. -/
def add (x y : Double) : Double :=
  if x.isNaN || y.isNaN then nan
  else if x.isInfinite then
    if y.isInfinite && x.negative != y.negative then nan else x
  else if y.isInfinite then y
  else
    let sum := x.signedUnits + y.signedUnits
    if sum = 0 then { zero with negative := x.negative && y.negative }
    else ofQuotient (sum < 0) sum.natAbs (Nat.pow 2 1074)

/-- The difference, rounded once. -/
def sub (x y : Double) : Double := x.add y.neg

/-- The product, rounded once. -/
def mul (x y : Double) : Double :=
  let negative := x.negative != y.negative
  if x.isNaN || y.isNaN then nan
  else if x.isInfinite || y.isInfinite then
    if x.isZero || y.isZero then nan else infinity negative
  else ofQuotient negative (x.units * y.units) (Nat.pow 2 2148)

/-- The quotient of `x` by a `y` that is not zero, rounded once. -/
def div (x y : Double) : Double :=
  let negative := x.negative != y.negative
  if x.isNaN || y.isNaN then nan
  else if x.isInfinite then if y.isInfinite then nan else infinity negative
  else if y.isInfinite then ⟨negative, 0, by decide⟩
  else if y.isZero then if x.isZero then nan else infinity negative
  else ofQuotient negative x.units y.units

/-! ## The order is that of the keys -/

theorem lt_of_lt_of_le {x y z : Double} (hxy : x.lt y = true) (hyz : y.le z = true) :
    x.lt z = true := by
  simp only [lt, le, Bool.and_eq_true, Bool.not_eq_eq_eq_not, Bool.not_true,
    decide_eq_true_eq] at *
  exact ⟨⟨hxy.1.1, hyz.1.2⟩, by omega⟩

end Double

end StockRegister
