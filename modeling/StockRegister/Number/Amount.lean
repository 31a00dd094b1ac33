import StockRegister.Number.Decimal

/-!
# Amounts

A price may be given as a whole number or as a floating-point number, and keeps the form in
which it was given. Two whole numbers are added and subtracted exactly; every quotient is a
floating-point number, rounded once from the exact value of its two operands. A whole number
that is larger than all floating-point numbers takes no part in their arithmetic.
-/

namespace StockRegister

/-- A whole number or a floating-point number. -/
inductive Amount where
  | whole (n : Int)
  | real (x : Double)
deriving DecidableEq

namespace Amount

/-- Whether an amount is zero. -/
def isZero : Amount → Bool
  | whole n => n == 0
  | real x => x.isZero

/-- The floating-point number nearest to an amount. -/
def toDouble : Amount → Double
  | whole n => Double.ofInt n
  | real x => x

/-- The amount as a floating-point number, unless it is larger than all of them. -/
def toDouble? : Amount → Option Double
  | whole n => if (Double.ofInt n).isFinite then some (Double.ofInt n) else none
  | real x => some x

/-- Whether an amount is below an integer that a floating-point number can hold. -/
def below (x : Amount) (bound : Int) : Bool :=
  match x with
  | whole n => n < bound
  | real x => x.lt (Double.ofInt bound)

/-- The sum, exact for two whole numbers. -/
def add? : Amount → Amount → Option Amount
  | whole m, whole n => some (whole (m + n))
  | x, y => do return real ((← x.toDouble?).add (← y.toDouble?))

/-- The difference, exact for two whole numbers. -/
def sub? : Amount → Amount → Option Amount
  | whole m, whole n => some (whole (m - n))
  | x, y => do return real ((← x.toDouble?).sub (← y.toDouble?))

/-- The quotient by an amount that is not zero, rounded once. -/
def div? : Amount → Amount → Option Double
  | whole m, whole n =>
    let quotient := Double.ofQuotient ((m < 0) != (n < 0)) m.natAbs n.natAbs
    if quotient.isFinite then some quotient else none
  | x, y => do return (← x.toDouble?).div (← y.toDouble?)

/-- The text of an amount. -/
def text : Amount → String
  | whole n => toString n
  | real x => x.text .report

end Amount

end StockRegister
