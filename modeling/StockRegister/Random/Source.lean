import StockRegister.Number.Amount
import StockRegister.Random.Digest
import StockRegister.Random.Twister

/-!
# Random sources

A `RandomSource` yields draws one after the other: those of a list, over and over, or those
of a generator. `RandomSource.take` is the list of its next draws.

The seed of a generator is an integer. A floating-point number is a seed by its residue modulo
a prime, for which a quotient by a power of two is an integer too. A text is a seed by its bytes
and their digest.
-/

namespace StockRegister

/-- Where random draws come from. -/
inductive RandomSource where
  | cycle (head : Double) (tail : List Double)
  | twister (t : Twister)

namespace RandomSource

/-- The source that replays a list, if the list is not empty. -/
def ofList? : List Double → Option RandomSource
  | [] => none
  | x :: xs => some (cycle x xs)

/-- The source of a seed. -/
def ofSeed (seed : Int) : RandomSource := twister (Twister.ofSeed seed)

/-- The prime modulo which a floating-point number is a seed. -/
def seedPrime : Nat := Nat.pow 2 61 - 1

/-- The seed that a floating-point number is. The smallest positive number is `2 ^ -1074`, which
is `2 ^ 24` modulo the prime. Infinity has a seed of its own, and the seed of a negative number
is taken from `2 ^ 64`, which leaves out 1. -/
def seedOfDouble (x : Double) : Nat :=
  let size := if x.isFinite then x.units * Nat.pow 2 24 % seedPrime else 314159
  if !x.negative || size = 0 then size else Nat.pow 2 64 - max size 2

/-- The source of a number as the seed. -/
def ofAmount : Amount → RandomSource
  | .whole n => ofSeed n
  | .real x => ofSeed (seedOfDouble x)

/-- The source of a text as the seed. -/
def ofText (s : String) : RandomSource := ofSeed (Digest.seedOfText s)

/-- The next draw, and the source after it. -/
def next : RandomSource → Double × RandomSource
  | cycle x [] => (x, cycle x [])
  | cycle x (y :: ys) => (x, cycle y (ys ++ [x]))
  | twister t => (t.draw.1, twister t.draw.2)

/-- The next `n` draws. -/
def take : Nat → RandomSource → List Double
  | 0, _ => []
  | n + 1, s => s.next.1 :: take n s.next.2

/-- The source after `n` draws. -/
def drop : Nat → RandomSource → RandomSource
  | 0, s => s
  | n + 1, s => drop n s.next.2

end RandomSource

end StockRegister
