import StockRegister.Number.Double

/-!
# The Mersenne Twister

A generator of 32-bit words with a state of 624 words. A seed of any size is spread over the
state through its 32-bit words. Two outputs make one draw, a floating-point number from 0 up
to but not including 1 in steps of `2 ^ -53`; `Twister.steps_lt` bounds their number.
-/

namespace StockRegister

/-- The number of words in the state. -/
def twisterSize : Nat := 624

/-- The state of a generator: its words and the index of the next one to give out. -/
structure Twister where
  words : Array UInt32
  index : Nat

namespace Twister

/-- The state that a single word spreads over. -/
def spreadWord (seed : UInt32) : Array UInt32 :=
  let step (acc : Array UInt32) (i : Nat) : Array UInt32 :=
    let last : UInt32 := acc.getD i 0
    acc.push ((last ^^^ (last >>> 30)) * 1812433253 + (i + 1).toUInt32)
  (List.range (twisterSize - 1)).foldl step #[seed]

/-- Mix a word with its left neighbour. -/
def mix (factor last word : UInt32) : UInt32 := word ^^^ ((last ^^^ (last >>> 30)) * factor)

/-- One step of the first pass over the state: add a word of the seed and its position. -/
def seedStep (key : Array UInt32) (acc : Array UInt32 × Nat × Nat) (_ : Nat) :
    Array UInt32 × Nat × Nat :=
  let (ws, i, j) := acc
  let word := mix 1664525 (ws.getD (i - 1) 0) (ws.getD i 0) + key.getD j 0 + j.toUInt32
  let ws := ws.setIfInBounds i word
  let next := i + 1
  let j := if j + 1 < key.size then j + 1 else 0
  if twisterSize ≤ next then (ws.setIfInBounds 0 (ws.getD (twisterSize - 1) 0), 1, j)
  else (ws, next, j)

/-- One step of the second pass over the state: subtract the position. -/
def settleStep (acc : Array UInt32 × Nat) (_ : Nat) : Array UInt32 × Nat :=
  let (ws, i) := acc
  let word := mix 1566083941 (ws.getD (i - 1) 0) (ws.getD i 0) - i.toUInt32
  let ws := ws.setIfInBounds i word
  let next := i + 1
  if twisterSize ≤ next then (ws.setIfInBounds 0 (ws.getD (twisterSize - 1) 0), 1)
  else (ws, next)

/-- The 32-bit words of a number, the lowest first, at most `fuel` of them. -/
def wordsOf : Nat → Nat → List UInt32
  | 0, _ => []
  | fuel + 1, n => if n = 0 then [] else n.toUInt32 :: wordsOf fuel (n / Nat.pow 2 32)

/-- The words of a seed, at least one. -/
def seedWords (n : Nat) : Array UInt32 :=
  let ws := wordsOf (n.log2 / 32 + 1) n
  if ws.isEmpty then #[0] else ws.toArray

/-- The generator of a seed; its sign does not matter. -/
def ofSeed (seed : Int) : Twister :=
  let key := seedWords seed.natAbs
  let start := spreadWord 19650218
  let (ws, i, _) := (List.range (max twisterSize key.size)).foldl (seedStep key) (start, 1, 0)
  let (ws, _) := (List.range (twisterSize - 1)).foldl settleStep (ws, i)
  ⟨ws.setIfInBounds 0 0x80000000, twisterSize⟩

/-- Renew one word of the state from itself, its right neighbour and the word 397 further. -/
def renewWord (ws : Array UInt32) (i : Nat) : Array UInt32 :=
  let next := ws.getD ((i + 1) % twisterSize) 0
  let y := (ws.getD i 0 &&& 0x80000000) ||| (next &&& 0x7FFFFFFF)
  let twist : UInt32 := if y &&& 1 == 1 then 0x9908B0DF else 0
  ws.setIfInBounds i (ws.getD ((i + 397) % twisterSize) 0 ^^^ (y >>> 1) ^^^ twist)

/-- Renew the whole state. -/
def renew (t : Twister) : Twister := ⟨(List.range twisterSize).foldl renewWord t.words, 0⟩

/-- The word that the generator gives out for a word of its state. -/
def temper (word : UInt32) : UInt32 :=
  let y := word ^^^ (word >>> 11)
  let y := y ^^^ ((y <<< 7) &&& 0x9D2C5680)
  let y := y ^^^ ((y <<< 15) &&& 0xEFC60000)
  y ^^^ (y >>> 18)

/-- The next word, and the generator after it. -/
def nextWord (t : Twister) : UInt32 × Twister :=
  let t := if twisterSize ≤ t.index then t.renew else t
  (temper (t.words.getD t.index 0), { t with index := t.index + 1 })

/-- The number of steps of `2 ^ -53` that two words stand for. -/
def steps (a b : UInt32) : Nat := a.toNat / Nat.pow 2 5 * Nat.pow 2 26 + b.toNat / Nat.pow 2 6

theorem steps_lt (a b : UInt32) : steps a b < Nat.pow 2 53 := by
  have ha := a.toNat_lt
  have hb := b.toNat_lt
  simp only [steps, Nat.pow_eq]
  omega

/-- The next draw, and the generator after it. -/
def draw (t : Twister) : Double × Twister :=
  let (a, t) := t.nextWord
  let (b, t) := t.nextWord
  (Double.ofQuotient false (steps a b) (Nat.pow 2 53), t)

end Twister

end StockRegister
