/-!
# Digests

The digest of a sequence of bytes is a number of 512 bits, by which a text becomes a seed
(`seedOfText`). It is the SHA-512 function. The bytes are padded to whole blocks of sixteen
words of 64 bits. Each block is spread to eighty words (`schedule`), which are stirred one after
the other into a state of eight words (`stir`), and the state after the block is added to the
one before it.

The constants are the first bits behind the point of roots of the primes (`rootFraction`), so
that they are computed here and not listed.
-/

namespace StockRegister.Digest

/-! ## Constants -/

/-- Whether a number has no divisor but 1 and itself. -/
def isPrime (n : Nat) : Bool := 2 ≤ n && (List.range n).all fun d => d < 2 || n % d != 0

/-- The first primes, as many as there are rounds. -/
def primes : List Nat := (List.range 410).filter isPrime

/-- The largest number of `bits` bits whose power is at most `n`. -/
def root (power n bits : Nat) : Nat :=
  (List.range bits).foldr
    (fun i r => if Nat.pow (r + Nat.pow 2 i) power ≤ n then r + Nat.pow 2 i else r) 0

/-- The first 64 bits behind the point of a root of a number below `2 ^ 16`. -/
def rootFraction (power n : Nat) : UInt64 := (root power (n * Nat.pow 2 (64 * power)) 80).toUInt64

/-- The constants of the rounds. -/
def roundConstants : List UInt64 := primes.map (rootFraction 3)

/-! ## Blocks -/

/-- The big-endian number of bytes. -/
def ofBytes (bs : List Nat) : Nat := bs.foldl (fun n b => n * 256 + b) 0

/-- The bytes with a mark behind them, zeros up to whole blocks, and their number in bits. -/
def padded (bs : List Nat) : List Nat :=
  let zeros := (239 - bs.length % 128) % 128
  let size := 8 * bs.length
  bs ++ [0x80] ++ List.replicate zeros 0 ++
    (List.range 16).reverse.map fun i => size / Nat.pow 256 i % 256

/-- The sixteen words at the start of bytes. -/
def blockWords (bs : List Nat) : Array UInt64 :=
  ((List.range 16).map fun i => (ofBytes ((bs.drop (8 * i)).take 8)).toUInt64).toArray

/-- A word turned to the right. -/
def turn (x : UInt64) (n : UInt64) : UInt64 := (x >>> n) ||| (x <<< (64 - n))

/-- The words of a block, and those computed from them, up to eighty. -/
def schedule (ws : Array UInt64) : List UInt64 :=
  let extend (ws : Array UInt64) (i : Nat) : Array UInt64 :=
    let v := ws.getD (i + 1) 0
    let w := ws.getD (i + 14) 0
    ws.push (ws.getD i 0 + (turn v 1 ^^^ turn v 8 ^^^ (v >>> 7)) + ws.getD (i + 9) 0 +
      (turn w 19 ^^^ turn w 61 ^^^ (w >>> 6)))
  ((List.range 64).foldl extend ws).toList

/-! ## The state -/

/-- The eight words of the state. -/
structure State where
  a : UInt64
  b : UInt64
  c : UInt64
  d : UInt64
  e : UInt64
  f : UInt64
  g : UInt64
  h : UInt64

/-- The state before the first block. -/
def State.start : State :=
  let word (n : Nat) : UInt64 := rootFraction 2 n
  ⟨word 2, word 3, word 5, word 7, word 11, word 13, word 17, word 19⟩

/-- Stir one word and the constant of its round into the state. -/
def State.stir (s : State) (word : UInt64 × UInt64) : State :=
  let choice := (s.e &&& s.f) ^^^ ((s.e ^^^ 0xFFFFFFFFFFFFFFFF) &&& s.g)
  let majority := (s.a &&& s.b) ^^^ (s.a &&& s.c) ^^^ (s.b &&& s.c)
  let first := s.h + (turn s.e 14 ^^^ turn s.e 18 ^^^ turn s.e 41) + choice + word.1 + word.2
  let second := (turn s.a 28 ^^^ turn s.a 34 ^^^ turn s.a 39) + majority
  ⟨first + second, s.a, s.b, s.c, s.d + first, s.e, s.f, s.g⟩

/-- The sum of two states, word by word. -/
def State.add (s t : State) : State :=
  ⟨s.a + t.a, s.b + t.b, s.c + t.c, s.d + t.d, s.e + t.e, s.f + t.f, s.g + t.g, s.h + t.h⟩

/-- The state after a block. -/
def State.absorb (s : State) (block : List Nat) : State :=
  s.add (((schedule (blockWords block)).zip roundConstants).foldl stir s)

/-- The number of a state, its first word the highest. -/
def State.toNat (s : State) : Nat :=
  [s.a, s.b, s.c, s.d, s.e, s.f, s.g, s.h].foldl (fun n w => n * Nat.pow 2 64 + w.toNat) 0

/-- The state after so many blocks at the start of bytes. -/
def absorbBlocks : Nat → List Nat → State → State
  | 0, _, s => s
  | blocks + 1, bs, s => absorbBlocks blocks (bs.drop 128) (s.absorb (bs.take 128))

/-- The digest of bytes. -/
def digest (bs : List Nat) : Nat :=
  (absorbBlocks ((padded bs).length / 128) (padded bs) State.start).toNat

/-- The seed that a text is: its bytes followed by those of their digest, as one number. -/
def seedOfText (s : String) : Nat :=
  let bs := s.toUTF8.toList.map UInt8.toNat
  ofBytes bs * Nat.pow 2 512 + digest bs

end StockRegister.Digest
