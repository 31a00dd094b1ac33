/-!
# Similar names

Two names are alike in so far as they share runs of characters. `sharedLength` takes the
longest run that both have, and then those on both sides of it. `likeNames` gives, of some
names, the few that are most like a word: what was probably meant where a name is unknown.
-/

namespace StockRegister.Text

/-- The number of characters that two texts share at their heads. -/
def sharedStart : List Char → List Char → Nat
  | c :: cs, d :: ds => if c == d then sharedStart cs ds + 1 else 0
  | _, _ => 0

/-- A run of characters in two texts: its place in each of them, and its length. -/
structure SharedRun where
  left : Nat
  right : Nat
  length : Nat

/-- The longest run that two texts share; of several the one that starts first in the left text,
and then in the right one. -/
def longestRun (cs ds : List Char) : SharedRun :=
  let runs := (List.range cs.length).flatMap fun i =>
    (List.range ds.length).map fun j =>
      (⟨i, j, sharedStart (cs.drop i) (ds.drop j)⟩ : SharedRun)
  runs.foldl (fun best r => if best.length < r.length then r else best) ⟨0, 0, 0⟩

/-- The number of characters in the runs that two texts share; `fuel` bounds the length of the
left one. -/
def sharedLengthFrom : Nat → List Char → List Char → Nat
  | 0, _, _ => 0
  | fuel + 1, cs, ds =>
    let run := longestRun cs ds
    if run.length = 0 then 0
    else
      sharedLengthFrom fuel (cs.take run.left) (ds.take run.right) + run.length +
        sharedLengthFrom fuel (cs.drop (run.left + run.length)) (ds.drop (run.right + run.length))

/-- The number of characters in the runs that two texts share. -/
def sharedLength (cs ds : List Char) : Nat := sharedLengthFrom cs.length cs ds

/-- How much of a name and a word is shared: a number of characters out of those of both. -/
structure Likeness where
  name : String
  shared : Nat
  total : Nat

namespace Likeness

/-- The likeness of a name and a word. -/
def of (word name : String) : Likeness :=
  ⟨name, sharedLength name.toList word.toList, name.length + word.length⟩

/-- A name is like a word if three of five characters are shared. -/
def isClose (l : Likeness) : Bool := 3 * l.total ≤ 10 * l.shared

/-- Whether the first of two names is the better one; of names that are equally good it is the
one that comes later in the alphabet. -/
def isBetter (l m : Likeness) : Bool :=
  m.shared * l.total < l.shared * m.total ||
    (m.shared * l.total == l.shared * m.total && decide (m.name ≤ l.name))

end Likeness

/-- The most names that are offered for a word. -/
def maxLikeNames : Nat := 3

/-- Those of some names that are most like a word, in the order of the alphabet. -/
def likeNames (names : List String) (word : String) : List String :=
  let close := (names.map (Likeness.of word)).filter Likeness.isClose
  let best := (close.mergeSort Likeness.isBetter).take maxLikeNames
  (best.map (·.name)).mergeSort fun s t => decide (s ≤ t)

end StockRegister.Text
