/-!
# Sorting by runs

`runSort` sorts a list by a comparison that need not be an order, as the comparison of numbers
is none where something is not a number. So the result depends on which items are compared,
and the course of the sort is fixed: the list is cut into runs that are in order, each of
them at least `leastRun` long (`takeRun`), and neighbouring runs are merged as their powers
demand (`collapse`), so that the tree of merges is balanced.

A merge of two runs first drops what is in place at both ends and then takes the items from
the side of the shorter run. It compares heads (`Merge.frontPlain`, `Merge.backPlain`) until one
side has won often enough in a row, and then looks by strides how many items win at once
(`Merge.frontGallop`, `Merge.backGallop`); the number that is often enough (`patience`) grows and
shrinks with success.
-/

namespace StockRegister.RunSort

variable {α : Type}

/-- How often in a row a side has to win before items are looked for by strides. -/
def leastPatience : Nat := 7

/-! ## Places -/

/-- The first place from `low` on up to `high` where `p` fails, found by halving. -/
def halve (p : Nat → Bool) : Nat → Nat → Nat → Nat
  | 0, low, _ => low
  | fuel + 1, low, high =>
    if low < high then
      let middle := low + (high - low) / 2
      if p middle then halve p fuel (middle + 1) high else halve p fuel low middle
    else low

/-- Strides of growing length while `p` holds: the last that was good, and the next one. -/
def strides (p : Nat → Bool) (most : Nat) : Nat → Nat → Nat → Nat × Nat
  | 0, last, next => (last, next)
  | fuel + 1, last, next =>
    if next < most && p next then strides p most fuel next (2 * next + 1) else (last, next)

/-- The first place among `count` where `p` fails, found by strides from a place on. -/
def firstFailure (p : Nat → Bool) (count start : Nat) : Nat :=
  if p start then
    let most := count - start
    let (last, next) := strides (fun k => p (start + k)) most count 0 1
    halve p (count + 1) (start + last + 1) (start + min next most)
  else
    let most := start + 1
    let (last, next) := strides (fun k => !p (start - k)) most count 0 1
    halve p (count + 1) (start + 1 - min next most) (start - last)

/-- A test of the item at a place of an array. -/
def testAt (xs : Array α) (p : α → Bool) (k : Nat) : Bool := xs[k]?.any p

/-! ## Runs -/

/-- The length of the run that goes on from an item, and whether the order is reversed in it. -/
def runTail (before : α → α → Bool) (falling : Bool) : α → List α → Nat
  | _, [] => 0
  | x, y :: rest => if before y x == falling then runTail before falling y rest + 1 else 0

/-- The run at the head of a list, brought into order, and the rest. -/
def headRun (before : α → α → Bool) : List α → List α × List α
  | [] => ([], [])
  | [x] => ([x], [])
  | x :: y :: rest =>
    let falling := before y x
    let count := runTail before falling y rest + 2
    let run := (x :: y :: rest).take count
    (if falling then run.reverse else run, (x :: y :: rest).drop count)

/-- A list in order with one item more, behind all items that do not have to follow it. -/
def insertSorted (before : α → α → Bool) (sorted : List α) (x : α) : List α :=
  let place :=
    halve (testAt sorted.toArray fun y => !before x y) (sorted.length + 1) 0 sorted.length
  sorted.take place ++ x :: sorted.drop place

/-- A run of at least `least` items from the head of a list, if it has so many, and the rest. -/
def takeRun (before : α → α → Bool) (least : Nat) (xs : List α) : List α × List α :=
  let (run, rest) := headRun before xs
  let more := least - run.length
  ((rest.take more).foldl (insertSorted before) run, rest.drop more)

/-- The least length of runs: the leading six binary digits of the count, rounded up. -/
def leastRun : Nat → Nat → Nat → Nat
  | 0, count, _ => count
  | fuel + 1, count, lost =>
    if count < 64 then count + lost else leastRun fuel (count / 2) (max lost (count % 2))

/-! ## Merging -/

/-- A merge in progress: a left run and a right run, how many items of each are left, the
items that were taken, the patience now and at the end, and the wins in a row. -/
structure Merge (α : Type) where
  left : Array α
  right : Array α
  leftCount : Nat
  rightCount : Nat
  taken : List α := []
  patience : Nat
  saved : Nat

/-- The items of an array from a place on. -/
def itemsFrom (xs : Array α) (start : Nat) : List α := xs.toList.drop start

/-- The first `count` items of an array. -/
def itemsUpTo (xs : Array α) (count : Nat) : List α := xs.toList.take count

namespace Merge

/-! ### From the front

Items are taken in order; `taken` is in reverse. -/

/-- The place of the first item that is left of the left run. -/
def leftAt (m : Merge α) : Nat := m.left.size - m.leftCount

@[inherit_doc leftAt] def rightAt (m : Merge α) : Nat := m.right.size - m.rightCount

/-- Take the next items of the left run. -/
def takeLeft (m : Merge α) (count : Nat) : Merge α :=
  { m with
    taken := ((itemsFrom m.left m.leftAt).take count).reverse ++ m.taken
    leftCount := m.leftCount - count }

/-- Take the next items of the right run. -/
def takeRight (m : Merge α) (count : Nat) : Merge α :=
  { m with
    taken := ((itemsFrom m.right m.rightAt).take count).reverse ++ m.taken
    rightCount := m.rightCount - count }

/-- The result when one of the runs is used up. -/
def frontDone (m : Merge α) : List α × Nat :=
  (m.taken.reverse ++ itemsFrom m.left m.leftAt ++ itemsFrom m.right m.rightAt, m.saved)

/-- The result when one item of the left run is left, which belongs at the end. -/
def frontLast (m : Merge α) : List α × Nat :=
  (m.taken.reverse ++ itemsFrom m.right m.rightAt ++ itemsFrom m.left m.leftAt, m.saved)

/-- Whether the next item of the right run has to come before that of the left one. -/
def rightWins (before : α → α → Bool) (m : Merge α) : Bool :=
  testAt m.right (fun y => testAt m.left (fun x => before y x) m.leftAt) m.rightAt

mutual

/-- Compare the heads of the runs until one of them has won often enough. -/
def frontPlain (before : α → α → Bool) (wins losses : Nat) :
    Nat → Merge α → List α × Nat
  | 0, m => m.frontDone
  | fuel + 1, m =>
    if m.rightWins before then
      let m := m.takeRight 1
      if m.rightCount = 0 then m.frontDone
      else if m.patience ≤ wins + 1 then
        frontGallop before fuel { m with patience := m.patience + 1 }
      else frontPlain before (wins + 1) 0 fuel m
    else
      let m := m.takeLeft 1
      if m.leftCount = 1 then m.frontLast
      else if m.patience ≤ losses + 1 then
        frontGallop before fuel { m with patience := m.patience + 1 }
      else frontPlain before 0 (losses + 1) fuel m

/-- Take from both runs in turn as many items as come before the head of the other one. -/
def frontGallop (before : α → α → Bool) : Nat → Merge α → List α × Nat
  | 0, m => m.frontDone
  | fuel + 1, m =>
    let patience := max 1 (m.patience - 1)
    let m : Merge α := { m with patience := patience, saved := patience }
    let leftStays (k : Nat) : Bool :=
      testAt m.right (fun y => testAt m.left (fun x => !before y x) (m.leftAt + k)) m.rightAt
    let fromLeft := firstFailure leftStays m.leftCount 0
    let m := m.takeLeft fromLeft
    if fromLeft != 0 && m.leftCount == 1 then m.frontLast
    else if m.leftCount = 0 then m.frontDone
    else
      let m := m.takeRight 1
      if m.rightCount = 0 then m.frontDone
      else
        let rightFirst (k : Nat) : Bool :=
          testAt m.left (fun x => testAt m.right (fun y => before y x) (m.rightAt + k)) m.leftAt
        let fromRight := firstFailure rightFirst m.rightCount 0
        let m := m.takeRight fromRight
        if m.rightCount = 0 then m.frontDone
        else
          let m := m.takeLeft 1
          if m.leftCount = 1 then m.frontLast
          else if leastPatience ≤ fromLeft || leastPatience ≤ fromRight then
            frontGallop before fuel m
          else
            frontPlain before 0 0 fuel
              { m with patience := m.patience + 1, saved := m.patience + 1 }

end

/-- Merge from the front; the first item of the right run is known to come first. -/
def fromFront (before : α → α → Bool) (m : Merge α) : List α × Nat :=
  let m := m.takeRight 1
  if m.rightCount = 0 then m.frontDone
  else if m.leftCount = 1 then m.frontLast
  else frontPlain before 0 0 (4 * (m.leftCount + m.rightCount) + 4) m

/-! ### From the back

Items are taken in reverse, so that `taken` is in order. -/

/-- Take the last items of the left run. -/
def takeLeftEnd (m : Merge α) (count : Nat) : Merge α :=
  { m with
    taken := (itemsUpTo m.left m.leftCount).drop (m.leftCount - count) ++ m.taken
    leftCount := m.leftCount - count }

/-- Take the last items of the right run. -/
def takeRightEnd (m : Merge α) (count : Nat) : Merge α :=
  { m with
    taken := (itemsUpTo m.right m.rightCount).drop (m.rightCount - count) ++ m.taken
    rightCount := m.rightCount - count }

/-- The result when one of the runs is used up. -/
def backDone (m : Merge α) : List α × Nat :=
  (itemsUpTo m.left m.leftCount ++ itemsUpTo m.right m.rightCount ++ m.taken, m.saved)

/-- The result when one item of the right run is left, which belongs at the front. -/
def backLast (m : Merge α) : List α × Nat :=
  (itemsUpTo m.right m.rightCount ++ itemsUpTo m.left m.leftCount ++ m.taken, m.saved)

/-- Whether the last item of the right run has to come before that of the left one. -/
def rightEndWins (before : α → α → Bool) (m : Merge α) : Bool :=
  testAt m.right (fun y => testAt m.left (fun x => before y x) (m.leftCount - 1))
    (m.rightCount - 1)

mutual

/-- Compare the ends of the runs until one of them was taken often enough. -/
def backPlain (before : α → α → Bool) (wins losses : Nat) : Nat → Merge α → List α × Nat
  | 0, m => m.backDone
  | fuel + 1, m =>
    if m.rightEndWins before then
      let m := m.takeLeftEnd 1
      if m.leftCount = 0 then m.backDone
      else if m.patience ≤ wins + 1 then
        backGallop before fuel { m with patience := m.patience + 1 }
      else backPlain before (wins + 1) 0 fuel m
    else
      let m := m.takeRightEnd 1
      if m.rightCount = 1 then m.backLast
      else if m.patience ≤ losses + 1 then
        backGallop before fuel { m with patience := m.patience + 1 }
      else backPlain before 0 (losses + 1) fuel m

/-- Take from both runs in turn as many items as come after the end of the other one. -/
def backGallop (before : α → α → Bool) : Nat → Merge α → List α × Nat
  | 0, m => m.backDone
  | fuel + 1, m =>
    let patience := max 1 (m.patience - 1)
    let m : Merge α := { m with patience := patience, saved := patience }
    let leftStays (k : Nat) : Bool :=
      testAt m.right (fun y => testAt m.left (fun x => !before y x) k) (m.rightCount - 1)
    let fromLeft := m.leftCount - firstFailure leftStays m.leftCount (m.leftCount - 1)
    let m := m.takeLeftEnd fromLeft
    if m.leftCount = 0 then m.backDone
    else
      let m := m.takeRightEnd 1
      if m.rightCount = 1 then m.backLast
      else
        let rightFirst (k : Nat) : Bool :=
          testAt m.left (fun x => testAt m.right (fun y => before y x) k) (m.leftCount - 1)
        let fromRight := m.rightCount - firstFailure rightFirst m.rightCount (m.rightCount - 1)
        let m := m.takeRightEnd fromRight
        if fromRight != 0 && m.rightCount == 1 then m.backLast
        else if m.rightCount = 0 then m.backDone
        else
          let m := m.takeLeftEnd 1
          if m.leftCount = 0 then m.backDone
          else if leastPatience ≤ fromLeft || leastPatience ≤ fromRight then
            backGallop before fuel m
          else
            backPlain before 0 0 fuel
              { m with patience := m.patience + 1, saved := m.patience + 1 }

end

/-- Merge from the back; the last item of the left run is known to come last. -/
def fromBack (before : α → α → Bool) (m : Merge α) : List α × Nat :=
  let m := m.takeLeftEnd 1
  if m.leftCount = 0 then m.backDone
  else if m.rightCount = 1 then m.backLast
  else backPlain before 0 0 (4 * (m.leftCount + m.rightCount) + 4) m

end Merge

/-- Two neighbouring runs merged, and the patience after it. -/
def mergeRuns (before : α → α → Bool) (left right : List α) (patience : Nat) : List α × Nat :=
  let lefts := left.toArray
  let rights := right.toArray
  let inPlace := firstFailure
    (fun k => testAt rights (fun y => testAt lefts (fun x => !before y x) k) 0) lefts.size 0
  if inPlace = lefts.size then (left ++ right, patience)
  else
    let last := lefts.size - 1
    let moving := firstFailure
      (fun k => testAt lefts (fun x => testAt rights (fun y => before y x) k) last) rights.size
      (rights.size - 1)
    if moving = 0 then (left ++ right, patience)
    else
      let leftRest := left.drop inPlace
      let rightRest := right.take moving
      let m : Merge α :=
        { left := leftRest.toArray, right := rightRest.toArray
          leftCount := leftRest.length, rightCount := moving
          patience := patience, saved := patience }
      let (merged, patience) :=
        if leftRest.length ≤ moving then m.fromFront before else m.fromBack before
      (left.take inPlace ++ merged ++ right.drop moving, patience)

/-! ## The tree of merges -/

/-- A run that waits to be merged: where it starts, its items, and the power of the boundary
behind it. -/
structure Waiting (α : Type) where
  start : Nat
  items : List α
  power : Nat

/-- The power of the boundary between two runs: the first binary digit in which the places of
their middles differ, as parts of the whole. Both places are given doubled. -/
def boundaryPower (whole : Nat) : Nat → Nat → Nat → Nat
  | 0, _, _ => 0
  | fuel + 1, a, b =>
    if whole ≤ a then boundaryPower whole fuel (2 * (a - whole)) (2 * (b - whole)) + 1
    else if whole ≤ b then 1
    else boundaryPower whole fuel (2 * a) (2 * b) + 1

/-- Merge the last waiting runs while the boundary between them has more power than a new one. -/
def collapse (before : α → α → Bool) (power : Nat) :
    List (Waiting α) → Nat → List (Waiting α) × Nat
  | right :: left :: rest, patience =>
    if power < left.power then
      let (items, patience) := mergeRuns before left.items right.items patience
      collapse before power (⟨left.start, items, left.power⟩ :: rest) patience
    else (right :: left :: rest, patience)
  | waiting, patience => (waiting, patience)
termination_by waiting => waiting.length

/-- A run more among those that wait, of which the last comes first. -/
def addRun (before : α → α → Bool) (whole : Nat) (run : List α) (waiting : List (Waiting α))
    (patience : Nat) : List (Waiting α) × Nat :=
  match waiting with
  | [] => ([⟨0, run, 0⟩], patience)
  | last :: rest =>
    let a := 2 * last.start + last.items.length
    let start := last.start + last.items.length
    let power := boundaryPower whole (whole.log2 + 4) a (a + last.items.length + run.length)
    match collapse before power (last :: rest) patience with
    | (last :: rest, patience) =>
      (⟨start, run, 0⟩ :: { last with power := power } :: rest, patience)
    | ([], patience) => ([⟨start, run, 0⟩], patience)

/-- All runs of a list, added one after the other. -/
def addRuns (before : α → α → Bool) (whole least : Nat) :
    Nat → List α → List (Waiting α) → Nat → List (Waiting α) × Nat
  | 0, _, waiting, patience => (waiting, patience)
  | _, [], waiting, patience => (waiting, patience)
  | fuel + 1, xs, waiting, patience =>
    let (run, rest) := takeRun before least xs
    let (waiting, patience) := addRun before whole run waiting patience
    addRuns before whole least fuel rest waiting patience

/-- All waiting runs merged, a shorter one before a longer one. -/
def mergeAll (before : α → α → Bool) : List (Waiting α) → Nat → List α
  | [], _ => []
  | [run], _ => run.items
  | [right, left], patience => (mergeRuns before left.items right.items patience).1
  | right :: middle :: left :: rest, patience =>
    if left.items.length < right.items.length then
      let (items, patience) := mergeRuns before left.items middle.items patience
      mergeAll before (right :: ⟨left.start, items, left.power⟩ :: rest) patience
    else
      let (items, patience) := mergeRuns before middle.items right.items patience
      mergeAll before (⟨middle.start, items, middle.power⟩ :: left :: rest) patience
termination_by waiting => waiting.length

/-- A list sorted by a comparison. -/
def runSort (before : α → α → Bool) (xs : List α) : List α :=
  let whole := xs.length
  let (waiting, patience) :=
    addRuns before whole (leastRun (whole + 1) whole 0) (whole + 1) xs [] leastPatience
  mergeAll before waiting patience

end StockRegister.RunSort
