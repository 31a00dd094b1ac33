import StockRegister.Stock
import StockRegister.Store.RunSort

/-!
# Ranking records

Records are ranked by a figure that they may lack: a larger figure comes first, records
without one come last, and records that rank alike keep their order (`ranked`). That fixes
the ranking wherever every figure is a number, and any stable sort will do. A figure that is
not a number is neither before nor after any other, so that the ranking is what comes of
sorting by runs.
-/

namespace StockRegister

/-- Whether a record with the first figure ranks before one with the second. -/
def figureBefore : Option Double → Option Double → Bool
  | some x, some y => y.lt x
  | some _, none => true
  | none, _ => false

/-- Whether a figure is missing or a number. -/
def isComparable (figure : Option Double) : Bool := figure.all (!·.isNaN)

/-- Records with their figures, ranked by them. -/
def ranked (rows : List (Option Double × Stock)) : List (Option Double × Stock) :=
  let before (r s : Option Double × Stock) : Bool := figureBefore r.1 s.1
  if rows.all fun r => isComparable r.1 then rows.mergeSort fun r s => !before s r
  else RunSort.runSort before rows

/-- Records ranked by a figure. -/
def rankBy (figure : Stock → Option Double) (stocks : List Stock) : List Stock :=
  (ranked (stocks.map fun s => (figure s, s))).map Prod.snd

/-- Records ranked by a figure that may fail to be computed. -/
def rankByFigure (figure : Stock → Except FigureError (Option Double)) (stocks : List Stock) :
    Except FigureError (List Stock) := do
  let rows ← stocks.mapM fun s => return (← figure s, s)
  return (ranked rows).map Prod.snd

/-- The first items of a list: `limit` of them, or all but the last `-limit`. -/
def upTo {α : Type} (limit : Int) (xs : List α) : List α :=
  if 0 ≤ limit then xs.take limit.toNat else xs.take (xs.length - (-limit).toNat)

end StockRegister
