import StockRegister.Text

/-!
# Pieces of a text

A sequence of characters or code points may be cut at every mark (`pieces`) or at the first
one only (`cutAtFirst`). The marks themselves are in no piece, and a sequence without a mark is
its own only piece. `hasPart` says whether one sequence stands in another without a gap.
-/

namespace StockRegister.Text

variable {α : Type} [BEq α]

/-- The pieces of a sequence between marks. -/
def pieces (mark : α) : List α → List (List α)
  | [] => [[]]
  | c :: cs =>
    if c == mark then [] :: pieces mark cs
    else
      match pieces mark cs with
      | [] => [[c]]
      | p :: ps => (c :: p) :: ps

/-- What stands before the first mark, and what stands after it if there is one. -/
def cutAtFirst (mark : α) : List α → List α × Option (List α)
  | [] => ([], none)
  | c :: cs =>
    if c == mark then ([], some cs)
    else
      let (before, after) := cutAtFirst mark cs
      (c :: before, after)

/-- Whether a sequence has a part. -/
def hasPart (part : List α) : List α → Bool
  | [] => part.isEmpty
  | c :: cs => part.isPrefixOf (c :: cs) || hasPart part cs

/-- Whether a text has another one as a part. -/
def contains (t part : Text) : Bool := hasPart part.points t.points

theorem pieces_ne_nil (mark : α) (cs : List α) : pieces mark cs ≠ [] := by
  cases cs with
  | nil => simp [pieces]
  | cons c cs =>
    simp only [pieces]
    split
    · simp
    · split <;> simp

/-- A sequence without a mark is its own only piece. -/
theorem pieces_of_not_mem [LawfulBEq α] {mark : α} {cs : List α} (h : mark ∉ cs) :
    pieces mark cs = [cs] := by
  induction cs with
  | nil => rfl
  | cons c cs ih =>
    have hc : (c == mark) = false := by
      simp only [beq_eq_false_iff_ne]
      rintro rfl
      exact h List.mem_cons_self
    have hcs : mark ∉ cs := fun hmem => h (List.mem_cons_of_mem _ hmem)
    simp [pieces, hc, ih hcs]

end StockRegister.Text
