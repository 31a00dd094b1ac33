import StockRegister.Schema.Problem

/-!
# Checked results

A `Checked α` is a value of type `α`, or the problems that stand in its way. Where a result
is put together from several checked parts, the problems of all parts are kept, in the order
of the parts.
-/

namespace StockRegister.Schema

/-- A result, or what stands in its way. -/
inductive Checked (α : Type) where
  | ok (a : α)
  | bad (problems : List Problem)

namespace Checked

variable {α β : Type}

/-- A checked function applied to a checked argument; problems of both are kept. -/
def apply : Checked (α → β) → Checked α → Checked β
  | ok f, ok a => ok (f a)
  | ok _, bad qs => bad qs
  | bad ps, ok _ => bad ps
  | bad ps, bad qs => bad (ps ++ qs)

instance : Applicative Checked where
  pure := ok
  seq f a := apply f (a ())

/-- The next check, made on the result of the first. -/
def bind : Checked α → (α → Checked β) → Checked β
  | ok a, f => f a
  | bad ps, _ => bad ps

/-- One problem with the value itself. -/
def fail (fault : Fault) : Checked α := bad [⟨fault, []⟩]

/-- The check of a part, seen from the whole. -/
def under (step : Step) : Checked α → Checked α
  | ok a => ok a
  | bad ps => bad (ps.map (Problem.under step))

/-- The result as a value or a list of problems. -/
def toExcept : Checked α → Except (List Problem) α
  | ok a => .ok a
  | bad ps => .error ps

@[simp] theorem seq_ok_ok (f : α → β) (a : α) : (ok f <*> ok a) = ok (f a) := rfl

@[simp] theorem pure_eq (a : α) : (pure a : Checked α) = ok a := rfl

@[simp] theorem map_ok (f : α → β) (a : α) : f <$> ok a = ok (f a) := rfl

@[simp] theorem map_bad (f : α → β) (ps : List Problem) : f <$> (bad ps : Checked α) = bad ps := rfl

@[simp] theorem under_ok (step : Step) (a : α) : (ok a).under step = ok a := rfl

/-- A combination succeeds exactly if both of its parts do. -/
theorem seq_eq_ok {f : Checked (α → β)} {a : Checked α} {b : β} :
    (f <*> a) = ok b ↔ ∃ g x, f = ok g ∧ a = ok x ∧ g x = b := by
  show apply f a = ok b ↔ _
  cases f <;> cases a <;> simp [apply]

theorem under_eq_ok {step : Step} {a : Checked α} {x : α} : a.under step = ok x ↔ a = ok x := by
  cases a <;> simp [under]

end Checked

end StockRegister.Schema
