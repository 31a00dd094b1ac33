import StockRegister.Proofs.Fields
import StockRegister.Proofs.FreshIds
import StockRegister.Proofs.Verdict

/-!
# Rejected errands

Every errand is about one operand (`Errand.operand`) : the whole collection, an id, a symbol or
the details of a new record, if a raw value can be read as such. All five reads of the collection
are about the same one.

An errand is rejected for the verdict on its operand and for nothing else, since what follows the
assessment never rejects and leaves the assessor alone (`Quiet`). So the rejection of an errand is
a function of the settings, the next draw and the operand, and the assessor after it of the
assessor and the operand (`Assessed`, `assessed_handle`). The store has no part in either.
-/

namespace StockRegister

open Schema

/-! ## Verdicts on operands that may not be readable -/

/-- The rejection that a verdict is, if it is one. -/
def Verdict.rejection? : Verdict → Option Rejection
  | proceed => none
  | rejected r => some r

/-- The rejection of what an errand is about; what cannot be read is not assessed. -/
def AssessmentSettings.rejection? (s : AssessmentSettings) (draw : Double) :
    Checked Operand → Option Rejection
  | .ok o => (s.twoChecks draw o).rejection?
  | .bad _ => none

/-- The assessor after the assessment of an operand : the whole collection takes a draw. -/
def Assessor.spend (a : Assessor) (o : Operand) : Assessor :=
  { a with injector := if o = .bulk then a.injector.shouldFail.2 else a.injector }

/-- The assessor after an errand about an operand that may not be readable. -/
def Assessor.spendOn (a : Assessor) : Checked Operand → Assessor
  | .ok o => a.spend o
  | .bad _ => a

/-- Only valid operands are not rejected. -/
theorem AssessmentSettings.isValid_of_rejection?_eq_none {s : AssessmentSettings} {draw : Double}
    {o : Operand} (h : s.rejection? draw (.ok o) = none) : o.IsValid := by
  by_contra ho
  rw [rejection?, twoChecks, if_neg ho] at h
  cases h

theorem Assessor.Follows.spendOn {a : Assessor} {s : AssessmentSettings} (h : a.Follows s)
    (o : Checked Operand) : (a.spendOn o).Follows s := by
  refine ⟨?_, ?_⟩
  · cases o <;> exact h.stages
  · cases o with
    | bad => exact h.probability
    | ok o =>
      simp only [Assessor.spendOn, Assessor.spend]
      split_ifs <;> exact h.probability

/-- The operand that is made of a raw value is one that the operation is about. -/
theorem Operand.isAbout_of_ofValue {op : Operation} {v : Value} {o : Operand}
    (h : ofValue op v = .ok o) : op.IsAbout o := by
  cases op with
  | bulkLookup =>
    cases h
    exact ⟨rfl, rfl⟩
  | _ =>
    obtain ⟨_, -, rfl⟩ := Checked.map_eq_ok.mp h
    exact ⟨rfl, rfl⟩

namespace Desk

/-- What an errand is about. -/
def Errand.operand : Errand → Checked Operand
  | listStocks | listBySector _ | search _ | topGainers | topByMarketCap => .ok .bulk
  | getStock v => Operand.ofValue .lookupById v
  | getStockBySymbol v => Operand.ofValue .lookupBySymbol v
  | createStock details => .ok (.creation details)
  | updateStock v _ => Operand.ofValue .update v
  | updateStockPrice v _ => Operand.ofValue .priceUpdate v
  | deleteStock v => Operand.ofValue .delete v

/-- The rejection with which an errand failed, if it failed with one. -/
def rejection? {α : Type} : Except DeskError α → Option Rejection
  | .error (.rejected r) => some r
  | _ => none

theorem rejection?_map {α β : Type} (f : α → β) (result : Except DeskError α) :
    rejection? (result.map f) = rejection? result := by
  cases result with
  | ok a => rfl
  | error e => cases e <;> rfl

/-- The outcome of an errand at a desk shows the assessment of an operand : the rejection is that
of the operand, and so is what was drawn. -/
structure Assessed {α : Type} (d : Desk) (s : AssessmentSettings) (o : Checked Operand)
    (outcome : Desk × Except DeskError α) : Prop where
  rejection? : rejection? outcome.2 = s.rejection? d.assessor.nextDraw o
  assessor : outcome.1.assessor = d.assessor.spendOn o

/-! ## The assessment -/

section Assessment

variable {d : Desk} {s : AssessmentSettings}

theorem assessed_guardOperand (hd : d.assessor.Follows s) (clock : Clock) {op : Operation}
    {o : Operand} (ho : op.IsAbout o) : Assessed d s (.ok o) (d.guardOperand clock op o) := by
  obtain ⟨t, ht⟩ := Assessor.conclude_eq_twoChecks hd clock op o d.trail
  unfold guardOperand Assessor.evaluate
  rw [Operation.accept_of_isAbout ho, Except.map, ht]
  dsimp only
  cases hverdict : s.twoChecks d.assessor.nextDraw o with
  | proceed =>
    refine ⟨?_, rfl⟩
    rw [AssessmentSettings.rejection?, hverdict]
    rfl
  | rejected r =>
    refine ⟨?_, rfl⟩
    rw [AssessmentSettings.rejection?, hverdict]
    rfl

theorem assessed_guard (hd : d.assessor.Follows s) (clock : Clock) (op : Operation) (v : Value) :
    Assessed d s (Operand.ofValue op v) (d.guard clock op v) := by
  unfold guard
  cases hv : Operand.ofValue op v with
  | bad problems => exact ⟨rfl, rfl⟩
  | ok o => exact assessed_guardOperand hd clock (Operand.isAbout_of_ofValue hv)

end Assessment

/-! ## What follows the assessment -/

/-- An action never rejects, and leaves the assessor alone. -/
structure Quiet {α : Type} (action : Desk → Desk × Except DeskError α) : Prop where
  rejection? : ∀ d, rejection? (action d).2 = none
  assessor : ∀ d, (action d).1.assessor = d.assessor

section Actions

variable {α : Type}

theorem quiet_answer {result : Store → Except DeskError α}
    (h : ∀ s, rejection? (result s) = none) : Quiet (answer result) :=
  ⟨fun d => h d.store, fun _ => rfl⟩

theorem quiet_commit {result : Store → Except DeskError (α × Store)}
    (h : ∀ s, rejection? (result s) = none) : Quiet fun d => d.commit (result d.store) := by
  refine ⟨fun d => ?_, fun d => ?_⟩
  · have hd := h d.store
    cases hresult : result d.store with
    | ok made => rfl
    | error e =>
      rw [hresult] at hd
      cases e with
      | rejected r => cases hd
      | _ => rfl
  · cases hresult : result d.store <;> rfl

theorem rejection?_seek (id : Value) (find : Int → Option α) :
    rejection? (seek id find) = none := by
  unfold seek Value.recordKey
  cases id.toKey? with
  | none => rfl
  | some k =>
    simp only [Except.bind]
    cases id.numericInt?.bind find <;> rfl

theorem rejection?_addRequested (now : Moment) (request : Option StockDetails) (s : Store) :
    rejection? (addRequested now request s) = none := by
  unfold addRequested
  cases request with
  | none => rfl
  | some details =>
    dsimp only
    cases s.add now details <;> rfl

theorem rejection?_keywordRecords (keyword : Value) (s : Store) :
    rejection? (s.keywordRecords keyword) = none := by
  unfold Store.keywordRecords
  split
  · rfl
  · split_ifs <;> rfl

end Actions

/-! ## All errands -/

section Errands

variable {d : Desk} {s : AssessmentSettings}

/-- A quiet action adds nothing to an assessment. -/
theorem Assessed.continueWith {α : Type} {o : Checked Operand}
    {guarded : Desk × Except DeskError Unit} (hg : Assessed d s o guarded)
    {action : Desk → Desk × Except DeskError α} (h : Quiet action) (f : α → Answer) :
    Assessed d s o ((continueWith guarded action).map id (·.map f)) := by
  have hmap : Assessed d s o (Desk.continueWith guarded action) := by
    rcases continueWith_cases guarded action with ⟨e, he, heq⟩ | ⟨hok, heq⟩
    · rw [heq]
      refine ⟨?_, hg.assessor⟩
      rw [← hg.rejection?, he]
      cases e <;> rfl
    · rw [heq]
      refine ⟨?_, (h.assessor guarded.1).trans hg.assessor⟩
      rw [← hg.rejection?, hok]
      exact h.rejection? guarded.1
  refine ⟨?_, hmap.assessor⟩
  rw [Prod.map_snd, rejection?_map]
  exact hmap.rejection?

theorem assessed_answer (hd : d.assessor.Follows s) (clock : Clock) (op : Operation) (v : Value)
    {α : Type} {result : Store → Except DeskError α} (h : ∀ s, rejection? (result s) = none)
    (f : α → Answer) :
    Assessed d s (Operand.ofValue op v)
      ((continueWith (d.guard clock op v) (answer result)).map id (·.map f)) :=
  (assessed_guard hd clock op v).continueWith (quiet_answer h) f

theorem assessed_changeStock (hd : d.assessor.Follows s) (clock : Clock) (op : Operation)
    (v : Value) {α : Type} (change : Store → Int → Option (α × Store)) (f : α → Answer) :
    Assessed d s (Operand.ofValue op v)
      ((d.changeStock clock op v change).map id (·.map f)) := by
  rw [changeStock_eq]
  exact (assessed_guard hd clock op v).continueWith
    (quiet_commit fun s => rejection?_seek v (change s)) f

/-- Every errand shows the assessment of its operand and nothing else. -/
theorem assessed_handle (hd : d.assessor.Follows s) (clock : Clock) (r : Errand) :
    Assessed d s r.operand (d.handle clock r) := by
  cases r with
  | listStocks => exact assessed_answer hd clock .bulkLookup .null (fun _ => rfl) .records
  | listBySector sector => exact assessed_answer hd clock .bulkLookup .null (fun _ => rfl) .records
  | search keyword =>
    exact assessed_answer hd clock .bulkLookup .null (rejection?_keywordRecords keyword) .records
  | topGainers =>
    refine assessed_answer hd clock .bulkLookup .null (fun s => ?_) .records
    cases s.topGainers d.topCount <;> rfl
  | topByMarketCap => exact assessed_answer hd clock .bulkLookup .null (fun _ => rfl) .records
  | getStock v =>
    simp only [handle, getStock_eq]
    exact assessed_answer hd clock .lookupById v (fun s => rejection?_seek v s.get?) .record
  | getStockBySymbol symbol =>
    refine assessed_answer hd clock .lookupBySymbol symbol (fun s => ?_) .record
    split <;> rfl
  | createStock details =>
    simp only [handle, createStock_eq]
    exact (assessed_guardOperand hd clock ⟨rfl, rfl⟩).continueWith
      (quiet_commit (rejection?_addRequested clock.now details)) .record
  | updateStock v details =>
    simp only [handle, updateStock]
    exact assessed_changeStock hd clock .update v _ .record
  | updateStockPrice v p =>
    simp only [handle, updateStockPrice]
    exact assessed_changeStock hd clock .priceUpdate v _ .record
  | deleteStock v =>
    simp only [handle, deleteStock]
    exact assessed_changeStock hd clock .delete v _ fun _ => .done

/-- The assessor of a desk follows its settings whatever is asked. -/
theorem follows_handle (hd : d.assessor.Follows s) (clock : Clock) (r : Errand) :
    (d.handle clock r).1.assessor.Follows s := by
  rw [(assessed_handle hd clock r).assessor]
  exact hd.spendOn r.operand

theorem follows_after (hd : d.assessor.Follows s) (errands : List (Clock × Errand)) :
    (d.after errands).assessor.Follows s := by
  induction errands generalizing d with
  | nil => exact hd
  | cons e errands ih => exact ih (follows_handle hd e.1 e.2)

end Errands

end Desk

end StockRegister
