import StockRegister.Proofs.Rejections

/-!
# The two steps of an errand

Every errand is of one operation (`Errand.operation`) and about one operand (`Errand.operand`). It
is assessed (`Desk.assess`), and if it may proceed it acts on the store : `Errand.act` is what it
makes of the store and what it answers, without a look at the assessor or the trail.

`handle_eq` says that serving an errand is these two steps. An operand that could be read gets the
verdict of its assessment (`assess_ok`), and an errand that did not fail was about a valid operand
and has acted (`act_of_handle`).
-/

namespace StockRegister

open Schema

/-- What an errand comes to by its verdict : it fails with the rejection, or goes on. -/
def Verdict.toExcept : Verdict → Except DeskError Unit
  | proceed => .ok ()
  | rejected r => .error (.rejected r)

/-- A raw value stands for an id : it is read as the id, and equals it as a number. -/
structure Value.Names (v : Value) (i : Int) : Prop where
  read : readInt v = .ok i
  number : v.numericInt? = some i

theorem Value.names_int (i : Int) : (Value.int i).Names i := ⟨rfl, rfl⟩

namespace Desk

/-! ## The steps -/

/-- The first record with the symbol that a raw value is. -/
def seekSymbol (symbol : Value) (s : Store) : Except DeskError Stock :=
  (symbol.toText?.bind s.findBySymbol).elim (.error (.noSymbol symbol)) .ok

theorem seek_of_names {α : Type} {v : Value} {i : Int} (hv : v.Names i) (find : Int → Option α) :
    seek v find = (find i).elim (.error (.noId v)) .ok := by
  obtain ⟨hkey, -⟩ := key_of_readInt hv.read
  obtain ⟨k, hk⟩ := Option.isSome_iff_exists.mp hkey
  simp only [seek, Value.recordKey, hk, Except.bind, hv.number, Option.bind_some]
  cases find i <;> rfl

theorem seek_map {α β : Type} (id : Value) (find : Int → Option α) (f : α → β) :
    seek id (fun key => (find key).map f) = (seek id find).map f := by
  unfold seek
  cases id.recordKey with
  | error e => rfl
  | ok key =>
    cases key with
    | none => rfl
    | some key =>
      simp only [Except.bind, Option.bind_some]
      cases find key <;> rfl

namespace Errand

/-- The operation that an errand is. -/
def operation : Errand → Operation
  | listStocks | listBySector _ | search _ | topGainers | topByMarketCap => .bulkLookup
  | getStock _ => .lookupById
  | getStockBySymbol _ => .lookupBySymbol
  | createStock _ => .create
  | updateStock _ _ => .update
  | updateStockPrice _ _ => .priceUpdate
  | deleteStock _ => .delete

/-- What an errand that may proceed answers, and the store after it. -/
def act (now : Moment) (topCount : Int) (s : Store) : Errand → Except DeskError (Answer × Store)
  | listStocks => .ok (.records s.toList, s)
  | listBySector sector => .ok (.records (s.sectorRecords sector), s)
  | search keyword => (s.keywordRecords keyword).map fun stocks => (.records stocks, s)
  | topGainers => ((s.topGainers topCount).mapError .figure).map fun stocks => (.records stocks, s)
  | topByMarketCap => .ok (.records (s.topByMarketCap topCount), s)
  | getStock v => (seek v s.get?).map fun stock => (.record stock, s)
  | getStockBySymbol symbol => (seekSymbol symbol s).map fun stock => (.record stock, s)
  | createStock details => (addRequested now details s).map fun made => (.record made.1, made.2)
  | updateStock v details =>
    (seek v fun key => s.update now key details).map fun made => (.record made.1, made.2)
  | updateStockPrice v p =>
    (seek v fun key => s.updatePrice now key (.float p.newPrice) (.ofInt? p.volume)).map
      fun made => (.record made.1, made.2)
  | deleteStock v => (seek v s.remove).map fun s' => (.done, s')

/-- The operand of an errand is one that its operation is about. -/
theorem isAbout_of_operand {r : Errand} {o : Operand} (h : r.operand = .ok o) :
    r.operation.IsAbout o := by
  cases r with
  | createStock details =>
    cases h
    exact ⟨rfl, rfl⟩
  | listStocks | listBySector | search | topGainers | topByMarketCap =>
    cases h
    exact ⟨rfl, rfl⟩
  | getStock | getStockBySymbol | updateStock | updateStockPrice | deleteStock =>
    exact Operand.isAbout_of_ofValue h

end Errand

/-- Assess an errand of an operation about an operand, if that could be read. -/
def assess (d : Desk) (clock : Clock) (op : Operation) :
    Checked Operand → Desk × Except DeskError Unit
  | .bad problems => (d, .error (.invalid ⟨op.operandShape.1.title, problems⟩))
  | .ok o => d.guardOperand clock op o

variable (d : Desk) (clock : Clock)

theorem guard_eq (op : Operation) (v : Value) :
    d.guard clock op v = d.assess clock op (Operand.ofValue op v) := by
  unfold guard assess
  cases Operand.ofValue op v <;> rfl

theorem map_continueWith_answer {α : Type} (guarded : Desk × Except DeskError Unit)
    (result : Store → Except DeskError α) (f : α → Answer) :
    (continueWith guarded (answer result)).map id (·.map f) =
      continueWith guarded fun d => d.commit ((result d.store).map fun a => (f a, d.store)) := by
  obtain ⟨d, e | u⟩ := guarded
  · rfl
  · simp only [continueWith, answer, Prod.map, id_eq]
    cases result d.store <;> rfl

theorem map_continueWith_commit {α : Type} (guarded : Desk × Except DeskError Unit)
    (result : Store → Except DeskError (α × Store)) (f : α → Answer) :
    (continueWith guarded fun d => d.commit (result d.store)).map id (·.map f) =
      continueWith guarded fun d =>
        d.commit ((result d.store).map fun made => (f made.1, made.2)) := by
  obtain ⟨d, e | u⟩ := guarded
  · rfl
  · simp only [continueWith, Prod.map, id_eq]
    cases result d.store <;> rfl

/-- Serving an errand is assessing it, and then acting on the store if it may proceed. -/
theorem handle_eq (r : Errand) :
    d.handle clock r = continueWith (d.assess clock r.operation r.operand) fun d' =>
      d'.commit (r.act clock.now d.topCount d'.store) := by
  cases r with
  | listStocks | listBySector | search | topGainers | topByMarketCap =>
    exact map_continueWith_answer (d.guard clock .bulkLookup .null) _ .records
  | getStock v =>
    simp only [handle, getStock_eq, guard_eq]
    exact map_continueWith_answer _ _ .record
  | getStockBySymbol symbol =>
    have hanswer : d.getStockBySymbol clock symbol =
        continueWith (d.guard clock .lookupBySymbol symbol) (answer (seekSymbol symbol)) := by
      unfold getStockBySymbol seekSymbol
      congr 2
      funext s
      cases symbol.toText?.bind s.findBySymbol <;> rfl
    simp only [handle, hanswer, guard_eq]
    exact map_continueWith_answer _ _ .record
  | createStock details =>
    simp only [handle, createStock_eq]
    exact map_continueWith_commit _ _ .record
  | updateStock v details =>
    simp only [handle, updateStock, changeStock_eq, guard_eq]
    exact map_continueWith_commit _ (fun s => seek v fun key => s.update clock.now key details)
      .record
  | updateStockPrice v p =>
    simp only [handle, updateStockPrice, changeStock_eq, guard_eq]
    exact map_continueWith_commit _ (fun s => seek v fun key =>
      s.updatePrice clock.now key (.float p.newPrice) (.ofInt? p.volume)) .record
  | deleteStock v =>
    simp only [handle, deleteStock, changeStock_eq, guard_eq, seek_map]
    refine (map_continueWith_commit _ (fun s => (seek v s.remove).map fun s' => ((), s'))
      fun _ => .done).trans ?_
    congr 1
    funext d'
    simp only [Errand.act]
    cases seek v d'.store.remove <;> rfl

/-- An operand that the operation is about gets the verdict of the assessor, which keeps to the
assessor and the trail. -/
theorem assess_ok {op : Operation} {o : Operand} (ho : op.IsAbout o) :
    d.assess clock op (.ok o) =
      ({ d with
          assessor := (d.assessor.conclude clock op o d.trail).2.1
          trail := (d.assessor.conclude clock op o d.trail).2.2 },
        (d.assessor.conclude clock op o d.trail).1.toExcept) := by
  change d.guardOperand clock op o = _
  unfold guardOperand Assessor.evaluate
  rw [Operation.accept_of_isAbout ho, Except.map]
  dsimp only
  cases (d.assessor.conclude clock op o d.trail).1 <;> rfl

section Outcomes

variable {d} {s : AssessmentSettings} (hd : d.assessor.Follows s)

include hd

theorem assess_snd {op : Operation} {o : Operand} (ho : op.IsAbout o) :
    (d.assess clock op (.ok o)).2 = (s.twoChecks d.assessor.nextDraw o).toExcept := by
  obtain ⟨t, ht⟩ := Assessor.conclude_eq_twoChecks hd clock op o d.trail
  rw [assess_ok d clock ho, ht]

/-- What an errand about an operand comes to : the rejection of its verdict, or what it makes of the
store. -/
theorem handle_cases {r : Errand} {o : Operand} (ho : r.operand = .ok o) :
    (∃ x, s.twoChecks d.assessor.nextDraw o = .rejected x ∧
      (d.handle clock r).2 = .error (.rejected x) ∧ (d.handle clock r).1.store = d.store) ∨
    s.twoChecks d.assessor.nextDraw o = .proceed ∧
      ((∃ e, r.act clock.now d.topCount d.store = .error e ∧
        (d.handle clock r).2 = .error e ∧ (d.handle clock r).1.store = d.store) ∨
      ∃ a s', r.act clock.now d.topCount d.store = .ok (a, s') ∧
        (d.handle clock r).2 = .ok a ∧ (d.handle clock r).1.store = s') := by
  have hassess := assess_ok d clock (Errand.isAbout_of_operand ho)
  obtain ⟨t, ht⟩ := Assessor.conclude_eq_twoChecks hd clock r.operation o d.trail
  rw [ht] at hassess
  rw [handle_eq, ho, hassess]
  cases hverdict : s.twoChecks d.assessor.nextDraw o with
  | rejected x => exact Or.inl ⟨x, rfl, rfl, rfl⟩
  | proceed =>
    refine Or.inr ⟨rfl, ?_⟩
    simp only [Verdict.toExcept, continueWith]
    cases hact : r.act clock.now d.topCount d.store with
    | error e => exact Or.inl ⟨e, rfl, rfl, rfl⟩
    | ok made => exact Or.inr ⟨made.1, made.2, rfl, rfl, rfl⟩

/-- An errand that did not fail is about a valid operand, and has acted on the store. -/
theorem act_of_handle {r : Errand} {d' : Desk} {a : Answer}
    (h : d.handle clock r = (d', .ok a)) :
    ∃ o, r.operand = .ok o ∧ o.IsValid ∧
      r.act clock.now d.topCount d.store = .ok (a, d'.store) := by
  cases ho : r.operand with
  | bad problems =>
    rw [handle_eq, ho] at h
    cases h
  | ok o =>
    have hcases := handle_cases clock hd ho
    rw [h] at hcases
    rcases hcases with ⟨x, -, hfail, -⟩ | ⟨hverdict, ⟨e, -, hfail, -⟩ | ⟨a', s', hact, hok, hstore⟩⟩
    · cases hfail
    · cases hfail
    · refine ⟨o, rfl, ?_, ?_⟩
      · by_contra hvalid
        rw [AssessmentSettings.twoChecks, if_neg hvalid] at hverdict
        cases hverdict
      · cases hok
        rw [hact, hstore]

end Outcomes

/-- An errand about an operand leaves the trail of its assessment. -/
theorem trail_handle {r : Errand} {o : Operand} (ho : r.operand = .ok o) :
    (d.handle clock r).1.trail = (d.assessor.conclude clock r.operation o d.trail).2.2 := by
  rw [handle_eq, ho, assess_ok d clock (Errand.isAbout_of_operand ho)]
  cases (d.assessor.conclude clock r.operation o d.trail).1 with
  | rejected x => rfl
  | proceed =>
    simp only [Verdict.toExcept, continueWith]
    cases r.act clock.now d.topCount d.store <;> rfl

end Desk

end StockRegister
