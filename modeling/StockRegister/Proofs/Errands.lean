import StockRegister.Desk

/-!
# Errands at the desk

`Desk.Errand` gathers the eleven requests that a desk serves, with the raw values they are given,
and `Desk.handle` serves one of them. What an errand can do to the store is `Desk.Effect` : fail
or read and leave the store alone, or make one write of the store and answer with its result.

Every errand is assessed before it touches the store, and the assessment writes only to the
trail and to the assessor (`store_guard`). The seven reads go on with `answer`. The four writes
commit what they make of the store in one step (`continueWith_commit_cases`) : a creation the
store with a new record (`addRequested`), a change under an id what it finds there (`seek`).
`effect_handle` follows all errands, and `store_handle_of_failed_or_read` is what callers can
rely on.
-/

namespace StockRegister

namespace Desk

/-! ## Errands -/

/-- What can be asked of a desk, with the raw values that are given. -/
inductive Errand where
  | listStocks
  | listBySector (sector : Value)
  | search (keyword : Value)
  | topGainers
  | topByMarketCap
  | getStock (id : Value)
  | getStockBySymbol (symbol : Value)
  | createStock (details : Option StockDetails)
  | updateStock (id : Value) (details : StockDetails)
  | updateStockPrice (id : Value) (p : PriceUpdate)
  | deleteStock (id : Value)

namespace Errand

/-- Whether an errand only reads. -/
def isRead : Errand → Bool
  | listStocks | listBySector _ | search _ | topGainers | topByMarketCap => true
  | getStock _ | getStockBySymbol _ => true
  | createStock _ | updateStock _ _ | updateStockPrice _ _ | deleteStock _ => false

/-- The raw id that an errand is about. -/
def id? : Errand → Option Value
  | getStock id | updateStock id _ | updateStockPrice id _ | deleteStock id => some id
  | _ => none

end Errand

/-- The answer to an errand that does not fail. -/
inductive Answer where
  | records (stocks : List Stock)
  | record (stock : Stock)
  | done

/-- Serve an errand. -/
def handle (d : Desk) (clock : Clock) (r : Errand) : Desk × Except DeskError Answer :=
  match r with
  | .listStocks => (d.listStocks clock).map id (·.map .records)
  | .listBySector sector => (d.listBySector clock sector).map id (·.map .records)
  | .search keyword => (d.search clock keyword).map id (·.map .records)
  | .topGainers => (d.topGainers clock).map id (·.map .records)
  | .topByMarketCap => (d.topByMarketCap clock).map id (·.map .records)
  | .getStock v => (d.getStock clock v).map id (·.map .record)
  | .getStockBySymbol symbol => (d.getStockBySymbol clock symbol).map id (·.map .record)
  | .createStock details => (d.createStock clock details).map id (·.map .record)
  | .updateStock v details => (d.updateStock clock v details).map id (·.map .record)
  | .updateStockPrice v p => (d.updateStockPrice clock v p).map id (·.map .record)
  | .deleteStock v => (d.deleteStock clock v).map id (·.map fun _ => .done)

/-- What an errand can come to : its outcome, and the store after it. -/
inductive Effect (s : Store) (now : Moment) : Errand → Except DeskError Answer → Store → Prop
  | fail (r : Errand) (e : DeskError) : Effect s now r (.error e) s
  | read {r : Errand} (a : Answer) : r.isRead = true → Effect s now r (.ok a) s
  | create {details : StockDetails} {stock : Stock} {s' : Store} :
      s.add now details = .ok (stock, s') →
        Effect s now (.createStock (some details)) (.ok (.record stock)) s'
  | update {id : Value} {key : Int} {details : StockDetails} {stock : Stock} {s' : Store} :
      id.numericInt? = some key → s.update now key details = some (stock, s') →
        Effect s now (.updateStock id details) (.ok (.record stock)) s'
  | updatePrice {id : Value} {key : Int} {p : PriceUpdate} {stock : Stock} {s' : Store} :
      id.numericInt? = some key →
        s.updatePrice now key (.float p.newPrice) (.ofInt? p.volume) = some (stock, s') →
          Effect s now (.updateStockPrice id p) (.ok (.record stock)) s'
  | delete {id : Value} {key : Int} {s' : Store} :
      id.numericInt? = some key → s.remove key = some s' →
        Effect s now (.deleteStock id) (.ok .done) s'

theorem Effect.of_isRead {s : Store} {now : Moment} {r : Errand} (hr : r.isRead = true) :
    ∀ result, Effect s now r result s
  | .error e => .fail r e
  | .ok a => .read a hr

/-! ## Assessing before acting -/

variable (d : Desk) (clock : Clock)

theorem store_guardOperand (op : Operation) (o : Operand) :
    (d.guardOperand clock op o).1.store = d.store := by
  unfold guardOperand
  split
  · rfl
  · dsimp only
    split <;> rfl

theorem store_guard (op : Operation) (v : Value) : (d.guard clock op v).1.store = d.store := by
  unfold guard
  split
  · rfl
  · exact d.store_guardOperand clock op _

/-- An errand fails with its assessment, or goes on with the desk that the assessment leaves. -/
theorem continueWith_cases {α : Type} (guarded : Desk × Except DeskError Unit)
    (action : Desk → Desk × Except DeskError α) :
    (∃ e, guarded.2 = .error e ∧ continueWith guarded action = (guarded.1, .error e)) ∨
      (guarded.2 = .ok () ∧ continueWith guarded action = action guarded.1) := by
  obtain ⟨d, result⟩ := guarded
  cases result with
  | error e => exact Or.inl ⟨e, rfl, rfl⟩
  | ok u => exact Or.inr ⟨rfl, rfl⟩

/-- An errand that answers from the store leaves it alone. -/
theorem store_continueWith_answer {α : Type} (op : Operation) (v : Value)
    (result : Store → Except DeskError α) :
    (continueWith (d.guard clock op v) (answer result)).1.store = d.store := by
  rcases continueWith_cases (d.guard clock op v) (answer result) with ⟨e, -, h⟩ | ⟨-, h⟩
  · rw [h]
    exact d.store_guard clock op v
  · rw [h]
    exact d.store_guard clock op v

/-- An errand that commits what it makes of the store fails and leaves the store alone, or puts
the result in its place. -/
theorem continueWith_commit_cases {α : Type} {guarded : Desk × Except DeskError Unit}
    (hstore : guarded.1.store = d.store) (result : Store → Except DeskError (α × Store)) :
    (∃ e, (continueWith guarded fun d => d.commit (result d.store)).2 = .error e ∧
      (continueWith guarded fun d => d.commit (result d.store)).1.store = d.store) ∨
    ∃ a s', result d.store = .ok (a, s') ∧
      (continueWith guarded fun d => d.commit (result d.store)).2 = .ok a ∧
      (continueWith guarded fun d => d.commit (result d.store)).1.store = s' := by
  rcases continueWith_cases guarded fun d => d.commit (result d.store) with ⟨e, -, h⟩ | ⟨-, h⟩
  · rw [h]
    exact Or.inl ⟨e, rfl, hstore⟩
  · rw [h, hstore]
    cases hresult : result d.store with
    | error e => exact Or.inl ⟨e, rfl, hstore⟩
    | ok made => exact Or.inr ⟨made.1, made.2, rfl, rfl, rfl⟩

/-! ## Creating -/

/-- What a creation makes of the store. -/
def addRequested (now : Moment) (request : Option StockDetails) (s : Store) :
    Except DeskError (Stock × Store) :=
  match request with
  | none => .error .unusableKey
  | some details => (s.add now details).mapError .invalid

theorem createStock_eq (request : Option StockDetails) :
    d.createStock clock request =
      continueWith (d.guardOperand clock .create (.creation request)) fun d =>
        d.commit (addRequested clock.now request d.store) := by
  unfold createStock addRequested
  cases request with
  | none => rfl
  | some details =>
    congr 1
    funext d
    dsimp only
    cases d.store.add clock.now details <;> rfl

theorem exists_details_of_addRequested {now : Moment} {request : Option StockDetails} {s s' : Store}
    {stock : Stock} (h : addRequested now request s = .ok (stock, s')) :
    ∃ details, request = some details ∧ s.add now details = .ok (stock, s') := by
  unfold addRequested at h
  cases request with
  | none => cases h
  | some details =>
    refine ⟨details, rfl, ?_⟩
    dsimp only at h
    cases hadd : s.add now details with
    | error e =>
      rw [hadd] at h
      cases h
    | ok result =>
      rw [hadd] at h
      exact congrArg Except.ok (Except.ok.inj h)

/-- A creation fails and leaves the store alone, or adds one record to it. -/
theorem createStock_cases (request : Option StockDetails) :
    (∃ e, (d.createStock clock request).2 = .error e ∧
      (d.createStock clock request).1.store = d.store) ∨
    ∃ details stock s', request = some details ∧ d.store.add clock.now details = .ok (stock, s') ∧
      (d.createStock clock request).2 = .ok stock ∧
      (d.createStock clock request).1.store = s' := by
  rw [createStock_eq]
  rcases d.continueWith_commit_cases (d.store_guardOperand clock .create (.creation request))
      (addRequested clock.now request) with hfail | ⟨stock, s', hresult, hok, hstore⟩
  · exact Or.inl hfail
  · obtain ⟨details, hrequest, hadd⟩ := exists_details_of_addRequested hresult
    exact Or.inr ⟨details, stock, s', hrequest, hadd, hok, hstore⟩

/-! ## Records under a raw id -/

/-- What is found under the key that a raw id stands for. -/
def seek {α : Type} (id : Value) (find : Int → Option α) : Except DeskError α :=
  id.recordKey.bind fun key =>
    match key.bind find with
    | some a => .ok a
    | none => .error (.noId id)

theorem getStock_eq (id : Value) :
    d.getStock clock id =
      continueWith (d.guard clock .lookupById id) (answer fun s => seek id s.get?) := by
  unfold getStock seek
  congr 2
  funext s
  cases id.recordKey with
  | error e => rfl
  | ok key =>
    simp only [bind, Except.bind]
    cases key.bind s.get? <;> rfl

theorem changeStock_eq {α : Type} (op : Operation) (id : Value)
    (change : Store → Int → Option (α × Store)) :
    d.changeStock clock op id change =
      continueWith (d.guard clock op id) fun d => d.commit (seek id (change d.store)) := by
  unfold changeStock seek
  congr 1
  funext d
  cases id.recordKey with
  | error e => rfl
  | ok key =>
    simp only [bind, Except.bind]
    cases key.bind (change d.store) <;> rfl

/-- Only the integer that a raw id equals as a number finds something. -/
theorem exists_key_of_seek {α : Type} {id : Value} {find : Int → Option α} {a : α}
    (h : seek id find = .ok a) : ∃ key, id.numericInt? = some key ∧ find key = some a := by
  unfold seek Value.recordKey at h
  cases hk : id.toKey? with
  | none =>
    rw [hk] at h
    cases h
  | some k =>
    rw [hk] at h
    change (match id.numericInt?.bind find with
      | some a => Except.ok a
      | none => Except.error (DeskError.noId id)) = .ok a at h
    split at h
    · rename_i found hfound
      cases h
      exact Option.bind_eq_some_iff.mp hfound
    · cases h

/-- A change under an id fails and leaves the store alone, or is the change of the store under the
key that the id stands for. -/
theorem changeStock_cases {α : Type} (op : Operation) (id : Value)
    (change : Store → Int → Option (α × Store)) :
    (∃ e, (d.changeStock clock op id change).2 = .error e ∧
      (d.changeStock clock op id change).1.store = d.store) ∨
    ∃ key a s', id.numericInt? = some key ∧ change d.store key = some (a, s') ∧
      (d.changeStock clock op id change).2 = .ok a ∧
      (d.changeStock clock op id change).1.store = s' := by
  rw [changeStock_eq]
  rcases d.continueWith_commit_cases (d.store_guard clock op id) (fun s => seek id (change s)) with
    hfail | ⟨a, s', hresult, hok, hstore⟩
  · exact Or.inl hfail
  · obtain ⟨key, hkey, hfind⟩ := exists_key_of_seek hresult
    exact Or.inr ⟨key, a, s', hkey, hfind, hok, hstore⟩

/-! ## All errands -/

theorem effect_answer {α : Type} {r : Errand} (hr : r.isRead = true) (op : Operation) (v : Value)
    (result : Store → Except DeskError α) (f : α → Answer) :
    Effect d.store clock.now r
      ((continueWith (d.guard clock op v) (answer result)).map id (·.map f)).2
      ((continueWith (d.guard clock op v) (answer result)).map id (·.map f)).1.store := by
  rw [Prod.map_fst, id_eq, d.store_continueWith_answer]
  exact .of_isRead hr _

theorem effect_changeStock {α : Type} {r : Errand} {op : Operation} {v : Value}
    {change : Store → Int → Option (α × Store)} {f : α → Answer}
    (h : ∀ key a s', v.numericInt? = some key → change d.store key = some (a, s') →
      Effect d.store clock.now r (.ok (f a)) s') :
    Effect d.store clock.now r ((d.changeStock clock op v change).map id (·.map f)).2
      ((d.changeStock clock op v change).map id (·.map f)).1.store := by
  rw [Prod.map_fst, Prod.map_snd, id_eq]
  rcases d.changeStock_cases clock op v change with
    ⟨e, hresult, hstore⟩ | ⟨key, a, s', hkey, hchange, hresult, hstore⟩
  · rw [hresult, hstore]
    exact .fail r e
  · rw [hresult, hstore]
    exact h key a s' hkey hchange

/-- Every errand comes to one of the effects. -/
theorem effect_handle (r : Errand) :
    Effect d.store clock.now r (d.handle clock r).2 (d.handle clock r).1.store := by
  cases r with
  | listStocks => exact d.effect_answer clock rfl .bulkLookup .null _ .records
  | listBySector sector => exact d.effect_answer clock rfl .bulkLookup .null _ .records
  | search keyword => exact d.effect_answer clock rfl .bulkLookup .null _ .records
  | topGainers => exact d.effect_answer clock rfl .bulkLookup .null _ .records
  | topByMarketCap => exact d.effect_answer clock rfl .bulkLookup .null _ .records
  | getStock v => exact d.effect_answer clock rfl .lookupById v _ .record
  | getStockBySymbol symbol => exact d.effect_answer clock rfl .lookupBySymbol symbol _ .record
  | createStock details =>
    unfold handle
    dsimp only [Prod.map_fst, Prod.map_snd, id_eq]
    rcases d.createStock_cases clock details with
      ⟨e, hresult, hstore⟩ | ⟨given, stock, s', rfl, hadd, hresult, hstore⟩
    · rw [hresult, hstore]
      exact .fail _ e
    · rw [hresult, hstore]
      exact .create hadd
  | updateStock v details =>
    exact d.effect_changeStock clock fun _ _ _ hkey hchange => .update hkey hchange
  | updateStockPrice v p =>
    exact d.effect_changeStock clock fun _ _ _ hkey hchange => .updatePrice hkey hchange
  | deleteStock v =>
    refine d.effect_changeStock clock fun key u s' hkey hchange => ?_
    obtain ⟨removed, hremoved, heq⟩ := Option.map_eq_some_iff.mp hchange
    cases heq
    exact .delete hkey hremoved

/-- An errand that fails leaves the store exactly as it was, and so does every read. -/
theorem store_handle_of_failed_or_read (r : Errand) :
    (∀ e, (d.handle clock r).2 = .error e → (d.handle clock r).1.store = d.store) ∧
      (r.isRead = true → (d.handle clock r).1.store = d.store) := by
  have heffect := d.effect_handle clock r
  generalize (d.handle clock r).2 = result, (d.handle clock r).1.store = s' at heffect ⊢
  constructor
  · rintro e rfl
    cases heffect with
    | fail => rfl
  · intro hr
    cases heffect with
    | fail => rfl
    | read => rfl
    | create | update | updatePrice | delete => cases hr

end Desk

end StockRegister
