import StockRegister.Proofs.Errands
import StockRegister.Proofs.StoreOrder
import StockRegister.Proofs.Verdict

/-!
# Ids over the life of a desk

`Desk.after` is the desk after errands in any order, and `Desk.history` tells what each of them
came to. Along a history the ids of the created records are consecutive (`id_of_created`), the
next id counts the creations (`nextId_after`), and the size of the store is what creations and
deletions make it (`size_after`).

An id is retired (`Store.Retired`) if it lies below the next id and no record has it. A deletion
retires its id (`Effect.retired_of_delete`), and no effect brings a retired id back
(`Effect.retired`). So every later errand for it is rejected or finds no record
(`misses_handle`). `history_of_seed` is all of this for a desk that starts with records.
-/

namespace StockRegister

open Schema

/-- An id that was given out, or never will be, and that no record has. -/
structure Store.Retired (s : Store) (i : Int) : Prop where
  lt_nextId : i < s.nextId
  absent : ∀ r ∈ s.toList, r.id ≠ i

/-- A raw value that is read as an integer is the id that an operation about ids takes. -/
theorem Operand.ofValue_of_readInt {op : Operation} {purpose : IdPurpose}
    (hop : op.operandShape = (.entity, some purpose)) {v : Value} {i : Int}
    (h : readInt v = .ok i) : ofValue op v = .ok (.entity (some i) purpose) := by
  have hread : readOptional readInt v = .ok (some i) := by
    unfold readOptional
    split
    · cases h
    · rw [h, Checked.map_ok]
  simp only [ofValue, hop, hread, Checked.under_ok, Checked.map_ok, Option.getD_some]

namespace Desk

/-! ## What one errand does to the ids -/

/-- The record that an errand created. -/
def created? : Errand × Except DeskError Answer → Option Stock
  | (.createStock _, .ok (.record stock)) => some stock
  | _ => none

/-- Whether an errand deleted a record. -/
def isDeletion : Errand × Except DeskError Answer → Bool
  | (.deleteStock _, .ok _) => true
  | _ => false

theorem created?_error (r : Errand) (e : DeskError) : created? (r, .error e) = none := by
  cases r <;> rfl

theorem created?_of_isRead {r : Errand} (hr : r.isRead = true) (a : Answer) :
    created? (r, .ok a) = none := by
  cases r <;> first
    | rfl
    | cases hr

theorem isDeletion_error (r : Errand) (e : DeskError) : isDeletion (r, .error e) = false := by
  cases r <;> rfl

theorem isDeletion_of_isRead {r : Errand} (hr : r.isRead = true) (a : Answer) :
    isDeletion (r, .ok a) = false := by
  cases r <;> first
    | rfl
    | cases hr

namespace Effect

variable {s s' : Store} {now : Moment} {r : Errand} {result : Except DeskError Answer}

theorem ordered (h : Effect s now r result s') (hs : s.Ordered) : s'.Ordered := by
  cases h with
  | fail => exact hs
  | read => exact hs
  | create hadd => exact hs.add hadd
  | update _ hm => exact hs.modify (fun stock => stock.revised_id now _) hm
  | updatePrice _ hm => exact hs.modify (fun stock => stock.repriced_id now _ _) hm
  | delete _ hm => exact hs.remove hm

/-- Only a creation takes an id. -/
theorem nextId (h : Effect s now r result s') :
    s'.nextId = s.nextId + ((created? (r, result)).toList.length : Int) := by
  cases h with
  | fail => simp [created?_error]
  | read a hr => simp [created?_of_isRead hr]
  | create hadd => simpa [created?] using Store.nextId_of_add hadd
  | update _ hm => simpa [created?] using Store.nextId_of_modify hm
  | updatePrice _ hm => simpa [created?] using Store.nextId_of_modify hm
  | delete _ hm => simpa [created?] using Store.nextId_of_remove hm

theorem id_of_created (h : Effect s now r result s') {stock : Stock}
    (hc : created? (r, result) = some stock) : stock.id = s.nextId := by
  cases h with
  | fail => simp [created?_error] at hc
  | read a hr => simp [created?_of_isRead hr] at hc
  | create hadd =>
    cases hc
    exact Store.id_of_add hadd
  | update | updatePrice | delete => cases hc

/-- A creation adds one record, a deletion takes one out, and nothing else changes their
number. -/
theorem size (h : Effect s now r result s') (hs : s.Ordered) :
    s'.size + (isDeletion (r, result)).toNat =
      s.size + (created? (r, result)).toList.length := by
  cases h with
  | fail => simp [created?_error, isDeletion_error]
  | read a hr => simp [created?_of_isRead hr, isDeletion_of_isRead hr]
  | create hadd => simpa [created?, isDeletion] using hs.size_of_add hadd
  | update _ hm => simpa [created?, isDeletion] using hs.size_of_modify hm
  | updatePrice _ hm => simpa [created?, isDeletion] using hs.size_of_modify hm
  | delete _ hm => simpa [created?, isDeletion] using hs.size_of_remove hm

/-- A retired id stays retired : new records get higher ids, changed ones keep theirs. -/
theorem retired {i : Int} (h : Effect s now r result s') (hs : s.Ordered) (hi : s.Retired i) :
    s'.Retired i := by
  have hlt : i < s'.nextId := by
    have := h.nextId
    have := hi.lt_nextId
    omega
  refine ⟨hlt, ?_⟩
  -- It is enough that every id of the new store is the next one or an old one.
  suffices hids : ∀ r ∈ s'.toList, r.id = s.nextId ∨ r.id ∈ s.toList.map Stock.id by
    intro r hr hid
    rcases hids r hr with hnew | hold
    · have := hi.lt_nextId
      omega
    · obtain ⟨old, hmem, hold⟩ := List.mem_map.mp hold
      exact hi.absent old hmem (hold.trans hid)
  intro r hr
  cases h with
  | fail => exact Or.inr (List.mem_map_of_mem hr)
  | read => exact Or.inr (List.mem_map_of_mem hr)
  | create hadd =>
    rw [hs.toList_of_add hadd, List.mem_append, List.mem_singleton] at hr
    rcases hr with hr | rfl
    · exact Or.inr (List.mem_map_of_mem hr)
    · exact Or.inl (Store.id_of_add hadd)
  | update _ hm =>
    rw [← hs.map_id_of_modify (fun stock => stock.revised_id now _) hm]
    exact Or.inr (List.mem_map_of_mem hr)
  | updatePrice _ hm =>
    rw [← hs.map_id_of_modify (fun stock => stock.repriced_id now _ _) hm]
    exact Or.inr (List.mem_map_of_mem hr)
  | delete _ hm =>
    rw [hs.toList_of_remove hm] at hr
    exact Or.inr (List.mem_map_of_mem (List.mem_of_mem_filter hr))

end Effect

/-! ## Errands for an id that no record has -/

/-- A raw value that is read as an integer is a key, and equals the integer if it is a number. -/
theorem key_of_readInt {v : Value} {i : Int} (h : readInt v = .ok i) :
    v.toKey?.isSome ∧ (v.numericInt? = some i ∨ v.numericInt? = none) := by
  cases v with
  | int n =>
    cases h
    exact ⟨rfl, Or.inl rfl⟩
  | bool b =>
    cases h
    exact ⟨rfl, Or.inl rfl⟩
  | float x =>
    refine ⟨rfl, Or.inl ?_⟩
    unfold readInt at h
    dsimp only at h
    split at h
    · cases h
    · split at h
      · cases h
      · rename_i n hn
        split at h
        · cases h
          exact hn
        · cases h
  | text | bytes => exact ⟨rfl, Or.inr rfl⟩
  | null | date | moment | list | pair | set | object | endless => cases h

theorem seek_of_readInt {α : Type} {v : Value} {i : Int} (h : readInt v = .ok i)
    {find : Int → Option α} (hfind : find i = none) : seek v find = .error (.noId v) := by
  obtain ⟨hkey, hnumeric⟩ := key_of_readInt h
  obtain ⟨k, hk⟩ := Option.isSome_iff_exists.mp hkey
  have hnone : v.numericInt?.bind find = none := by
    rcases hnumeric with hn | hn <;> simp [hn, hfind]
  simp only [seek, Value.recordKey, hk, Except.bind, hnone]

/-- An operand that is read for its operation is let through or rejected. -/
theorem guardOperand_of_isAbout (d : Desk) (clock : Clock) {op : Operation} {o : Operand}
    (ho : op.IsAbout o) :
    (d.guardOperand clock op o).2 = .ok () ∨
      ∃ x, (d.guardOperand clock op o).2 = .error (.rejected x) := by
  unfold guardOperand Assessor.evaluate
  rw [Operation.accept_of_isAbout ho, Except.map]
  dsimp only
  split
  · exact Or.inl rfl
  · rename_i x _
    exact Or.inr ⟨x, rfl⟩

/-- A raw value that is read as an id is let through or rejected. -/
theorem guard_of_readInt (d : Desk) (clock : Clock) {op : Operation} {purpose : IdPurpose}
    (hop : op.operandShape = (.entity, some purpose)) {v : Value} {i : Int}
    (h : readInt v = .ok i) :
    (d.guard clock op v).2 = .ok () ∨ ∃ x, (d.guard clock op v).2 = .error (.rejected x) := by
  unfold guard
  rw [Operand.ofValue_of_readInt hop h]
  exact d.guardOperand_of_isAbout clock ⟨(congrArg Prod.fst hop).symm, (congrArg Prod.snd hop).symm⟩

/-- A deletion retires the id that it was asked for. -/
theorem Effect.retired_of_delete {s s' : Store} {now : Moment} {v : Value} {a : Answer} {i : Int}
    (h : Effect s now (.deleteStock v) (.ok a) s') (hs : s.Ordered) (hv : readInt v = .ok i) :
    s'.Retired i := by
  cases h with
  | read _ hr => cases hr
  | @delete _ key _ hkey hremove =>
    obtain rfl : key = i := by
      rcases (key_of_readInt hv).2 with hn | hn
      · exact Option.some.inj (hkey.symm.trans hn)
      · rw [hn] at hkey
        cases hkey
    obtain ⟨⟨old, hold⟩, -⟩ := Store.remove_eq_some_iff.mp hremove
    obtain ⟨hmem, hid⟩ := hs.get?_eq_some_iff.mp hold
    refine ⟨?_, ?_⟩
    · rw [Store.nextId_of_remove hremove, ← hid]
      exact hs.lt_nextId old hmem
    · intro r hr
      rw [hs.toList_of_remove hremove, List.mem_filter] at hr
      exact of_decide_eq_true hr.2

/-- What an errand for an id comes to when no record has the id : it is rejected, or it finds
nothing. -/
def Misses {α : Type} (v : Value) (result : Except DeskError α) : Prop :=
  (∃ x, result = .error (.rejected x)) ∨ result = .error (.noId v)

theorem Misses.map {α β : Type} {v : Value} {result : Except DeskError α}
    (h : Misses v result) (f : α → β) : Misses v (result.map f) := by
  rcases h with ⟨x, rfl⟩ | rfl
  · exact Or.inl ⟨x, rfl⟩
  · exact Or.inr rfl

section Missing

variable {d : Desk} (clock : Clock) {v : Value} {i : Int}

theorem misses_continueWith {α : Type} {op : Operation} {purpose : IdPurpose}
    (hop : op.operandShape = (.entity, some purpose)) (hv : readInt v = .ok i)
    {action : Desk → Desk × Except DeskError α}
    (haction : ∀ d' : Desk, d'.store = d.store → (action d').2 = .error (.noId v)) :
    Misses v (continueWith (d.guard clock op v) action).2 := by
  rcases continueWith_cases (d.guard clock op v) action with ⟨e, he, h⟩ | ⟨-, h⟩
  · rcases d.guard_of_readInt clock hop hv with hok | ⟨x, hx⟩
    · rw [hok] at he
      cases he
    · obtain rfl : e = .rejected x := Except.error.inj (he.symm.trans hx)
      rw [h]
      exact Or.inl ⟨x, rfl⟩
  · rw [h]
    exact Or.inr (haction _ (d.store_guard clock op v))

theorem misses_getStock (hv : readInt v = .ok i) (hget : d.store.get? i = none) :
    Misses v (d.getStock clock v).2 := by
  rw [getStock_eq]
  refine misses_continueWith clock rfl hv fun d' hstore => ?_
  exact seek_of_readInt hv (by rw [hstore]; exact hget)

theorem misses_changeStock {α : Type} (op : Operation) {purpose : IdPurpose}
    (hop : op.operandShape = (.entity, some purpose)) (hv : readInt v = .ok i)
    (change : Store → Int → Option (α × Store)) (hchange : change d.store i = none) :
    Misses v (d.changeStock clock op v change).2 := by
  rw [changeStock_eq]
  refine misses_continueWith clock hop hv fun d' hstore => ?_
  rw [hstore, seek_of_readInt hv hchange]
  rfl

/-- Every errand for an id that no record has is rejected or finds nothing. -/
theorem misses_handle {r : Errand} (hr : r.id? = some v) (hv : readInt v = .ok i)
    (hget : d.store.get? i = none) : Misses v (d.handle clock r).2 := by
  have hmodify : ∀ f, d.store.modify i f = none := fun f => Store.modify_eq_none_iff.mpr hget
  cases r with
  | getStock w =>
    obtain rfl : w = v := Option.some.inj hr
    exact (misses_getStock clock hv hget).map _
  | updateStock w details =>
    obtain rfl : w = v := Option.some.inj hr
    have hmiss : Misses w (d.updateStock clock w details).2 :=
      misses_changeStock clock .update rfl hv _ (hmodify _)
    exact hmiss.map _
  | updateStockPrice w p =>
    obtain rfl : w = v := Option.some.inj hr
    have hmiss : Misses w (d.updateStockPrice clock w p).2 :=
      misses_changeStock clock .priceUpdate rfl hv _ (hmodify _)
    exact hmiss.map _
  | deleteStock w =>
    obtain rfl : w = v := Option.some.inj hr
    have hremove : (d.store.remove i).map (fun s => ((), s)) = none := by
      rw [Store.remove_eq_none_iff.mpr hget]
      rfl
    have hmiss : Misses w (d.deleteStock clock w).2 :=
      misses_changeStock clock .delete rfl hv _ hremove
    exact hmiss.map _
  | _ => cases hr

end Missing

/-! ## Histories -/

/-- The desk after errands, each with the clock that it is served by. -/
def after (d : Desk) : List (Clock × Errand) → Desk
  | [] => d
  | (clock, r) :: rest => (d.handle clock r).1.after rest

/-- The errands with what they came to, in order. -/
def history (d : Desk) : List (Clock × Errand) → List (Errand × Except DeskError Answer)
  | [] => []
  | (clock, r) :: rest => (r, (d.handle clock r).2) :: (d.handle clock r).1.history rest

/-- The records that errands created, as they were then. -/
def createdBy (d : Desk) (errands : List (Clock × Errand)) : List Stock :=
  (d.history errands).filterMap created?

/-- The number of errands that deleted a record. -/
def deletions (d : Desk) (errands : List (Clock × Errand)) : Nat :=
  (d.history errands).countP isDeletion

theorem createdBy_cons (d : Desk) (clock : Clock) (r : Errand) (rest : List (Clock × Errand)) :
    d.createdBy ((clock, r) :: rest) =
      (created? (r, (d.handle clock r).2)).toList ++ (d.handle clock r).1.createdBy rest := by
  rw [createdBy, createdBy, history, List.filterMap_cons]
  cases created? (r, (d.handle clock r).2) <;> rfl

theorem deletions_cons (d : Desk) (clock : Clock) (r : Errand) (rest : List (Clock × Errand)) :
    d.deletions ((clock, r) :: rest) =
      (isDeletion (r, (d.handle clock r).2)).toNat + (d.handle clock r).1.deletions rest := by
  rw [deletions, deletions, history, List.countP_cons, Nat.add_comm]
  cases isDeletion (r, (d.handle clock r).2) <;> rfl

section Histories

variable {d : Desk} (errands : List (Clock × Errand))

theorem ordered_after (hd : d.store.Ordered) : (d.after errands).store.Ordered := by
  induction errands generalizing d with
  | nil => exact hd
  | cons e rest ih => exact ih ((d.effect_handle e.1 e.2).ordered hd)

/-- The next id counts the creations, whatever else was asked. -/
theorem nextId_after :
    (d.after errands).store.nextId = d.store.nextId + ((d.createdBy errands).length : Int) := by
  induction errands generalizing d with
  | nil => exact (Int.add_zero _).symm
  | cons e rest ih =>
    have hstep := (d.effect_handle e.1 e.2).nextId
    rw [after, ih, createdBy_cons, List.length_append, hstep]
    omega

/-- The records created along a history have consecutive ids. -/
theorem id_of_created {k : Nat} {stock : Stock} (hk : (d.createdBy errands)[k]? = some stock) :
    stock.id = d.store.nextId + k := by
  induction errands generalizing d k with
  | nil => simp [createdBy, history] at hk
  | cons e rest ih =>
    have heffect := d.effect_handle e.1 e.2
    have hstep := heffect.nextId
    rw [createdBy_cons] at hk
    cases hc : created? (e.2, (d.handle e.1 e.2).2) with
    | none =>
      rw [hc] at hk hstep
      rw [ih hk, hstep]
      simp
    | some first =>
      rw [hc] at hk hstep
      cases k with
      | zero =>
        obtain rfl : first = stock := Option.some.inj hk
        rw [heffect.id_of_created hc]
        simp
      | succ k =>
        have := ih hk
        simp only [Option.toList_some, List.length_singleton] at hstep
        omega

theorem size_after (hd : d.store.Ordered) :
    (d.after errands).store.size + d.deletions errands =
      d.store.size + (d.createdBy errands).length := by
  induction errands generalizing d with
  | nil => rfl
  | cons e rest ih =>
    have heffect := d.effect_handle e.1 e.2
    have hstep := heffect.size hd
    have hrest := ih (heffect.ordered hd)
    rw [after, createdBy_cons, deletions_cons, List.length_append]
    omega

theorem retired_after {i : Int} (hd : d.store.Ordered) (hi : d.store.Retired i) :
    (d.after errands).store.Retired i := by
  induction errands generalizing d with
  | nil => exact hi
  | cons e rest ih =>
    have heffect := d.effect_handle e.1 e.2
    exact ih (heffect.ordered hd) (heffect.retired hd hi)

/-- An id that was deleted at any time is retired from then on. -/
theorem retired_of_deleted (hd : d.store.Ordered) {v : Value} {a : Answer} {i : Int}
    (hmem : (.deleteStock v, .ok a) ∈ d.history errands) (hv : readInt v = .ok i) :
    (d.after errands).store.Retired i := by
  induction errands generalizing d with
  | nil => cases hmem
  | cons e rest ih =>
    obtain ⟨clock, r⟩ := e
    have heffect := d.effect_handle clock r
    rw [history, List.mem_cons] at hmem
    rcases hmem with heq | hmem
    · obtain ⟨rfl, hresult⟩ := Prod.mk.inj heq
      rw [← hresult] at heffect
      exact retired_after rest (heffect.ordered hd) (heffect.retired_of_delete hd hv)
    · exact ih (heffect.ordered hd) hmem

end Histories

/-- From a desk that starts with complete records, whatever is asked of it : the created records
get the ids that follow those of the starting ones, the size of the store is what creations and
deletions make it, and an id that was deleted is never seen again. -/
theorem history_of_seed {records : List SeedRecord} (hr : ∀ r ∈ records, r.IsComplete)
    (now : Moment) (assessor : Assessor) (trail : Trail) (topCount : Int)
    (errands : List (Clock × Errand)) :
    let d : Desk := ⟨(Store.seed now records .empty).1, assessor, trail, topCount⟩
    let s := (d.after errands).store
    (∀ (k : Nat) (stock : Stock), (d.createdBy errands)[k]? = some stock →
        stock.id = (records.length : Int) + (k + 1)) ∧
      s.nextId = (records.length : Int) + (d.createdBy errands).length + 1 ∧
      s.size + d.deletions errands = records.length + (d.createdBy errands).length ∧
      ∀ v a i, (.deleteStock v, .ok a) ∈ d.history errands → readInt v = .ok i →
        (∀ stock ∈ s.toList, stock.id ≠ i) ∧
          ∀ clock r w, r.id? = some w → readInt w = .ok i →
            Misses w ((d.after errands).handle clock r).2 := by
  intro d s
  have hordered : d.store.Ordered := Store.ordered_empty.seed now records
  obtain ⟨-, -, hnext, hsize⟩ := Store.seed_of_isComplete now hr Store.ordered_empty
  have hnext : d.store.nextId = 1 + records.length := hnext
  have hsize : d.store.size = records.length := hsize.trans (Nat.zero_add _)
  refine ⟨?_, ?_, ?_, ?_⟩
  · intro k stock hk
    rw [id_of_created errands hk, hnext]
    omega
  · have hafter : s.nextId = _ := nextId_after errands
    omega
  · have hafter : s.size + d.deletions errands = _ := size_after errands hordered
    omega
  · intro v a i hmem hv
    have hretired := retired_of_deleted errands hordered hmem hv
    refine ⟨hretired.absent, fun clock r w hw hread => misses_handle clock hw hread ?_⟩
    exact (ordered_after errands hordered).get?_eq_none_iff.mpr hretired.absent

/-- A record that was created and deleted again leaves the one that was there before. -/
theorem history_of_created_and_deleted :
    let details : StockDetails := ⟨some "ACME", some "Acme", none, none, none, none, none⟩
    let clock : Clock := ⟨⟨⟨2024, 2, 29⟩, 0, 0, 0, 0, none⟩, Double.zero⟩
    let errands := [(clock, Errand.createStock (some details)), (clock, .deleteStock (.int 2))]
    (∀ r ∈ [SeedRecord.details details], r.IsComplete) ∧
      ∃ a, Assessor.ofSettings {} (.cycle Double.zero []) = .ok a ∧
        let d : Desk := ⟨(Store.seed clock.now [.details details] .empty).1, a, {}, 10⟩
        (.deleteStock (.int 2), .ok .done) ∈ d.history errands ∧
          (d.after errands).store.size = 1 ∧
          (d.after errands).store.nextId = 3 ∧
          ∀ stock ∈ (d.after errands).store.toList, stock.id ≠ 2 := by
  intro details clock errands
  have hr : ∀ r ∈ [SeedRecord.details details], r.IsComplete := by
    intro r hr
    obtain rfl := List.mem_singleton.mp hr
    exact ⟨details, rfl, rfl, rfl⟩
  refine ⟨hr, _, rfl, ?_⟩
  intro d
  have hmem : (.deleteStock (.int 2), .ok .done) ∈ d.history errands :=
    List.mem_of_getElem? (i := 1) rfl
  have hcreated : (d.createdBy errands).length = 1 := rfl
  have hdeleted : d.deletions errands = 1 := rfl
  obtain ⟨-, hnext, hsize, hgone⟩ := history_of_seed hr clock.now d.assessor {} 10 errands
  change (d.after errands).store.nextId =
    ((1 : Nat) : Int) + (d.createdBy errands).length + 1 at hnext
  change (d.after errands).store.size + d.deletions errands =
    1 + (d.createdBy errands).length at hsize
  rw [hcreated] at hnext hsize
  rw [hdeleted] at hsize
  exact ⟨hmem, Nat.add_right_cancel hsize, hnext, (hgone (.int 2) .done 2 hmem rfl).1⟩

end Desk

end StockRegister
