import StockRegister.Proofs.Draws
import StockRegister.Proofs.ReadBack

/-!
# Errands that commute

An errand under an id looks at one record and leaves something in its place, if it leaves anything
(`Errand.meet`, `Store.leave`), and a creation puts a record under the next id. So two errands that
concern different ids (`Errand.Concerns`) see nothing of each other : what the first one leaves is
not what the second one looks at (`Store.get?_leave_of_ne`), and both leave the same in either order
(`Store.leave_comm`, `Store.Ordered.add_leave`). `Passes` says this of an errand and an id that it
does not concern, and `commute_of_passes` is the law that follows.

Serving such an errand is one step on the store, the same at all desks of the same settings
(`Errand.HasVerdict`), and it leaves the assessor alone. It stamps what it writes with the time. At
another time it comes to the same but for the time stamps (`Errand.restamped_outcome_congr`) : if
all stamps of a record or a store are replaced by one moment (`Store.restamped`), no difference is
left. `Commute` says of two errands what their order does not matter for, and `commute_of_concerns`
proves it of all that concern different ids.
-/

namespace StockRegister

open Schema

/-! ## Leaving something in the place of a record -/

namespace Store

/-- The store after `left` has said what is left in the place of the record under an id. -/
def leave (s : Store) (i : Int) (left : Stock → Option Stock) : Store :=
  { s with
    entries := s.entries.filterMap fun e =>
      if e.1 = i then (left e.2).map (e.1, ·) else some e }

variable {s s' : Store} {i j : Int}

@[simp] theorem nextId_leave (left : Stock → Option Stock) : (s.leave i left).nextId = s.nextId :=
  rfl

@[simp] theorem leave_some (s : Store) (i : Int) : s.leave i some = s := by
  have hentry : (fun e : Int × Stock => if e.1 = i then (some e.2).map (e.1, ·) else some e) =
      some := by
    funext e
    split_ifs <;> rfl
  rw [leave, hentry, List.filterMap_some]

/-- What is left at two ids does not depend on the order. -/
theorem leave_comm (h : i ≠ j) (left left' : Stock → Option Stock) :
    (s.leave i left).leave j left' = (s.leave j left').leave i left := by
  unfold leave
  simp only [List.filterMap_filterMap]
  congr 2
  funext e
  by_cases hi : e.1 = i
  · have hj : i ≠ j := h
    cases hleft : left e.2 <;> simp [hi, hj, hleft]
  · by_cases hj : e.1 = j
    · cases hleft : left' e.2 <;> simp [hj, hleft, Ne.symm h]
    · simp [hi, hj]

/-- What is left at one id is not seen at another. -/
theorem get?_leave_of_ne (h : j ≠ i) (left : Stock → Option Stock) :
    (s.leave i left).get? j = s.get? j := by
  unfold get? leave
  dsimp only
  induction s.entries with
  | nil => rfl
  | cons e entries ih =>
    obtain ⟨k, r⟩ := e
    rw [List.filterMap_cons]
    dsimp only
    split_ifs with hk
    · have hjk : (j == k) = false := beq_eq_false_iff_ne.mpr fun hjk => h (hjk.trans hk)
      cases left r <;> simp [List.lookup_cons, hjk, ih]
    · simp only [List.lookup_cons, ih]

namespace Ordered

/-- A change leaves the changed record in the place of the old one. -/
theorem modify_eq_leave (h : s.Ordered) (f : Stock → Stock) :
    s.modify i f = (s.get? i).map fun r => (f r, s.leave i fun r => some (f r)) := by
  cases hget : s.get? i with
  | none => exact modify_eq_none_iff.mpr hget
  | some old =>
    rw [Option.map_some, modify_eq_some_iff]
    refine ⟨old, hget, rfl, ?_⟩
    have hmem := (lookup_eq_some_iff_mem h.nodup_keys).mp hget
    rw [leave, putEntry_of_mem h.nodup_keys (List.mem_map_of_mem (f := Prod.fst) hmem),
      ← List.filterMap_eq_map]
    congr 1
    refine List.filterMap_congr fun e he => ?_
    simp only [Function.comp_apply, Option.map_some]
    split_ifs with hk
    · -- The keys are distinct, so the entry is that of the old record.
      obtain ⟨k, r⟩ := e
      obtain rfl : k = i := hk
      have hr := (lookup_eq_some_iff_mem h.nodup_keys).mpr he
      obtain rfl := Option.some.inj (hget.symm.trans hr)
      rfl
    · rfl

theorem ne_nextId (h : s.Ordered) : ∀ e ∈ s.entries, e.1 ≠ s.nextId := by
  intro e he heq
  have hlt := h.lt_nextId e.2 (List.mem_map_of_mem (f := Prod.snd) he)
  rw [← h.keyed e he] at hlt
  omega

/-- A new record and what is left at another id do not depend on the order. -/
theorem add_leave (h : s.Ordered) (hi : i ≠ s.nextId) (left : Stock → Option Stock) (now : Moment)
    (d : StockDetails) :
    (s.leave i left).add now d =
      (s.add now d).map fun made => (made.1, made.2.leave i left) := by
  have hleft : ∀ e ∈ (s.leave i left).entries, e.1 ≠ s.nextId := fun e he => by
    obtain ⟨e', he', heq⟩ := List.mem_filterMap.mp he
    split_ifs at heq
    · obtain ⟨r, -, rfl⟩ := Option.map_eq_some_iff.mp heq
      exact h.ne_nextId e' he'
    · obtain rfl := Option.some.inj heq
      exact h.ne_nextId e' he'
  unfold add
  rw [nextId_leave]
  cases hmade : Stock.ofDetails s.nextId now d with
  | bad problems => rfl
  | ok stock =>
    obtain ⟨symbol, companyName, -, -, rfl⟩ := Stock.ofDetails_eq_ok_iff.mp hmade
    dsimp only [Except.map, Stock.made]
    rw [putEntry_of_new h.ne_nextId, putEntry_of_new hleft]
    simp only [leave, List.filterMap_append, List.filterMap_cons, List.filterMap_nil,
      if_neg hi.symm]

end Ordered

theorem remove_eq_leave (s : Store) (i : Int) :
    s.remove i = (s.get? i).map fun _ => s.leave i fun _ => none := by
  unfold remove leave
  congr 2
  funext _
  congr 1
  rw [← List.filterMap_eq_filter]
  congr 1
  funext e
  by_cases h : e.1 = i <;> simp [Option.guard, h]

end Store

namespace Desk

/-! ## Errands under an id -/

namespace Errand

/-- An errand concerns the id that it names, or the next id if it creates a record. -/
inductive Concerns (s : Store) : Errand → Int → Prop
  | named {x : Errand} {v : Value} {i : Int} : x.id? = some v → v.Names i → Concerns s x i
  | created (request : Option StockDetails) : Concerns s (.createStock request) s.nextId

/-- What an errand under an id answers from the record that it finds, and what it leaves in its
place. -/
def meet (now : Moment) (r : Stock) : Errand → Answer × Option Stock
  | updateStock _ d => (.record (r.revised now d), some (r.revised now d))
  | updateStockPrice _ p =>
    (.record (r.repriced now (.float p.newPrice) (.ofInt? p.volume)),
      some (r.repriced now (.float p.newPrice) (.ofInt? p.volume)))
  | deleteStock _ => (.done, none)
  | _ => (.record r, some r)

/-- An errand under an id acts on the record that it finds, and on no other. -/
theorem act_eq_leave {s : Store} (hs : s.Ordered) {x : Errand} {v : Value} {i : Int}
    (hx : x.id? = some v) (hv : v.Names i) (now : Moment) (topCount : Int) :
    x.act now topCount s = (s.get? i).elim (.error (.noId v)) fun r =>
      .ok ((x.meet now r).1, s.leave i fun r => (x.meet now r).2) := by
  cases x with
  | getStock w =>
    obtain rfl := Option.some.inj hx
    have hsame : s.leave i (fun r => (meet now r (.getStock w)).2) = s := s.leave_some i
    rw [act, seek_of_names hv, hsame]
    cases s.get? i <;> rfl
  | updateStock w d =>
    obtain rfl := Option.some.inj hx
    rw [act, seek_of_names hv, Store.update, hs.modify_eq_leave]
    cases s.get? i <;> rfl
  | updateStockPrice w p =>
    obtain rfl := Option.some.inj hx
    rw [act, seek_of_names hv, Store.updatePrice, hs.modify_eq_leave]
    cases s.get? i <;> rfl
  | deleteStock w =>
    obtain rfl := Option.some.inj hx
    rw [act, seek_of_names hv, Store.remove_eq_leave]
    cases s.get? i <;> rfl
  | _ => cases hx

/-- What an errand comes to by its verdict, and the store after it. -/
def outcome (x : Errand) (verdict : Verdict) (now : Moment) (topCount : Int) (s : Store) :
    Except DeskError Answer × Store :=
  match verdict.toExcept.bind fun _ => x.act now topCount s with
  | .error e => (.error e, s)
  | .ok (a, s') => (.ok a, s')

end Errand

/-- An errand that does not read the collection comes to what its verdict makes of the store, and
leaves the assessor alone. -/
theorem exists_handle_eq {d : Desk} {s : AssessmentSettings} (hd : d.assessor.Follows s)
    (clock : Clock) {x : Errand} {o : Operand} (ho : x.operand = .ok o) (hbulk : o ≠ .bulk) :
    let outcome := x.outcome (s.twoChecks d.assessor.nextDraw o) clock.now d.topCount d.store
    ∃ t, d.handle clock x = (⟨outcome.2, d.assessor, t, d.topCount⟩, outcome.1) := by
  intro outcome
  obtain ⟨t, ht⟩ := Assessor.conclude_eq_twoChecks hd clock x.operation o d.trail
  rw [if_neg hbulk] at ht
  refine ⟨t, ?_⟩
  rw [handle_eq, ho, assess_ok d clock (Errand.isAbout_of_operand ho), ht]
  dsimp only [outcome, Errand.outcome]
  cases s.twoChecks d.assessor.nextDraw o with
  | rejected r => rfl
  | proceed =>
    simp only [Verdict.toExcept, continueWith, Except.bind]
    cases x.act clock.now d.topCount d.store <;> rfl

/-! ## Passing by what is under an id -/

/-- A step on the store that looks at the record under an id and leaves something in its place. -/
def LooksAt (step : Store → Except DeskError Answer × Store) (i : Int) : Prop :=
  ∃ look : Option Stock → Except DeskError Answer × (Stock → Option Stock),
    ∀ s : Store, s.Ordered → step s = ((look (s.get? i)).1, s.leave i (look (s.get? i)).2)

/-- A step on the store neither sees nor changes what is under an id. -/
structure Passes (step : Store → Except DeskError Answer × Store) (s : Store) (i : Int) :
    Prop where
  get? : (step s).2.get? i = s.get? i
  leave : ∀ left, (s.leave i left).Ordered →
    step (s.leave i left) = ((step s).1, (step s).2.leave i left)

theorem LooksAt.passes {step : Store → Except DeskError Answer × Store} {i j : Int}
    (h : LooksAt step i) (hij : i ≠ j) {s : Store} (hs : s.Ordered) : Passes step s j := by
  obtain ⟨look, hlook⟩ := h
  refine ⟨?_, fun left hleft => ?_⟩
  · rw [hlook s hs]
    exact Store.get?_leave_of_ne hij.symm _
  · rw [hlook s hs, hlook _ hleft, Store.get?_leave_of_ne hij, Store.leave_comm hij]

/-- A step that looks at an id and one that passes by it may be made in either order. -/
theorem commute_of_passes {step step' : Store → Except DeskError Answer × Store} {s : Store}
    {i : Int} (h : Passes step s i) (h' : LooksAt step' i) (hs : s.Ordered)
    (hstep : (step s).2.Ordered) (hstep' : (step' s).2.Ordered) :
    (step' (step s).2).1 = (step' s).1 ∧ (step (step' s).2).1 = (step s).1 ∧
      (step' (step s).2).2 = (step (step' s).2).2 := by
  obtain ⟨look, hlook⟩ := h'
  rw [hlook s hs] at hstep' ⊢
  rw [hlook _ hstep, h.get?, h.leave _ hstep']
  exact ⟨rfl, rfl, rfl⟩

namespace Errand

variable {s : Store} {x : Errand} {i j : Int} (verdict : Verdict) (now : Moment) (topCount : Int)

theorem looksAt_outcome {v : Value} (hx : x.id? = some v) (hv : v.Names i) :
    LooksAt (x.outcome verdict now topCount) i := by
  cases verdict with
  | rejected r =>
    refine ⟨fun _ => (.error (.rejected r), some), fun s _ => ?_⟩
    rw [Store.leave_some]
    rfl
  | proceed =>
    refine ⟨fun found => found.elim (.error (.noId v), some) fun r =>
      (.ok (x.meet now r).1, fun r => (x.meet now r).2), fun s hs => ?_⟩
    simp only [outcome, Verdict.toExcept, Except.bind, act_eq_leave hs hx hv]
    cases s.get? i with
    | none => simp only [Option.elim_none, Store.leave_some]
    | some r => rfl

/-- A creation that may proceed answers with the record that was added, if one could be. -/
theorem outcome_createStock (s : Store) (details : StockDetails) :
    (createStock (some details)).outcome .proceed now topCount s =
      match s.add now details with
      | .error e => (.error (.invalid e), s)
      | .ok (stock, s') => (.ok (.record stock), s') := by
  simp only [outcome, Verdict.toExcept, Except.bind, act, addRequested]
  cases s.add now details <;> rfl

theorem passes_outcome_createStock (hs : s.Ordered) (hj : j ≠ s.nextId)
    (request : Option StockDetails) :
    Passes ((createStock request).outcome verdict now topCount) s j := by
  cases verdict with
  | rejected r => exact ⟨rfl, fun _ _ => rfl⟩
  | proceed =>
    cases request with
    | none => exact ⟨rfl, fun _ _ => rfl⟩
    | some details =>
      have hadd := hs.add_leave hj
      refine ⟨?_, fun left _ => ?_⟩
      · rw [outcome_createStock]
        cases hmade : s.add now details with
        | error e => rfl
        | ok made =>
          rw [← Store.id_of_add hmade] at hj
          exact (hs.add hmade).get?_congr hs (hs.others_of_add hmade) hj
      · rw [outcome_createStock, outcome_createStock, hadd]
        cases s.add now details <;> rfl

/-- An errand passes by every id that it does not concern. -/
theorem passes_outcome (hs : s.Ordered) (hx : x.Concerns s i) (hij : i ≠ j) :
    Passes (x.outcome verdict now topCount) s j := by
  cases hx with
  | named hid hv => exact (looksAt_outcome verdict now topCount hid hv).passes hij hs
  | created request => exact passes_outcome_createStock verdict now topCount hs hij.symm request

/-- Errands that concern different ids may be made in either order. -/
theorem commute_outcomes {y : Errand} (hs : s.Ordered) (hx : x.Concerns s i)
    (hy : y.Concerns s j) (hij : i ≠ j) {verdict verdict' : Verdict} {now now' : Moment}
    (hstep : (x.outcome verdict now topCount s).2.Ordered)
    (hstep' : (y.outcome verdict' now' topCount s).2.Ordered) :
    let stepX := x.outcome verdict now topCount
    let stepY := y.outcome verdict' now' topCount
    (stepY (stepX s).2).1 = (stepY s).1 ∧ (stepX (stepY s).2).1 = (stepX s).1 ∧
      (stepY (stepX s).2).2 = (stepX (stepY s).2).2 := by
  intro stepX stepY
  cases hy with
  | named hid hv =>
    exact commute_of_passes (passes_outcome verdict now topCount hs hx hij)
      (looksAt_outcome verdict' now' topCount hid hv) hs hstep hstep'
  | created request =>
    -- Only one of the two can be the creation, so the other one looks at its id.
    cases hx with
    | named hid hv =>
      obtain ⟨hanswer, hanswer', hstore⟩ :=
        commute_of_passes (passes_outcome_createStock verdict' now' topCount hs hij request)
          (looksAt_outcome verdict now topCount hid hv) hs hstep' hstep
      exact ⟨hanswer', hanswer, hstore.symm⟩
    | created request' => exact absurd rfl hij

end Errand

end Desk

/-! ## Time stamps -/

/-- A record with one moment in place of all its time stamps. -/
def Stock.restamped (m : Moment) (r : Stock) : Stock :=
  { r with createdAt := m, updatedAt := r.updatedAt.map fun _ => m }

/-- A store with one moment in place of all time stamps. -/
def Store.restamped (m : Moment) (s : Store) : Store :=
  { s with entries := s.entries.map (Prod.map id (Stock.restamped m)) }

/-- A store with every record replaced by what a function makes of it. -/
def Store.mapStocks (f : Stock → Stock) (s : Store) : Store :=
  { s with entries := s.entries.map (Prod.map id f) }

/-- What is left of a record counts only as far as the function shows it. -/
theorem Store.mapStocks_leave_congr {s : Store} {i : Int} {f : Stock → Stock}
    {left left' : Stock → Option Stock} (h : ∀ r, (left r).map f = (left' r).map f) :
    (s.leave i left).mapStocks f = (s.leave i left').mapStocks f := by
  have hpair (k : Int) (found : Option Stock) :
      (found.map (k, ·)).map (Prod.map id f) = (found.map f).map (k, ·) := by
    cases found <;> rfl
  unfold leave mapStocks
  simp only [List.map_filterMap]
  congr 2
  funext e
  split_ifs
  · rw [hpair, hpair, h]
  · rfl

theorem Store.restamped_leave_congr {s : Store} {i : Int} {m : Moment}
    {left left' : Stock → Option Stock}
    (h : ∀ r, (left r).map (Stock.restamped m) = (left' r).map (Stock.restamped m)) :
    (s.leave i left).restamped m = (s.leave i left').restamped m :=
  mapStocks_leave_congr h

/-- Adding at another time makes the same record, the time stamps apart. -/
theorem Store.Ordered.restamped_add_congr {s : Store} (hs : s.Ordered) (m now now' : Moment)
    (details : StockDetails) :
    (s.add now details).map (Prod.map (Stock.restamped m) (Store.restamped m)) =
      (s.add now' details).map (Prod.map (Stock.restamped m) (Store.restamped m)) := by
  unfold Store.add
  cases hsymbol : details.symbol with
  | none => cases hcompany : details.companyName <;> rw [Stock.ofDetails, Stock.ofDetails, hsymbol,
      hcompany] <;> rfl
  | some symbol =>
    cases hcompany : details.companyName with
    | none => rw [Stock.ofDetails, Stock.ofDetails, hsymbol, hcompany]; rfl
    | some companyName =>
      rw [Stock.ofDetails_eq_ok_iff.mpr ⟨_, _, hsymbol, hcompany, rfl⟩,
        Stock.ofDetails_eq_ok_iff.mpr ⟨_, _, hsymbol, hcompany, rfl⟩]
      simp only [Except.map, Prod.map, Store.restamped, Stock.made, putEntry_of_new hs.ne_nextId,
        List.map_append]
      rfl

namespace Desk

/-- An answer with one moment in place of all time stamps. -/
def Answer.restamped (m : Moment) : Answer → Answer
  | records stocks => .records (stocks.map (Stock.restamped m))
  | record stock => .record (stock.restamped m)
  | done => .done

namespace Errand

theorem restamped_meet_congr (x : Errand) (m now now' : Moment) (r : Stock) :
    (x.meet now r).1.restamped m = (x.meet now' r).1.restamped m ∧
      (x.meet now r).2.map (Stock.restamped m) = (x.meet now' r).2.map (Stock.restamped m) := by
  cases x <;> exact ⟨rfl, rfl⟩

/-- At another time an errand comes to the same, the time stamps apart. -/
theorem restamped_outcome_congr {s : Store} (hs : s.Ordered) {x : Errand} {i : Int}
    (hx : x.Concerns s i) (verdict : Verdict) (m now now' : Moment) (topCount : Int) :
    (x.outcome verdict now topCount s).map (·.map (Answer.restamped m)) (Store.restamped m) =
      (x.outcome verdict now' topCount s).map (·.map (Answer.restamped m))
        (Store.restamped m) := by
  cases verdict with
  | rejected r => rfl
  | proceed =>
    cases hx with
    | named hid hv =>
      simp only [outcome, Verdict.toExcept, Except.bind, act_eq_leave hs hid hv]
      cases s.get? i with
      | none => rfl
      | some r =>
        have hanswer := (x.restamped_meet_congr m now now' r).1
        have hstore := Store.restamped_leave_congr (s := s) (i := i)
          fun r => (x.restamped_meet_congr m now now' r).2
        exact Prod.ext (congrArg Except.ok hanswer) hstore
    | created request =>
      cases request with
      | none => rfl
      | some details =>
        have hadd := hs.restamped_add_congr m now now' details
        rw [outcome_createStock, outcome_createStock]
        cases hmade : s.add now details <;> cases hmade' : s.add now' details <;>
          rw [hmade, hmade'] at hadd
        · rw [Except.error.inj hadd]
        · cases hadd
        · cases hadd
        · obtain ⟨hstock, hstore⟩ := Prod.mk.inj (Except.ok.inj hadd)
          exact Prod.ext (congrArg (fun stock => Except.ok (Answer.record stock)) hstock) hstore

/-! ## Serving errands that concern different ids -/

/-- An errand that concerns an id is about an operand, and does not read the collection. -/
theorem exists_operand_of_concerns {s : Store} {x : Errand} {i : Int} (hx : x.Concerns s i) :
    ∃ o, x.operand = .ok o ∧ o ≠ .bulk := by
  cases hx with
  | created request => exact ⟨_, rfl, Operand.noConfusion⟩
  | @named _ v _ hid hv =>
    have hvalue (op : Operation) {purpose : IdPurpose}
        (hop : op.operandShape = (.entity, some purpose)) :
        ∃ o, Operand.ofValue op v = .ok o ∧ o ≠ .bulk :=
      ⟨_, Operand.ofValue_of_readInt hop hv.read, Operand.noConfusion⟩
    cases x with
    | getStock w =>
      obtain rfl := Option.some.inj hid
      exact hvalue .lookupById rfl
    | updateStock w details =>
      obtain rfl := Option.some.inj hid
      exact hvalue .update rfl
    | updateStockPrice w p =>
      obtain rfl := Option.some.inj hid
      exact hvalue .priceUpdate rfl
    | deleteStock w =>
      obtain rfl := Option.some.inj hid
      exact hvalue .delete rfl
    | _ => cases hid

end Errand

/-- An errand comes to what one verdict makes of the store at all desks of the same settings, and
leaves all else but the trail alone. -/
def Errand.HasVerdict (settings : AssessmentSettings) (x : Errand) (verdict : Verdict) : Prop :=
  ∀ d : Desk, d.assessor.Follows settings → ∀ clock,
    let outcome := x.outcome verdict clock.now d.topCount d.store
    ∃ t, d.handle clock x = (⟨outcome.2, d.assessor, t, d.topCount⟩, outcome.1)

theorem exists_verdict_of_concerns (settings : AssessmentSettings) {s : Store} {x : Errand}
    {i : Int} (hx : x.Concerns s i) : ∃ verdict, x.HasVerdict settings verdict := by
  obtain ⟨o, ho, hbulk⟩ := Errand.exists_operand_of_concerns hx
  refine ⟨settings.twoChecks Double.zero o, fun d hd clock => ?_⟩
  rw [settings.twoChecks_of_ne_bulk hbulk Double.zero d.assessor.nextDraw]
  exact exists_handle_eq hd clock ho hbulk

/-- An errand under a raw id does not take the next id. -/
theorem nextId_handle_of_id? (d : Desk) (clock : Clock) {x : Errand} {v : Value}
    (hx : x.id? = some v) : (d.handle clock x).1.store.nextId = d.store.nextId := by
  have hnext := (d.effect_handle clock x).nextId
  have hcreated : created? (x, (d.handle clock x).2) = none := by
    cases x <;> first
      | rfl
      | cases hx
  rw [hnext, hcreated]
  exact Int.add_zero _

/-- What an errand concerns stays the same after an errand that concerns another id. -/
theorem Errand.Concerns.handle {d : Desk} {x y : Errand} {i j : Int} (hy : y.Concerns d.store j)
    (hx : x.Concerns d.store i) (hij : i ≠ j) (clock : Clock) :
    y.Concerns (d.handle clock x).1.store j := by
  cases hy with
  | named hid hv => exact .named hid hv
  | created request =>
    cases hx with
    | named hid hv =>
      rw [← d.nextId_handle_of_id? clock hid]
      exact .created request
    | created request' => exact absurd rfl hij

section Serving

variable {d : Desk} {s : AssessmentSettings} (hd : d.assessor.Follows s) (hs : d.store.Ordered)
  {x y : Errand} {i j : Int}

include hd

/-- An errand that concerns an id leaves the assessor alone. -/
theorem assessor_handle_of_concerns (hx : x.Concerns d.store i) (clock : Clock) :
    (d.handle clock x).1.assessor = d.assessor := by
  obtain ⟨verdict, hverdict⟩ := exists_verdict_of_concerns s hx
  obtain ⟨t, ht⟩ := hverdict d hd clock
  rw [ht]

include hs

/-- At another time an errand that concerns an id comes to the same, the time stamps apart. -/
theorem restamped_handle_congr (hx : x.Concerns d.store i) (m : Moment) (clock clock' : Clock) :
    (d.handle clock x).2.map (Answer.restamped m) =
        (d.handle clock' x).2.map (Answer.restamped m) ∧
      (d.handle clock x).1.store.restamped m = (d.handle clock' x).1.store.restamped m := by
  obtain ⟨verdict, hverdict⟩ := exists_verdict_of_concerns s hx
  obtain ⟨t, ht⟩ := hverdict d hd clock
  obtain ⟨t', ht'⟩ := hverdict d hd clock'
  rw [ht, ht']
  exact Prod.mk.inj
    (Errand.restamped_outcome_congr hs hx verdict m clock.now clock'.now d.topCount)

/-- Errands that concern different ids come to the same in either order, each at its own time. -/
theorem handle_handle_of_concerns (hx : x.Concerns d.store i) (hy : y.Concerns d.store j)
    (hij : i ≠ j) (clock clock' : Clock) :
    ((d.handle clock x).1.handle clock' y).2 = (d.handle clock' y).2 ∧
      ((d.handle clock' y).1.handle clock x).2 = (d.handle clock x).2 ∧
      ((d.handle clock x).1.handle clock' y).1.store =
        ((d.handle clock' y).1.handle clock x).1.store := by
  obtain ⟨verdict, hverdict⟩ := exists_verdict_of_concerns s hx
  obtain ⟨verdict', hverdict'⟩ := exists_verdict_of_concerns s hy
  have hordered := (d.effect_handle clock x).ordered hs
  have hordered' := (d.effect_handle clock' y).ordered hs
  obtain ⟨t, ht⟩ := hverdict d hd clock
  obtain ⟨t', ht'⟩ := hverdict' d hd clock'
  rw [ht] at hordered ⊢
  rw [ht'] at hordered' ⊢
  obtain ⟨u, hu⟩ := hverdict' ⟨_, d.assessor, t, d.topCount⟩ hd clock'
  obtain ⟨u', hu'⟩ := hverdict ⟨_, d.assessor, t', d.topCount⟩ hd clock
  rw [hu, hu']
  exact Errand.commute_outcomes d.topCount hs hx hy hij hordered hordered'

end Serving

/-- Two errands come to the same in either order, and leave the same records in the same order, the
same next id and the same assessor : exactly so if each has its own time in both orders, and at any
times but for the time stamps. -/
structure Commute (d : Desk) (x y : Errand) : Prop where
  atOwnTimes : ∀ clock clock',
    ((d.handle clock x).1.handle clock' y).2 = (d.handle clock' y).2 ∧
      ((d.handle clock' y).1.handle clock x).2 = (d.handle clock x).2 ∧
      ((d.handle clock x).1.handle clock' y).1.store =
        ((d.handle clock' y).1.handle clock x).1.store
  atAnyTimes : ∀ m clock₁ clock₂ clock₃ clock₄,
    let first := d.handle clock₁ x
    let second := first.1.handle clock₂ y
    let first' := d.handle clock₃ y
    let second' := first'.1.handle clock₄ x
    first.2.map (Answer.restamped m) = second'.2.map (Answer.restamped m) ∧
      second.2.map (Answer.restamped m) = first'.2.map (Answer.restamped m) ∧
      second.1.store.restamped m = second'.1.store.restamped m
  assessor : ∀ clock clock',
    ((d.handle clock x).1.handle clock' y).1.assessor = d.assessor ∧
      ((d.handle clock' y).1.handle clock x).1.assessor = d.assessor

theorem commute_of_follows {d : Desk} {s : AssessmentSettings} (hd : d.assessor.Follows s)
    (hs : d.store.Ordered) {x y : Errand} {i j : Int} (hx : x.Concerns d.store i)
    (hy : y.Concerns d.store j) (hij : i ≠ j) : Commute d x y where
  atOwnTimes := handle_handle_of_concerns hd hs hx hy hij
  atAnyTimes m clock₁ clock₂ clock₃ clock₄ := by
    intro first second first' second'
    have hfirst := restamped_handle_congr hd hs hx m clock₁ clock₄
    have hfirst' := restamped_handle_congr hd hs hy m clock₂ clock₃
    have hsecond := restamped_handle_congr (follows_handle hd clock₁ x)
      ((d.effect_handle clock₁ x).ordered hs) (hy.handle hx hij clock₁) m clock₂ clock₃
    have hsecond' := restamped_handle_congr (follows_handle hd clock₃ y)
      ((d.effect_handle clock₃ y).ordered hs) (hx.handle hy hij.symm clock₃) m clock₁ clock₄
    refine ⟨?_, ?_, ?_⟩
    · exact hfirst.1.trans
        (congrArg _ (handle_handle_of_concerns hd hs hx hy hij clock₄ clock₃).2.1.symm)
    · exact (congrArg _ (handle_handle_of_concerns hd hs hx hy hij clock₁ clock₂).1).trans hfirst'.1
    · calc second.1.store.restamped m
          = ((d.handle clock₁ x).1.handle clock₃ y).1.store.restamped m := hsecond.2
        _ = ((d.handle clock₃ y).1.handle clock₁ x).1.store.restamped m :=
            congrArg _ (handle_handle_of_concerns hd hs hx hy hij clock₁ clock₃).2.2
        _ = second'.1.store.restamped m := hsecond'.2
  assessor clock clock' := by
    have hx' := assessor_handle_of_concerns hd hx clock
    have hy' := assessor_handle_of_concerns hd hy clock'
    refine ⟨?_, ?_⟩
    · rw [assessor_handle_of_concerns (follows_handle hd clock x) (hy.handle hx hij clock) clock',
        hx']
    · rw [assessor_handle_of_concerns (follows_handle hd clock' y)
        (hx.handle hy hij.symm clock') clock, hy']

/-- For all settings and every desk that any changes, any assessments and any errands lead to : two
errands that concern different ids, each to read, change or delete the record under its id, be it
stored or not and a sentinel or not, or to create the record of the next id, commute. -/
theorem commute_of_concerns {s : AssessmentSettings} {source : RandomSource} {a : Assessor}
    (ha : a.Reached s source) (changes : List Store.Change) (trail : Trail) (topCount : Int)
    (errands : List (Clock × Errand)) :
    let d := (Desk.mk (Store.empty.applyAll changes) a trail topCount).after errands
    ∀ x y i j, i ≠ j → Errand.Concerns d.store x i → Errand.Concerns d.store y j →
      Commute d x y := by
  intro d x y i j hij hx hy
  have hd : d.assessor.Follows s := follows_after ha.follows errands
  have hs : d.store.Ordered := ordered_after errands (Store.ordered_empty.applyAll changes)
  exact commute_of_follows hd hs hx hy hij

/-- The first of two records is deleted under the value true, and a third one is created : in either
order the second and the third are left, in this order. -/
theorem commute_of_deletion_and_creation :
    let clock : Clock := ⟨⟨⟨2024, 2, 29⟩, 0, 0, 0, 0, none⟩, Double.zero⟩
    let details : StockDetails := ⟨some "ACME", some "Acme", none, none, none, none, none⟩
    let deletion : Errand := .deleteStock (.bool true)
    let creation : Errand := .createStock (some details)
    ∃ a, Assessor.ofSettings {} (.cycle Double.zero []) = .ok a ∧
      let d : Desk :=
        ⟨Store.empty.applyAll [.add clock.now details, .add clock.now details], a, {}, 10⟩
      let left := ((d.handle clock deletion).1.handle clock creation).1.store
      deletion.Concerns d.store 1 ∧ creation.Concerns d.store 3 ∧
        left = ((d.handle clock creation).1.handle clock deletion).1.store ∧
        left.toList = [.made 2 clock.now details "ACME" "Acme",
          .made 3 clock.now details "ACME" "Acme"] := by
  intro clock details deletion creation
  have ha : Assessor.ofSettings {} (.cycle Double.zero []) = .ok _ := rfl
  refine ⟨_, ha, ?_⟩
  intro d left
  have hdeletion : deletion.Concerns d.store 1 := .named rfl ⟨rfl, rfl⟩
  have hcreation : creation.Concerns d.store 3 := .created (some details)
  have hcommute := commute_of_concerns (.start ha)
    [.add clock.now details, .add clock.now details] {} 10 [] deletion creation 1 3
    (by decide) hdeletion hcreation
  refine ⟨hdeletion, hcreation, (hcommute.atOwnTimes clock clock).2.2, ?_⟩
  dsimp only [left, d, clock, details, deletion, creation]
  rfl

end Desk

end StockRegister
