import StockRegister.Proofs.Service
import StockRegister.Web.Serving

/-!
# Answers to calls

A call about stocks is an errand (`Call.errand?`) about one operand (`Call.operand`). What it is
answered with is the response to what the errand comes to (`perform_eq`, `answerCall_eq`), and after
the errand the desk changes no more than the name of the run and the printed lines (`Closes`).

At a desk in service a valid call acts on the store or misses its record, and nothing else can go
wrong (`act_cases`). So the answer is decided by the first thing that is against the call : an
operand that is not valid, the recommendation, or that the record is missing (`Answered`).
-/

namespace StockRegister

open Schema

theorem Text.ofString_append (s t : String) : ofString s ++ ofString t = ofString (s ++ t) := by
  change Text.mk _ = Text.mk _
  rw [ofString, ofString, String.toList_append, List.map_append]

namespace Web

/-! ## Calls -/

namespace Call

/-- The errand that a call is, if it is about stocks. -/
def errand? : Call → Option Desk.Errand
  | page _ | health | readiness => none
  | listStocks => some .listStocks
  | search keyword => some (.search (.text keyword))
  | topGainers => some .topGainers
  | topByMarketCap => some .topByMarketCap
  | stockBySymbol symbol => some (.getStockBySymbol (.text symbol))
  | stocksOfSector sector => some (.listBySector (.text sector))
  | createStock request => some (.createStock request)
  | stock id => some (.getStock (.int id))
  | updateStock id details => some (.updateStock (.int id) details)
  | updatePrice id p => some (.updateStockPrice (.int id) p)
  | deleteStock id => some (.deleteStock (.int id))

/-- The operand that a call about stocks is about. -/
def operand : Call → Operand
  | stockBySymbol symbol => .symbol (some symbol)
  | createStock request => .creation request
  | stock id => .entity (some id) .lookup
  | updateStock id _ => .entity (some id) .update
  | updatePrice id _ => .entity (some id) .priceUpdate
  | deleteStock id => .entity (some id) .delete
  | _ => .bulk

/-- The status of the response to a call that does not fail. -/
def status : Call → Nat
  | createStock _ => 201
  | deleteStock _ => 204
  | _ => 200

theorem status_cases (c : Call) : c.status = 200 ∨ c.status = 201 ∨ c.status = 204 := by
  cases c <;> simp [status]

/-- The record that a call is about is not in a store. -/
def Misses (s : Store) : Call → Prop
  | stock id | updateStock id _ | updatePrice id _ | deleteStock id => s.get? id = none
  | stockBySymbol symbol => s.findBySymbol symbol = none
  | _ => False

/-- The failure of a call whose record is missing. -/
def missing : Call → DeskError
  | stock id | updateStock id _ | updatePrice id _ | deleteStock id => .noId (.int id)
  | stockBySymbol symbol => .noSymbol (.text symbol)
  | _ => .unusableKey

/-- The id that a call is about can be written. -/
def HasWritableId : Call → Prop
  | stock id | updateStock id _ | updatePrice id _ | deleteStock id => integerIsWritable id = true
  | _ => True

theorem operand_errand {c : Call} {x : Desk.Errand} (h : c.errand? = some x) :
    x.operand = .ok c.operand := by
  cases c <;> cases h <;> rfl

end Call

/-- The response to an answer, where that to a record has the given status. -/
def Response.ofAnswer (status : Nat) : Desk.Answer → Response
  | .records stocks => .ofStocks stocks
  | .record stock => .ofStock status stock
  | .done => { status := status }

/-- The response to what an errand came to. -/
def Response.ofResult (status : Nat) : Except DeskError Desk.Answer → Response
  | .ok a => ofAnswer status a
  | .error e => ofError e

/-- The response to a failure of a kind, with the stage that rejected the request if one did. -/
def Response.failure (status : Nat) (code : String) (message : Text) (stage : Option Rejection) :
    Response :=
  { status := status, body := errorBody code message stage }

/-- An id that can be written stands in the message that there is no record. -/
theorem message?_noId {id : Int} (h : integerIsWritable id = true) :
    (DeskError.noId (.int id)).message? =
      some (Text.ofString ("No stock with id " ++ toString id)) := by
  rw [DeskError.message?, Value.display?, if_pos h, Option.map_some, Text.ofString_append]

/-- There is a message about a missing record if the id can be written, and it is a string. -/
theorem Call.exists_message_missing {c : Call} {s : Store} (h : c.Misses s)
    (hid : c.HasWritableId) : ∃ m : String, c.missing.message? = some (m : Text) ∧
      Response.ofError c.missing = .failure 404 "not_found" m none := by
  cases c with
  | stock | updateStock | updatePrice | deleteStock =>
    have hmessage := message?_noId hid
    refine ⟨_, hmessage, ?_⟩
    rw [missing, Response.ofError, hmessage]
    rfl
  | stockBySymbol symbol =>
    have hmessage : (DeskError.noSymbol (.text symbol)).message? =
        some (Text.ofString ("No stock with symbol " ++ symbol)) :=
      congrArg some (Text.ofString_append _ _)
    refine ⟨_, hmessage, ?_⟩
    rw [missing, Response.ofError, hmessage]
    rfl
  | _ => cases h

end Web

open Web

namespace Desk

/-! ## Performing -/

variable (d : Desk) (clock : Clock)

theorem reply_map {α : Type} (f : α → Answer) (g : Answer → Response)
    (result : Desk × Except DeskError α) :
    reply (fun a => g (f a)) result =
      ((result.map id (Except.map f)).1, (result.map id (Except.map f)).2.map g) := by
  obtain ⟨d, e | a⟩ := result <;> rfl

/-- Performing a call about stocks is serving its errand. -/
theorem perform_eq {c : Call} {x : Errand} (h : c.errand? = some x) :
    d.perform clock c = ((d.handle clock x).1, (d.handle clock x).2.map (.ofAnswer c.status)) := by
  cases c with
  | page | health | readiness => cases h
  | listStocks | search | topGainers | topByMarketCap | stocksOfSector =>
    cases h
    exact reply_map .records (.ofAnswer 200) _
  | stockBySymbol | stock | updateStock | updatePrice =>
    cases h
    exact reply_map .record (.ofAnswer 200) _
  | createStock =>
    cases h
    exact reply_map .record (.ofAnswer 201) _
  | deleteStock =>
    cases h
    exact reply_map (fun _ => .done) (.ofAnswer 204) _

/-- Two desks differ only in the name of the run and in the lines that were printed. -/
structure Closes (d d' : Desk) : Prop where
  store : d'.store = d.store
  assessor : d'.assessor = d.assessor
  topCount : d'.topCount = d.topCount
  events : d'.trail.events = d.trail.events
  capacity : d'.trail.capacity = d.trail.capacity
  issued : d'.trail.issued = d.trail.issued

theorem Closes.records {d d' : Desk} (h : d.Closes d') {t : Trail} {names : List String}
    {runs : List Run} (hruns : Trail.Records names t d.trail runs) :
    Trail.Records names t d'.trail runs :=
  ⟨fun before hbefore => h.events.trans (hruns.events before hbefore),
    h.capacity.trans hruns.capacity, h.issued.trans hruns.issued⟩

theorem closes_unbound : d.Closes d.unbound := ⟨rfl, rfl, rfl, rfl, rfl, rfl⟩

theorem closes_logRejection (path : List Char) (x : Rejection) :
    d.Closes (d.unbound.logRejection clock path x) := by
  unfold logRejection Trail.tell
  cases d.unbound.trail.lineAt .. <;> exact ⟨rfl, rfl, rfl, rfl, rfl, rfl⟩

/-- A call about stocks is answered with what its errand comes to. -/
theorem answerCall_eq (path : List Char) {c : Call} {x : Errand} (h : c.errand? = some x) :
    ∃ d', d.answerCall clock path c = (d', .ofResult c.status (d.handle clock x).2) ∧
      (d.handle clock x).1.Closes d' := by
  unfold answerCall
  rw [perform_eq d clock h]
  obtain ⟨d₁, e | a⟩ := d.handle clock x
  · cases e with
    | rejected r => exact ⟨_, rfl, closes_logRejection d₁ clock path r⟩
    | _ => exact ⟨_, rfl, d₁.closes_unbound⟩
  · exact ⟨_, rfl, d₁.closes_unbound⟩

/-! ## Acting -/

/-- What is sought under an id is found exactly if there is a record. -/
theorem act_cases_of_seek {α : Type} {s : Store} {id : Int} (find : Int → Option α)
    (hfind : find id = none ↔ s.get? id = none) {status : Nat} {g : α → Answer × Store}
    (hg : ∀ a, (Response.ofAnswer status (g a).1).status = status) :
    (s.get? id = none ∧ (seek (.int id) find).map g = .error (.noId (.int id))) ∨
    ¬s.get? id = none ∧ ∃ a s', (seek (.int id) find).map g = .ok (a, s') ∧
      (Response.ofAnswer status a).status = status := by
  rw [seek_of_names (Value.names_int id)]
  cases ha : find id with
  | none => exact Or.inl ⟨hfind.mp ha, rfl⟩
  | some a => exact Or.inr ⟨fun h => by simp [hfind.mpr h] at ha, _, _, rfl, hg a⟩

/-- A valid call about stocks acts on a store of sound records, unless its record is missing. -/
theorem act_cases {d : Desk} (hsound : ∀ x ∈ d.store.toList, x.IsSound) (now : Moment) {c : Call}
    {x : Errand} (h : c.errand? = some x) (hvalid : c.operand.IsValid) :
    (c.Misses d.store ∧ x.act now d.topCount d.store = .error c.missing) ∨
    ¬c.Misses d.store ∧ ∃ a s', x.act now d.topCount d.store = .ok (a, s') ∧
      (Response.ofAnswer c.status a).status = c.status := by
  cases c with
  | page | health | readiness => cases h
  | listStocks | search | topByMarketCap | stocksOfSector =>
    cases h
    exact Or.inr ⟨not_false, _, _, rfl, rfl⟩
  | topGainers =>
    cases h
    obtain ⟨stocks, hstocks⟩ := d.store.exists_topGainers hsound d.topCount
    refine Or.inr ⟨not_false, .records stocks, d.store, ?_, rfl⟩
    rw [Errand.act, hstocks]
    rfl
  | stockBySymbol symbol =>
    cases h
    simp only [Errand.act, seekSymbol, Value.toText?, Option.bind_some, Call.Misses]
    cases hfind : d.store.findBySymbol symbol with
    | none => exact Or.inl ⟨rfl, rfl⟩
    | some stock => exact Or.inr ⟨by simp, _, _, rfl, rfl⟩
  | createStock request =>
    cases h
    obtain ⟨details, rfl, ⟨symbol, hsymbol, -⟩, ⟨companyName, hcompany, -⟩⟩ := hvalid
    have hcomplete : details.IsComplete :=
      ⟨Option.isSome_iff_exists.mpr ⟨symbol, hsymbol⟩,
        Option.isSome_iff_exists.mpr ⟨companyName, hcompany⟩⟩
    obtain ⟨stock, s', hadd⟩ := Store.exists_add_of_isComplete now hcomplete d.store
    refine Or.inr ⟨not_false, .record stock, s', ?_, rfl⟩
    rw [Errand.act, addRequested, hadd]
    rfl
  | stock id =>
    cases h
    exact act_cases_of_seek d.store.get? Iff.rfl fun _ => rfl
  | updateStock id details =>
    cases h
    exact act_cases_of_seek (fun key => d.store.update now key details) Store.modify_eq_none_iff
      fun _ => rfl
  | updatePrice id p =>
    cases h
    exact act_cases_of_seek
      (fun key => d.store.updatePrice now key (.float p.newPrice) (.ofInt? p.volume))
      Store.modify_eq_none_iff fun _ => rfl
  | deleteStock id =>
    cases h
    exact act_cases_of_seek d.store.remove Store.remove_eq_none_iff fun _ => rfl

/-! ## Answers -/

section Answers

variable {d : Desk} {s : AssessmentSettings} (hd : d.InService s) {c : Call} {x : Errand}
  (hc : c.errand? = some x) (path : List Char)

include hd hc

/-- A call whose operand is rejected is answered with the rejection. -/
theorem answerCall_of_rejected {r : Rejection}
    (h : s.twoChecks d.assessor.nextDraw c.operand = .rejected r) :
    (d.answerCall clock path c).1.store = d.store ∧
      (d.answerCall clock path c).2 = .ofError (.rejected r) := by
  obtain ⟨d', hanswer, hcloses⟩ := answerCall_eq d clock path hc
  rw [hanswer]
  rcases handle_cases clock hd.follows (Call.operand_errand hc) with
    ⟨r', hverdict, hresult, hstore⟩ | ⟨hverdict, -⟩
  · obtain rfl := Verdict.rejected.inj (h.symm.trans hverdict)
    exact ⟨hcloses.store.trans hstore, congrArg (Response.ofResult c.status) hresult⟩
  · cases h.symm.trans hverdict

/-- A call that may proceed is answered with what it makes of the store, unless its record is
missing. -/
theorem answerCall_of_proceed (hvalid : c.operand.IsValid)
    (h : s.twoChecks d.assessor.nextDraw c.operand = .proceed) :
    (c.Misses d.store → (d.answerCall clock path c).1.store = d.store ∧
      (d.answerCall clock path c).2 = .ofError c.missing) ∧
    (¬c.Misses d.store → ∃ a,
      x.act clock.now d.topCount d.store = .ok (a, (d.answerCall clock path c).1.store) ∧
        (d.answerCall clock path c).2 = .ofAnswer c.status a ∧
          (d.answerCall clock path c).2.status = c.status) := by
  obtain ⟨d', hanswer, hcloses⟩ := answerCall_eq d clock path hc
  rw [hanswer]
  rcases handle_cases clock hd.follows (Call.operand_errand hc) with ⟨r, hverdict, -⟩ | ⟨-, hacts⟩
  · cases h.symm.trans hverdict
  · rcases act_cases hd.sound clock.now hc hvalid with
      ⟨hmisses, he⟩ | ⟨hfound, a, s', ha, hstatus⟩
    · refine ⟨fun _ => ?_, fun hfound => absurd hmisses hfound⟩
      rcases hacts with ⟨e', he', hresult, hstore⟩ | ⟨a, s', ha, -⟩
      · obtain rfl := Except.error.inj (he.symm.trans he')
        exact ⟨hcloses.store.trans hstore, congrArg (Response.ofResult c.status) hresult⟩
      · cases he.symm.trans ha
    · refine ⟨fun hmisses => absurd hmisses hfound, fun _ => ?_⟩
      rcases hacts with ⟨e', he', -⟩ | ⟨a', s'', ha', hresult, hstore⟩
      · cases ha.symm.trans he'
      · cases ha.symm.trans ha'
        have hresponse : Response.ofResult c.status (d.handle clock x).2 = .ofAnswer c.status a :=
          congrArg (Response.ofResult c.status) hresult
        refine ⟨a, ?_, hresponse, ?_⟩
        · rw [hcloses.store, hstore, ha]
        · rw [hresponse]
          exact hstatus

end Answers

/-- How a call about stocks is answered : by the first thing that is against it, be it an operand
that is not valid, a sentinel or a draw, or a record that is missing. -/
structure Answered (s : AssessmentSettings) (d : Desk) (clock : Clock) (c : Call) (d' : Desk)
    (response : Response) : Prop where
  invalid : ¬c.operand.IsValid → d'.store = d.store ∧ response =
    .failure 400 "validation_error" (c.operand.complaint "data processing")
      (some ⟨1, "data_processing", .validation, c.operand.complaint "data processing"⟩)
  sentinel : c.operand.IsValid → c.operand ≠ .bulk →
    ∀ v, s.objection? d.assessor.nextDraw c.operand = some v → d'.store = d.store ∧ response =
      .failure 422 "domain_rejection" v.message (some ⟨9, "recommendation", .domain, v.message⟩)
  draw : c.operand = .bulk →
    ∀ v, s.objection? d.assessor.nextDraw c.operand = some v → d'.store = d.store ∧ response =
      .failure 503 "transient_rejection" v.message
        (some ⟨9, "recommendation", .transient, v.message⟩)
  missing : c.operand.IsValid → s.objection? d.assessor.nextDraw c.operand = none →
    c.Misses d.store → d'.store = d.store ∧ ∃ message : String,
      c.missing.message? = some (message : Text) ∧ response = .failure 404 "not_found" message none
  done : c.operand.IsValid → s.objection? d.assessor.nextDraw c.operand = none →
    ¬c.Misses d.store → response.status = c.status ∧ ∃ x a, c.errand? = some x ∧
      x.act clock.now d.topCount d.store = .ok (a, d'.store) ∧ response = .ofAnswer c.status a

/-- The recommendation objects to the whole collection for its draw, and to all else for a
sentinel. -/
theorem failure_of_objection {s : AssessmentSettings} {draw : Double} {o : Operand} {v : Violation}
    (h : s.objection? draw o = some v) :
    v.failure = if o = .bulk then .transient else .domain := by
  cases o with
  | bulk | symbol =>
    simp only [AssessmentSettings.objection?] at h
    split_ifs at h
    cases h
    rfl
  | entity value purpose =>
    cases purpose <;> simp only [AssessmentSettings.objection?] at h <;> split_ifs at h <;>
      cases h <;> rfl
  | creation details =>
    cases details with
    | none => cases h
    | some details =>
      simp only [AssessmentSettings.objection?] at h
      split_ifs at h
      cases h
      rfl

theorem twoChecks_of_objection {s : AssessmentSettings} {draw : Double} {o : Operand}
    (hvalid : o.IsValid) {v : Violation} (h : s.objection? draw o = some v) :
    s.twoChecks draw o = .rejected ⟨9, "recommendation", v.failure, v.message⟩ := by
  rw [AssessmentSettings.twoChecks, if_pos hvalid, h]

theorem twoChecks_of_no_objection {s : AssessmentSettings} {draw : Double} {o : Operand}
    (hvalid : o.IsValid) (h : s.objection? draw o = none) : s.twoChecks draw o = .proceed := by
  rw [AssessmentSettings.twoChecks, if_pos hvalid, h]

theorem answered_answerCall {d : Desk} {s : AssessmentSettings} (hd : d.InService s) {c : Call}
    {x : Errand} (hc : c.errand? = some x) (hid : c.HasWritableId) (path : List Char) :
    Answered s d clock c (d.answerCall clock path c).1 (d.answerCall clock path c).2 where
  invalid hvalid := by
    exact answerCall_of_rejected clock hd hc path (if_neg hvalid)
  sentinel hvalid hbulk v hv := by
    have hfailure := failure_of_objection hv
    rw [if_neg hbulk] at hfailure
    have hverdict := twoChecks_of_objection hvalid hv
    rw [hfailure] at hverdict
    exact answerCall_of_rejected clock hd hc path hverdict
  draw hbulk v hv := by
    have hfailure := failure_of_objection hv
    rw [if_pos hbulk] at hfailure
    have hvalid : c.operand.IsValid := by
      rw [hbulk]
      trivial
    have hverdict := twoChecks_of_objection hvalid hv
    rw [hfailure] at hverdict
    exact answerCall_of_rejected clock hd hc path hverdict
  missing hvalid hnone hmisses := by
    obtain ⟨hstore, hresponse⟩ := (answerCall_of_proceed clock hd hc path hvalid
      (twoChecks_of_no_objection hvalid hnone)).1 hmisses
    obtain ⟨message, hmessage, herror⟩ := Call.exists_message_missing hmisses hid
    exact ⟨hstore, message, hmessage, hresponse.trans herror⟩
  done hvalid hnone hfound := by
    obtain ⟨a, hact, hresponse, hstatus⟩ := (answerCall_of_proceed clock hd hc path hvalid
      (twoChecks_of_no_objection hvalid hnone)).2 hfound
    exact ⟨hstatus, x, a, hc, hact, hresponse⟩

end Desk

end StockRegister
