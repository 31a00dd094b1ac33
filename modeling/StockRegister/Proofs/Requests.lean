import StockRegister.Proofs.Answers
import StockRegister.Proofs.Integers

/-!
# Requests to the interface

A request makes a call or it makes none (`Request.call?`) : the router may have no endpoint for it,
or the endpoint may not be able to read it. Such a request is answered at once, by a response that
is early (`Response.IsEarly`), and leaves the desk exactly as it was.

A call about stocks is of the operation of its endpoint and makes one run, and it is answered by the
first thing that is against it (`Answered`). A desk stays in service whatever is asked
(`InService.serve`), since what an endpoint reads was checked (`Request.Reaches.isChecked`).

`serve_from_start` says all this of every request to a desk that was opened, after any other
requests : a response that refuses something leaves the store as it was, and an early one the whole
desk.
-/

namespace StockRegister

open Schema

namespace Web

/-! ## Calls of requests -/

/-- The operation of an endpoint, if it is about stocks. -/
def Endpoint.operation? : Endpoint → Option Operation
  | page _ | health | readiness => none
  | listStocks | search | topGainers | topByMarketCap | stocksOfSector _ => some .bulkLookup
  | stockBySymbol _ => some .lookupBySymbol
  | createStock => some .create
  | stock _ => some .lookupById
  | updateStock _ => some .update
  | updatePrice _ => some .priceUpdate
  | deleteStock _ => some .delete

/-- The call that a request makes, or the response to one that makes none. -/
def Request.call? (r : Request) : Except Response Call :=
  match Routing.find r.method r.target with
  | .nowhere => .error .notFound
  | .wrongMethod => .error .wrongMethod
  | .elsewhere path => .error (.elsewhere r.host path r.query)
  | .to endpoint => (endpoint.read r).mapError .ofRefusal

/-- A request reaches an endpoint with a call. -/
structure Request.Reaches (r : Request) (e : Endpoint) (c : Call) : Prop where
  found : Routing.find r.method r.target = .to e
  read : e.read r = .ok c

theorem Request.call?_eq_ok_iff {r : Request} {c : Call} :
    r.call? = .ok c ↔ ∃ e, r.Reaches e c := by
  constructor
  · intro h
    unfold call? at h
    split at h
    · cases h
    · cases h
    · cases h
    · rename_i e hfound
      cases hread : e.read r with
      | error refusal =>
        rw [hread] at h
        cases h
      | ok c' =>
        rw [hread] at h
        cases h
        exact ⟨e, hfound, hread⟩
  · rintro ⟨e, hfound, hread⟩
    rw [call?, hfound]
    exact congrArg (Except.mapError Response.ofRefusal) hread

/-! ## What endpoints read -/

theorem callOf_eq_ok {x : Checked Call} {c : Call} : callOf x = .ok c ↔ x = .ok c := by
  cases x <;> simp [callOf]

theorem Body.readObject_eq_ok {α : Type} {read : Fields → Checked α} {b : Body} {a : α} :
    b.readObject read = .ok a ↔ ∃ fields, b = .json (.object fields) ∧ read fields = .ok a := by
  constructor
  · intro h
    unfold readObject at h
    split at h
    · cases h
    · exact ⟨_, rfl, Checked.under_eq_ok.mp h⟩
    · cases h
  · rintro ⟨fields, rfl, h⟩
    exact Checked.under_eq_ok.mpr h

theorem Body.exists_of_readOptional {α : Type} {read : Fields → Checked α} {b : Body} {a : α}
    (h : b.readOptional read = .ok (some a)) :
    ∃ fields, b = .json (.object fields) ∧ read fields = .ok a := by
  unfold readOptional at h
  split at h
  · cases h
  · cases h
  · obtain ⟨a', ha, heq⟩ := Checked.map_eq_ok.mp h
    cases heq
    exact readObject_eq_ok.mp ha

/-- The calls that an endpoint can read, and what their body held. -/
inductive Endpoint.Reads (r : Request) : Endpoint → Call → Prop
  | page (p : Page) : Reads r (.page p) (.page p)
  | health : Reads r .health .health
  | readiness : Reads r .readiness .readiness
  | listStocks : Reads r .listStocks .listStocks
  | search (keyword : String) : Reads r .search (.search keyword)
  | topGainers : Reads r .topGainers .topGainers
  | topByMarketCap : Reads r .topByMarketCap .topByMarketCap
  | stockBySymbol (symbol : String) : Reads r (.stockBySymbol symbol) (.stockBySymbol symbol)
  | stocksOfSector (sector : String) : Reads r (.stocksOfSector sector) (.stocksOfSector sector)
  | createNothing : Reads r .createStock (.createStock none)
  | createStock {fields : Fields} {d : StockDetails} : r.readBody = .ok (.json (.object fields)) →
      StockDetails.readFields fields = .ok d → Reads r .createStock (.createStock (some d))
  | stock {id : String} {n : Int} : readPathId id = .ok n → Reads r (.stock id) (.stock n)
  | updateStock {id : String} {n : Int} {fields : Fields} {d : StockDetails} :
      readPathId id = .ok n → r.readBody = .ok (.json (.object fields)) →
        StockDetails.readFields fields = .ok d → Reads r (.updateStock id) (.updateStock n d)
  | updatePrice {id : String} {n : Int} {fields : Fields} {p : PriceUpdate} :
      readPathId id = .ok n → r.readBody = .ok (.json (.object fields)) →
        PriceUpdate.readFields fields = .ok p → Reads r (.updatePrice id) (.updatePrice n p)
  | deleteStock {id : String} {n : Int} : readPathId id = .ok n →
      Reads r (.deleteStock id) (.deleteStock n)

theorem Endpoint.reads_of_read {e : Endpoint} {r : Request} {c : Call} (h : e.read r = .ok c) :
    e.Reads r c := by
  cases e with
  | page | health | readiness | listStocks | topGainers | topByMarketCap | stockBySymbol
    | stocksOfSector =>
    cases h
    constructor
  | search =>
    obtain ⟨keyword, -, rfl⟩ := Checked.map_eq_ok.mp (callOf_eq_ok.mp h)
    exact .search keyword
  | createStock =>
    obtain ⟨body, hbody, h⟩ := exists_of_bind_eq_ok h
    obtain ⟨request, hrequest, rfl⟩ := Checked.map_eq_ok.mp (callOf_eq_ok.mp h)
    cases request with
    | none => exact .createNothing
    | some d =>
      obtain ⟨fields, rfl, hd⟩ := Body.exists_of_readOptional hrequest
      exact .createStock hbody hd
  | stock id =>
    obtain ⟨n, hn, rfl⟩ := Checked.map_eq_ok.mp (callOf_eq_ok.mp h)
    exact .stock hn
  | updateStock id =>
    obtain ⟨body, hbody, h⟩ := exists_of_bind_eq_ok h
    obtain ⟨f, d, hf, hd, rfl⟩ := Checked.seq_eq_ok.mp (callOf_eq_ok.mp h)
    obtain ⟨n, hn, rfl⟩ := Checked.map_eq_ok.mp hf
    obtain ⟨fields, rfl, hfields⟩ := Body.readObject_eq_ok.mp hd
    exact .updateStock hn hbody hfields
  | updatePrice id =>
    obtain ⟨body, hbody, h⟩ := exists_of_bind_eq_ok h
    obtain ⟨f, p, hf, hp, rfl⟩ := Checked.seq_eq_ok.mp (callOf_eq_ok.mp h)
    obtain ⟨n, hn, rfl⟩ := Checked.map_eq_ok.mp hf
    obtain ⟨fields, rfl, hfields⟩ := Body.readObject_eq_ok.mp hp
    exact .updatePrice hn hbody hfields
  | deleteStock id =>
    obtain ⟨n, hn, rfl⟩ := Checked.map_eq_ok.mp (callOf_eq_ok.mp h)
    exact .deleteStock hn

namespace Request.Reaches

variable {r : Request} {e : Endpoint} {c : Call} (h : r.Reaches e c)

include h

/-- A call is of the operation of its endpoint. -/
theorem operation_eq : c.errand?.map Desk.Errand.operation = e.operation? := by
  cases e.reads_of_read h.read <;> rfl

/-- The details and the price update of a call were read by their models. -/
theorem isChecked {x : Desk.Errand} (hx : c.errand? = some x) : x.IsChecked := by
  cases e.reads_of_read h.read with
  | createStock hbody hd =>
    cases hx
    exact ⟨.object _, congrArg (Record.createRequest <$> ·) hd⟩
  | updateStock hn hbody hd =>
    cases hx
    exact ⟨.object _, congrArg (Record.updateRequest <$> ·) hd⟩
  | updatePrice hn hbody hp =>
    cases hx
    exact ⟨.object _, congrArg (Record.priceUpdate <$> ·) hp⟩
  | page | health | readiness => cases hx
  | _ =>
    cases hx
    trivial

/-- An id that was read from a path can be written. -/
theorem hasWritableId : c.HasWritableId := by
  have hid {id : String} {n : Int} (hn : readPathId id = .ok n) : integerIsWritable n = true :=
    ensures_readInt (v := .text id) rfl n (Checked.under_eq_ok.mp (Checked.under_eq_ok.mp hn))
  cases e.reads_of_read h.read with
  | stock hn => exact hid hn
  | updateStock hn => exact hid hn
  | updatePrice hn => exact hid hn
  | deleteStock hn => exact hid hn
  | _ => trivial

end Request.Reaches

end Web

open Web

/-! ## Early responses -/

namespace Web.Response

/-- A response is early : it sends the client elsewhere, says that there is no endpoint, or says
that the request could not be read, and so names no stage. -/
def IsEarly (response : Response) : Prop :=
  response.status = 307 ∨ response.status = 405 ∨ response = .notFound ∨
    response.status = 400 ∧ ∀ code message stage,
      response.body ≠ errorBody code message (some stage)

/-- The bodies of errors are told apart by whether they name a stage. -/
theorem isSome_of_errorBody_eq {code code' : String} {message message' : Text}
    {stage stage' : Option Rejection}
    (h : errorBody code message stage = errorBody code' message' stage') :
    stage.isSome = stage'.isSome := by
  cases stage <;> cases stage' <;> simp [errorBody, Value.ofInt?] at h ⊢

theorem isEarly_ofRefusal (refusal : Refusal) : (ofRefusal refusal).IsEarly := by
  refine Or.inr (Or.inr (Or.inr ?_))
  cases refusal with
  | invalid problems =>
    refine ⟨rfl, fun code message stage h => ?_⟩
    have hstage := isSome_of_errorBody_eq h
    cases hstage
  | unparsable =>
    refine ⟨rfl, fun code message stage h => ?_⟩
    simp [ofRefusal, detail, errorBody] at h

/-- A response is the failure of a call that a stage rejected, or whose record is missing. -/
inductive IsFailure : Response → Prop
  | rejected {status : Nat} (code : String) (rank : Nat) (name : String) (kind : FailureKind)
      (message : String) : status = 400 ∨ status = 422 ∨ status = 503 →
        IsFailure (failure status code message (some ⟨rank, name, kind, message⟩))
  | missing (message : String) : IsFailure (failure 404 "not_found" message none)

/-- A failure of a call is not early : it names a stage, or has an error instead of a detail. -/
theorem IsFailure.not_isEarly {response : Response} (h : response.IsFailure) :
    ¬response.IsEarly := by
  cases h with
  | @rejected status code rank name kind message hstatus =>
    rintro (hearly | hearly | hearly | ⟨-, hbody⟩)
    · change status = 307 at hearly
      omega
    · change status = 405 at hearly
      omega
    · simp [failure, notFound, detail, errorBody] at hearly
    · exact hbody code message _ rfl
  | missing message =>
    rintro (hearly | hearly | hearly | ⟨hearly, -⟩)
    · cases hearly
    · cases hearly
    · simp [failure, notFound, detail, errorBody] at hearly
    · cases hearly

end Web.Response

/-- The responses to requests without a call. -/
theorem Web.Request.cases_of_call? {r : Request} {response : Response}
    (h : r.call? = .error response) :
    response = .notFound ∨ response = .wrongMethod ∨
      (∃ path, response = .elsewhere r.host path r.query) ∨
        ∃ refusal, response = .ofRefusal refusal := by
  unfold call? at h
  split at h
  · cases h
    exact Or.inl rfl
  · cases h
    exact Or.inr (Or.inl rfl)
  · rename_i path hfound
    cases h
    exact Or.inr (Or.inr (Or.inl ⟨path, rfl⟩))
  · rename_i e hfound
    cases hread : e.read r with
    | error refusal =>
      rw [hread] at h
      cases h
      exact Or.inr (Or.inr (Or.inr ⟨refusal, rfl⟩))
    | ok c =>
      rw [hread] at h
      cases h

/-- A request without a call gets an early response. -/
theorem Web.Request.isEarly_of_call? {r : Request} {response : Response}
    (h : r.call? = .error response) : response.IsEarly := by
  rcases cases_of_call? h with rfl | rfl | ⟨path, rfl⟩ | ⟨refusal, rfl⟩
  · exact Or.inr (Or.inr (Or.inl rfl))
  · exact Or.inr (Or.inl rfl)
  · exact Or.inl rfl
  · exact Response.isEarly_ofRefusal refusal

namespace Desk

/-! ## Serving -/

section Serving

variable (d : Desk) (clock : Clock)

/-- A request without a call is answered without the desk. -/
theorem serve_eq (r : Request) :
    d.serve clock r = match r.call? with
      | .error response => (d, response)
      | .ok c => d.answerCall clock r.target c := by
  unfold serve Request.call?
  rcases Routing.find r.method r.target with endpoint | - | path | -
  · dsimp only
    cases endpoint.read r <;> rfl
  · rfl
  · rfl
  · rfl

/-- A call that is not about stocks is answered, and changes no more than the name of the run. -/
theorem answerCall_page (path : List Char) {c : Call} (h : c.errand? = none) :
    (d.answerCall clock path c).1 = d.unbound ∧ (d.answerCall clock path c).2.status = 200 ∧
      (d.answerCall clock path c).2.isWritable = true := by
  cases c with
  | page | health | readiness => exact ⟨rfl, rfl, rfl⟩
  | _ => cases h

end Serving

/-- A request leaves the desk as it is, or for the name of the run, or as an errand has left it. -/
theorem serve_cases (d : Desk) (clock : Clock) (r : Request) :
    (∃ response, r.call? = .error response ∧ d.serve clock r = (d, response)) ∨
    ∃ e c, r.Reaches e c ∧ d.serve clock r = d.answerCall clock r.target c ∧
      (c.errand? = none ∧ (d.serve clock r).1 = d.unbound ∨
        ∃ x, c.errand? = some x ∧ (d.handle clock x).1.Closes (d.serve clock r).1) := by
  rw [serve_eq]
  cases hcall : r.call? with
  | error response => exact Or.inl ⟨response, rfl, rfl⟩
  | ok c =>
    obtain ⟨e, hreaches⟩ := Request.call?_eq_ok_iff.mp hcall
    refine Or.inr ⟨e, c, hreaches, rfl, ?_⟩
    cases hc : c.errand? with
    | none => exact Or.inl ⟨rfl, (answerCall_page d clock r.target hc).1⟩
    | some x =>
      obtain ⟨d', hanswer, hcloses⟩ := answerCall_eq d clock r.target hc
      refine Or.inr ⟨x, rfl, ?_⟩
      dsimp only
      rw [hanswer]
      exact hcloses

/-- Whatever is asked, a desk stays in service. -/
theorem InService.serve {d : Desk} {s : AssessmentSettings} (hd : d.InService s) (clock : Clock)
    (r : Request) : (d.serve clock r).1.InService s := by
  rcases serve_cases d clock r with
    ⟨response, -, heq⟩ | ⟨e, c, hreaches, -, ⟨-, hdesk⟩ | ⟨x, hc, hcloses⟩⟩
  · rw [heq]
    exact hd
  · rw [hdesk]
    exact hd.of_eq rfl rfl
  · exact (hd.handle clock (hreaches.isChecked hc)).of_eq hcloses.assessor hcloses.store

/-- The desk after requests, one after the other, each at its own time. -/
def afterRequests (d : Desk) : List (Clock × Request) → Desk
  | [] => d
  | e :: rest => (d.serve e.1 e.2).1.afterRequests rest

theorem InService.afterRequests {d : Desk} {s : AssessmentSettings} (hd : d.InService s)
    (requests : List (Clock × Request)) : (d.afterRequests requests).InService s := by
  induction requests generalizing d with
  | nil => exact hd
  | cons e requests ih => exact ih (hd.serve e.1 e.2)

/-! ## How requests are served -/

section Calls

variable {d : Desk} {s : AssessmentSettings} (clock : Clock)

theorem map_name_stages {a : Assessor} (ha : a.Follows s) :
    a.stages.map (·.name) = stageNames.map Prod.fst := by
  rw [ha.stages]
  rfl

/-- A call about stocks records one run, with the verdict of the two checks. -/
theorem records_answerCall (hd : d.InService s) (path : List Char) {c : Call} {x : Errand}
    (hc : c.errand? = some x) :
    Trail.Records (stageNames.map Prod.fst) d.trail (d.answerCall clock path c).1.trail
      [⟨clock, x.operation, c.operand, s.twoChecks d.assessor.nextDraw c.operand⟩] := by
  have hranks : d.assessor.stages.map (·.rank) = Assessor.expectedRanks := by
    rw [hd.follows.stages]
    rfl
  have hrun := Assessor.records_conclude hranks clock x.operation c.operand d.trail
  have htrail := trail_handle d clock (Call.operand_errand hc)
  obtain ⟨t, hassess⟩ :=
    Assessor.conclude_eq_twoChecks hd.follows clock x.operation c.operand d.trail
  obtain ⟨d', hanswer, hcloses⟩ := answerCall_eq d clock path hc
  rw [map_name_stages hd.follows, ← htrail, hassess] at hrun
  rw [hanswer]
  exact hcloses.records hrun

/-- An answer is a failure that leaves the store as it was, or it says what the errand has
answered and has the status of the call. -/
theorem Answered.failure_or_done {c : Call} {d' : Desk} {response : Response}
    (h : Answered s d clock c d' response) :
    (d'.store = d.store ∧ response.IsFailure) ∨
    response.status = c.status ∧ ∃ x a, c.errand? = some x ∧
      x.act clock.now d.topCount d.store = .ok (a, d'.store) ∧ response = .ofAnswer c.status a := by
  by_cases hvalid : c.operand.IsValid
  · cases hobjection : s.objection? d.assessor.nextDraw c.operand with
    | some v =>
      by_cases hbulk : c.operand = .bulk
      · obtain ⟨hstore, rfl⟩ := h.draw hbulk v hobjection
        exact Or.inl ⟨hstore, .rejected _ _ _ _ _ (by simp)⟩
      · obtain ⟨hstore, rfl⟩ := h.sentinel hvalid hbulk v hobjection
        exact Or.inl ⟨hstore, .rejected _ _ _ _ _ (by simp)⟩
    | none =>
      by_cases hmisses : c.Misses d.store
      · obtain ⟨hstore, message, -, rfl⟩ := h.missing hvalid hobjection hmisses
        exact Or.inl ⟨hstore, .missing message⟩
      · exact Or.inr (h.done hvalid hobjection hmisses)
  · obtain ⟨hstore, rfl⟩ := h.invalid hvalid
    exact Or.inl ⟨hstore, .rejected _ _ _ _ _ (by simp)⟩

end Calls

/-- A status that a call can be answered with if it does not fail is no status of an early
response. -/
theorem not_isEarly_of_status {c : Call} {response : Response} (h : response.status = c.status) :
    ¬response.IsEarly := by
  have hstatus := c.status_cases
  rintro (hearly | hearly | rfl | ⟨hearly, -⟩)
  · omega
  · omega
  · change 404 = c.status at h
    omega
  · omega

/-- How a desk serves a request. -/
structure Served (s : AssessmentSettings) (d : Desk) (clock : Clock) (r : Request) (d' : Desk)
    (response : Response) : Prop where
  refused : ∀ early, r.call? = .error early → d' = d ∧ response = early ∧ early.IsEarly
  page : ∀ e c, r.Reaches e c → e.operation? = none → d' = d.unbound ∧ response.status = 200
  run : ∀ e c op, r.Reaches e c → e.operation? = some op →
    Trail.Records (stageNames.map Prod.fst) d.trail d'.trail
      [⟨clock, op, c.operand, s.twoChecks d.assessor.nextDraw c.operand⟩] ∧
    Answered s d clock c d' response
  early : response.IsEarly → d' = d
  failed : response.status = 307 ∨ 400 ≤ response.status ∧ response.status < 500 ∨
    response.status = 503 → d'.store = d.store

theorem served_of_refused (d : Desk) (s : AssessmentSettings) (clock : Clock) {r : Request}
    {response : Response} (hcall : r.call? = .error response) :
    Served s d clock r d response := by
  have hcalls : ∀ e c, ¬r.Reaches e c := by
    intro e c hreaches
    have hcall' := Request.call?_eq_ok_iff.mpr ⟨e, hreaches⟩
    cases hcall.symm.trans hcall'
  refine ⟨fun early h => ?_, fun e c h => absurd h (hcalls e c),
    fun e c op h => absurd h (hcalls e c), fun _ => rfl, fun _ => rfl⟩
  obtain rfl := Except.error.inj (hcall.symm.trans h)
  exact ⟨rfl, rfl, Request.isEarly_of_call? hcall⟩

theorem served_of_reaches {d : Desk} {s : AssessmentSettings} (hd : d.InService s) (clock : Clock)
    {r : Request} {e : Endpoint} {c : Call} (h : r.Reaches e c) :
    Served s d clock r (d.answerCall clock r.target c).1 (d.answerCall clock r.target c).2 := by
  have hrefused : ∀ early, r.call? ≠ .error early := by
    intro early hearly
    cases hearly.symm.trans (Request.call?_eq_ok_iff.mpr ⟨e, h⟩)
  have hunique : ∀ {e' c'}, r.Reaches e' c' → e' = e ∧ c' = c := by
    intro e' c' h'
    obtain rfl := Routing.to.inj (h'.found.symm.trans h.found)
    exact ⟨rfl, Except.ok.inj (h'.read.symm.trans h.read)⟩
  have hoperation := h.operation_eq
  cases hc : c.errand? with
  | none =>
    rw [hc] at hoperation
    obtain ⟨hdesk, hpage, -⟩ := answerCall_page d clock r.target hc
    refine ⟨fun early hearly => absurd hearly (hrefused early), fun _ _ _ _ => ⟨hdesk, hpage⟩,
      fun e' c' op h' hop => ?_, fun hearly => ?_, fun _ => by rw [hdesk]; rfl⟩
    · obtain ⟨rfl, -⟩ := hunique h'
      cases hoperation.trans hop
    · have hstatus : (d.answerCall clock r.target c).2.status = c.status := by
        rw [hpage]
        cases c with
        | page | health | readiness => rfl
        | _ => cases hc
      exact absurd hearly (not_isEarly_of_status hstatus)
  | some x =>
    rw [hc] at hoperation
    have hanswered := answered_answerCall clock hd hc h.hasWritableId r.target
    have hrun := records_answerCall clock hd r.target hc
    refine ⟨fun early hearly => absurd hearly (hrefused early), fun e' c' h' hop => ?_,
      fun e' c' op h' hop => ?_, fun hearly => ?_, fun hfailed => ?_⟩
    · obtain ⟨rfl, -⟩ := hunique h'
      cases hoperation.trans hop
    · obtain ⟨rfl, rfl⟩ := hunique h'
      obtain rfl := Option.some.inj (hoperation.trans hop)
      exact ⟨hrun, hanswered⟩
    · rcases hanswered.failure_or_done with ⟨-, hfailure⟩ | ⟨hstatus, -⟩
      · exact absurd hearly hfailure.not_isEarly
      · exact absurd hearly (not_isEarly_of_status hstatus)
    · rcases hanswered.failure_or_done with ⟨hstore, -⟩ | ⟨hstatus, -⟩
      · exact hstore
      · have hdone := c.status_cases
        omega

theorem served {d : Desk} {s : AssessmentSettings} (hd : d.InService s) (clock : Clock)
    (r : Request) : Served s d clock r (d.serve clock r).1 (d.serve clock r).2 := by
  rcases serve_cases d clock r with ⟨response, hcall, heq⟩ | ⟨e, c, hreaches, heq, -⟩
  · rw [heq]
    exact served_of_refused d s clock hcall
  · rw [heq]
    exact served_of_reaches hd clock hreaches

/-- Every request to a desk that was opened is served so, whatever was asked before and whatever is
in its trail. -/
theorem serve_from_start {s : Settings} {fs : Files} {draws : Option RandomSource}
    {clock₀ : Clock} {d₀ : Desk} (h : start s fs draws clock₀ = .ok d₀) (trail : Trail)
    (requests : List (Clock × Request)) (clock : Clock) (r : Request) :
    let d := Desk.afterRequests { d₀ with trail := trail } requests
    Served s.assessment d clock r (d.serve clock r).1 (d.serve clock r).2 := by
  intro d
  have hstart := inService_of_start h
  have hopened : InService { d₀ with trail := trail } s.assessment := hstart.of_eq rfl rfl
  exact served (hopened.afterRequests requests) clock r

/-- A change of a price without a body is refused before the sentinel in its path counts, while a
removal under a sentinel makes one run. -/
theorem serve_from_start_of_sentinels :
    let clock : Clock := ⟨⟨⟨2024, 2, 29⟩, 0, 0, 0, 0, none⟩, Double.zero⟩
    let unread : Request := { method := "PATCH", path := "/api/v1/stocks/777/price" }
    let removal : Request := { method := "DELETE", path := "/api/v1/stocks/666" }
    ∃ d₀, start {} {} (some (.cycle Double.one [])) clock = .ok d₀ ∧
      let d := d₀.afterRequests [(clock, removal), (clock, unread)]
      d.serve clock unread = (d, .ofRefusal (.invalid [⟨.missing, [.name "body"]⟩])) ∧
      (d.serve clock removal).1.trail.issued = d.trail.issued + 1 ∧
      (d.serve clock removal).2 = .failure 422 "domain_rejection" "delete recommendation error"
        (some ⟨9, "recommendation", .domain, "delete recommendation error"⟩) := by
  intro clock unread removal
  obtain ⟨d₀, h⟩ : ∃ d₀, start {} {} (some (.cycle Double.one [])) clock = .ok d₀ := ⟨_, rfl⟩
  have hserved := serve_from_start h d₀.trail [(clock, removal), (clock, unread)] clock
  have hreaches : Request.Reaches { method := "DELETE", path := "/api/v1/stocks/666" }
      (.deleteStock "666") (.deleteStock 666) := ⟨rfl, rfl⟩
  have hrefused : Request.call? { method := "PATCH", path := "/api/v1/stocks/777/price" } =
      .error (.ofRefusal (.invalid [⟨.missing, [.name "body"]⟩])) := rfl
  obtain ⟨hdesk, hresponse, -⟩ := (hserved unread).refused _ hrefused
  obtain ⟨hrun, hanswered⟩ := (hserved removal).run _ _ _ hreaches rfl
  have hvalid : (Operand.entity (some 666) .delete).IsValid := ⟨666, rfl, by decide⟩
  have hsentinel : ∀ draw, ({} : AssessmentSettings).objection? draw (.entity (some 666) .delete) =
      some ⟨.domain, "delete recommendation error"⟩ := fun draw => rfl
  obtain ⟨-, hanswer⟩ := hanswered.sentinel hvalid (by decide) _ (hsentinel _)
  exact ⟨d₀, h, Prod.ext hdesk hresponse, hrun.issued, hanswer⟩

end Desk

end StockRegister
