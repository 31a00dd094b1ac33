import StockRegister.Proofs.Ranking
import StockRegister.Proofs.ReadBack
import StockRegister.Proofs.Requests
import StockRegister.Proofs.Writable

/-!
# Replies to requests

Whatever is asked of a desk, the reply is one that the interface has (`Replied`) : its status is
never that of an internal error, and a request that has changed the store is told so, with the
record that was written if there is one. But a change is made before its response is written. So a
record whose texts are not whole is stored all the same, and then no response that shows it can be
sent, be it to the request that wrote the record or to any later one that lists it.

`replied_from_start` says that this is all that can go wrong at a desk that was opened without
records, after any requests, and that it does not happen if the texts of all requests are whole
(`Request.isWhole`). What records keep is carried by what the errands of the requests write
(`Errand.Keeps`, `forall_mem_afterRequests`).
-/

namespace StockRegister

open Schema Web

/-! ## What answers show -/

namespace Desk

/-- The records in an answer. -/
def Answer.stocks : Answer → List Stock
  | records stocks => stocks
  | record stock => [stock]
  | done => []

theorem mem_of_mem_sectorRecords {s : Store} {sector : Value} {y : Stock}
    (hy : y ∈ s.sectorRecords sector) : y ∈ s.toList := by
  unfold Store.sectorRecords at hy
  split at hy
  · exact List.mem_of_mem_filter hy
  · exact List.mem_of_mem_filter hy
  · cases hy

theorem mem_of_mem_keywordRecords {s : Store} {keyword : Value} {stocks : List Stock}
    (h : s.keywordRecords keyword = .ok stocks) {y : Stock} (hy : y ∈ stocks) : y ∈ s.toList := by
  unfold Store.keywordRecords at h
  split at h
  · cases h
    exact List.mem_of_mem_filter hy
  · split_ifs at h
    · cases h
      cases hy

theorem mem_of_seekSymbol {s : Store} {symbol : Value} {stock : Stock}
    (h : seekSymbol symbol s = .ok stock) : stock ∈ s.toList := by
  unfold seekSymbol at h
  cases hfind : symbol.toText?.bind s.findBySymbol with
  | none =>
    rw [hfind] at h
    cases h
  | some found =>
    rw [hfind] at h
    cases h
    obtain ⟨t, -, ht⟩ := Option.bind_eq_some_iff.mp hfind
    exact List.mem_of_find?_eq_some ht

/-- A change under an id leaves the changed record in the store. -/
theorem get?_of_modify {s s' : Store} (hs : s.Ordered) {key : Int} {f : Stock → Stock}
    (hf : ∀ r, (f r).id = r.id) {stock : Stock} (h : s.modify key f = some (stock, s')) :
    s'.get? stock.id = some stock := by
  obtain ⟨old, hold, hstock, -⟩ := Store.modify_eq_some_iff.mp h
  obtain ⟨hmem, hid⟩ := hs.get?_eq_some_iff.mp hold
  have hchanged : stock ∈ s'.toList := by
    rw [hs.toList_of_modify h]
    exact List.mem_map.mpr ⟨old, hmem, by rw [if_pos hid, hstock]⟩
  exact (hs.modify hf h).get?_eq_some_iff.mpr ⟨hchanged, rfl⟩

theorem get?_of_add {s s' : Store} (hs : s.Ordered) {now : Moment} {details : StockDetails}
    {stock : Stock} (h : s.add now details = .ok (stock, s')) :
    s'.get? stock.id = some stock := by
  have hadded : stock ∈ s'.toList := by
    rw [hs.toList_of_add h]
    exact List.mem_append_right _ List.mem_cons_self
  exact (hs.add h).get?_eq_some_iff.mpr ⟨hadded, rfl⟩

section Acts

variable {s s' : Store} {now : Moment} {topCount : Int} {x : Errand} {a : Answer}

/-- An errand that acts reads the store, and answers with records of it, or answers with the record
that it has written, or has removed one. -/
theorem act_reads_or_writes (hs : s.Ordered) (h : x.act now topCount s = .ok (a, s')) :
    (s' = s ∧ ∀ y ∈ a.stocks, y ∈ s.toList) ∨
      (∃ stock, a = .record stock ∧ s'.get? stock.id = some stock) ∨
        a = .done ∧ x.operation = .delete := by
  cases x with
  | listStocks =>
    cases h
    exact Or.inl ⟨rfl, fun y hy => hy⟩
  | listBySector sector =>
    cases h
    exact Or.inl ⟨rfl, fun y hy => mem_of_mem_sectorRecords hy⟩
  | topByMarketCap =>
    cases h
    exact Or.inl ⟨rfl, fun y hy => Store.mem_of_mem_topByMarketCap hy⟩
  | search keyword =>
    obtain ⟨stocks, hstocks, heq⟩ := exists_of_map_eq_ok h
    cases heq
    exact Or.inl ⟨rfl, fun y hy => mem_of_mem_keywordRecords hstocks hy⟩
  | topGainers =>
    obtain ⟨stocks, hstocks, heq⟩ := exists_of_map_eq_ok h
    cases heq
    cases htop : s.topGainers topCount with
    | error e =>
      rw [htop] at hstocks
      cases hstocks
    | ok ranked =>
      rw [htop] at hstocks
      cases hstocks
      exact Or.inl ⟨rfl, fun y hy => Store.mem_of_mem_topGainers htop hy⟩
  | getStock id =>
    obtain ⟨stock, hstock, heq⟩ := exists_of_map_eq_ok h
    obtain ⟨key, -, hget⟩ := exists_key_of_seek hstock
    cases heq
    refine Or.inl ⟨rfl, fun y hy => ?_⟩
    obtain rfl := List.mem_singleton.mp hy
    exact (hs.get?_eq_some_iff.mp hget).1
  | getStockBySymbol symbol =>
    obtain ⟨stock, hstock, heq⟩ := exists_of_map_eq_ok h
    cases heq
    refine Or.inl ⟨rfl, fun y hy => ?_⟩
    obtain rfl := List.mem_singleton.mp hy
    exact mem_of_seekSymbol hstock
  | createStock request =>
    obtain ⟨made, hmade, heq⟩ := exists_of_map_eq_ok h
    obtain ⟨details, rfl, hadd⟩ := exists_details_of_addRequested hmade
    cases heq
    exact Or.inr (Or.inl ⟨_, rfl, get?_of_add hs hadd⟩)
  | updateStock id details =>
    obtain ⟨made, hmade, heq⟩ := exists_of_map_eq_ok h
    obtain ⟨key, -, hmodify⟩ := exists_key_of_seek hmade
    cases heq
    exact Or.inr (Or.inl ⟨_, rfl, get?_of_modify hs (fun r => r.revised_id now details) hmodify⟩)
  | updateStockPrice id p =>
    obtain ⟨made, hmade, heq⟩ := exists_of_map_eq_ok h
    obtain ⟨key, -, hmodify⟩ := exists_key_of_seek hmade
    cases heq
    exact Or.inr (Or.inl ⟨_, rfl, get?_of_modify hs
      (fun r => r.repriced_id now (.float p.newPrice) (.ofInt? p.volume)) hmodify⟩)
  | deleteStock id =>
    obtain ⟨s'', -, heq⟩ := exists_of_map_eq_ok h
    cases heq
    exact Or.inr (Or.inr ⟨rfl, rfl⟩)

/-- The records in the answer of an errand are in the store after it. -/
theorem mem_of_act (hs : s.Ordered) (hs' : s'.Ordered) (h : x.act now topCount s = .ok (a, s'))
    {y : Stock} (hy : y ∈ a.stocks) : y ∈ s'.toList := by
  rcases act_reads_or_writes hs h with ⟨rfl, hreads⟩ | ⟨stock, rfl, hget⟩ | ⟨rfl, -⟩
  · exact hreads y hy
  · obtain rfl := List.mem_singleton.mp hy
    exact (hs'.get?_eq_some_iff.mp hget).1
  · cases hy

end Acts

end Desk

/-! ## What responses show -/

namespace Web.Response

/-- A response shows a record, alone or in a list. -/
inductive Shows : Response → Stock → Prop
  | record (status : Nat) (x : Stock) : Shows (ofStock status x) x
  | records {stocks : List Stock} {x : Stock} : x ∈ stocks → Shows (ofStocks stocks) x

/-- A response can be sent only if every record that it shows can be written. -/
theorem Shows.isWritable {response : Response} {x : Stock} (h : response.Shows x)
    (hresponse : response.isWritable = true) : (stockBody x).isWritable = true := by
  cases h with
  | record => exact hresponse
  | records hx => exact (areWritable_iff _).mp hresponse _ (List.mem_map_of_mem hx)

theorem shows_ofAnswer (status : Nat) {a : Desk.Answer} {x : Stock} (hx : x ∈ a.stocks) :
    (ofAnswer status a).Shows x := by
  cases a with
  | records => exact .records hx
  | record =>
    obtain rfl := List.mem_singleton.mp hx
    exact .record status x
  | done => cases hx

/-- The response to an answer can be sent if every record of the answer can be written. -/
theorem isWritable_ofAnswer (status : Nat) {a : Desk.Answer}
    (h : ∀ x ∈ a.stocks, (stockBody x).isWritable = true) :
    (ofAnswer status a).isWritable = true := by
  cases a with
  | records => exact (areWritable_iff _).mpr (List.forall_mem_map.mpr h)
  | record stock => exact h stock List.mem_cons_self
  | done => rfl

theorem isWritable_detail (status : Nat) (text : String) :
    (detail status text).isWritable = true := by
  have htext : (Text.ofString text).toString?.isSome = true := Text.isWhole_ofString text
  simp [detail, isWritable, Value.isWritable, Value.fieldsAreWritable, htext]

/-- An error can be written if the name of its stage can. -/
theorem isWritable_errorBody (code message : String) {stage : Option Rejection}
    (h : ∀ r ∈ stage, r.stageName.IsWhole) : (errorBody code message stage).isWritable = true := by
  have hcode : (Value.text code).isWritable = true := Text.isWhole_ofString code
  have hmessage : (Value.text message).isWritable = true := Text.isWhole_ofString message
  have hrank (o : Option Int) : (Value.ofInt? o).isWritable = true := by cases o <;> rfl
  have hname : (Value.ofText? (stage.map (·.stageName))).isWritable = true :=
    (isWritable_ofText? _).mpr (by simpa using h)
  rw [errorBody, Value.isWritable, fieldsAreWritable_iff, List.forall_mem_singleton,
    Value.isWritable, fieldsAreWritable_iff]
  simp only [List.forall_mem_cons]
  exact ⟨hcode, hmessage, hrank _, hname, List.forall_mem_nil _⟩

theorem IsFailure.isWritable {response : Response} (h : response.IsFailure) :
    response.isWritable = true := by
  cases h with
  | rejected code rank name kind message =>
    refine isWritable_errorBody code message fun r hr => ?_
    obtain rfl := Option.some.inj hr
    exact Text.isWhole_ofString name
  | missing message => exact isWritable_errorBody "not_found" message (by simp)

theorem isWritable_ofRefusal (refusal : Refusal) : (ofRefusal refusal).isWritable = true := by
  cases refusal with
  | invalid problems => exact isWritable_errorBody _ _ (by simp)
  | unparsable => exact isWritable_detail 400 _

end Web.Response

/-- The response to a request without a call can be sent. -/
theorem Web.Request.isWritable_of_call? {r : Request} {response : Response}
    (h : r.call? = .error response) : response.isWritable = true := by
  rcases cases_of_call? h with rfl | rfl | ⟨path, rfl⟩ | ⟨refusal, rfl⟩
  · exact Response.isWritable_detail 404 _
  · exact Response.isWritable_detail 405 _
  · rfl
  · exact Response.isWritable_ofRefusal refusal

theorem Web.Call.status_of_delete {c : Call} {x : Desk.Errand} (hc : c.errand? = some x)
    (hx : x.operation = .delete) : c.status = 204 := by
  cases c with
  | deleteStock => rfl
  | page | health | readiness => cases hc
  | _ =>
    cases hc
    cases hx

namespace Desk

/-! ## Replies -/

/-- A desk replies to a request as its interface says, and writes the change that it tells of. A
response can be sent exactly if all records that it shows have whole texts. -/
structure Replied (d : Desk) (r : Request) (d' : Desk) (response : Response) : Prop where
  status : response.status ∈ [200, 201, 204, 307, 400, 404, 405, 422, 503]
  wrote : d'.store ≠ d.store → ∃ e c, r.Reaches e c ∧
    ((e.operation? = some .delete ∧ response = { status := 204 }) ∨
      ∃ stock, response = .ofStock c.status stock ∧ d'.store.get? stock.id = some stock)
  sent : response.isWritable = true ↔ ∀ x ∈ d'.store.toList, response.Shows x → x.IsWhole

section Replies

variable {d : Desk} {s : AssessmentSettings} (hd : d.InService s) (clock : Clock)

/-- A response that can be sent shows no record with a text that is not whole. -/
theorem isWhole_of_shows {d' : Desk} (hd' : d'.InService s) {response : Response}
    (hresponse : response.isWritable = true) :
    ∀ x ∈ d'.store.toList, response.Shows x → x.IsWhole := fun x hx hshows =>
  (Stock.isWritable_stockBody_iff (hd'.sound x hx)).mp (hshows.isWritable hresponse)

include hd

theorem replied_of_refused {r : Request} {response : Response} (hcall : r.call? = .error response) :
    Replied d r d response := by
  have hwritable := Request.isWritable_of_call? hcall
  refine ⟨?_, fun h => absurd rfl h, fun h => isWhole_of_shows hd h, fun _ => hwritable⟩
  rcases Request.isEarly_of_call? hcall with h | h | rfl | ⟨h, -⟩
  · simp [h]
  · simp [h]
  · simp [Response.notFound, Response.detail]
  · simp [h]

/-- A call about stocks is replied to as its errand is answered. -/
theorem replied_of_reaches {r : Request} {e : Endpoint} {c : Call} (h : r.Reaches e c) {d' : Desk}
    (hd' : d'.InService s) {response : Response} (hanswered : Answered s d clock c d' response) :
    Replied d r d' response := by
  rcases hanswered.failure_or_done with
    ⟨hstore, hfailure⟩ | ⟨hstatus, x, a, hc, hact, rfl⟩
  · have hwritable := hfailure.isWritable
    refine ⟨?_, fun hwrote => absurd hstore hwrote, fun h => isWhole_of_shows hd' h,
      fun _ => hwritable⟩
    cases hfailure with
    | rejected code rank name kind message hstatus =>
      rcases hstatus with rfl | rfl | rfl <;> simp [Response.failure]
    | missing message => simp [Response.failure]
  · have hshown : ∀ y ∈ a.stocks, y ∈ d'.store.toList := fun y hy =>
      mem_of_act hd.ordered hd'.ordered hact hy
    refine ⟨?_, fun hwrote => ⟨e, c, h, ?_⟩, fun h => isWhole_of_shows hd' h, fun hwhole => ?_⟩
    · rw [hstatus]
      rcases c.status_cases with h | h | h <;> simp [h]
    · rcases act_reads_or_writes hd.ordered hact with ⟨heq, -⟩ | ⟨stock, rfl, hget⟩ | ⟨rfl, hdelete⟩
      · exact absurd heq hwrote
      · exact Or.inr ⟨stock, rfl, hget⟩
      · have hdeletes : e.operation? = some .delete := by
          rw [← h.operation_eq, hc]
          exact congrArg some hdelete
        rw [Call.status_of_delete hc hdelete]
        exact Or.inl ⟨hdeletes, rfl⟩
    · -- What an answer shows is in the store that it leaves, so the condition speaks of all of it.
      refine Response.isWritable_ofAnswer c.status fun y hy => ?_
      have hy' := hshown y hy
      exact (Stock.isWritable_stockBody_iff (hd'.sound y hy')).mpr
        (hwhole y hy' (Response.shows_ofAnswer c.status hy))

theorem replied (r : Request) : Replied d r (d.serve clock r).1 (d.serve clock r).2 := by
  have hd' := hd.serve clock r
  rcases serve_cases d clock r with
    ⟨response, hcall, heq⟩ | ⟨e, c, hreaches, heq, ⟨hc, -⟩ | ⟨x, hc, -⟩⟩
  · rw [heq]
    exact replied_of_refused hd hcall
  · obtain ⟨hdesk, hstatus, hwritable⟩ := answerCall_page d clock r.target hc
    have hstore : (d.answerCall clock r.target c).1.store = d.store := by
      rw [hdesk]
      rfl
    rw [heq] at hd' ⊢
    exact ⟨by simp [hstatus], fun hwrote => absurd hstore hwrote,
      fun h => isWhole_of_shows hd' h, fun _ => hwritable⟩
  · rw [heq] at hd' ⊢
    exact replied_of_reaches hd clock hreaches hd'
      (answered_answerCall clock hd hc hreaches.hasWritableId _)

end Replies

/-! ## What records keep -/

/-- What an errand writes has a property, if the record that it changes had it. -/
def Errand.Keeps (P : Stock → Prop) (now : Moment) : Errand → Prop
  | createStock (some d) => ∀ id symbol companyName, d.symbol = some symbol →
      d.companyName = some companyName → P (.made id now d symbol companyName)
  | updateStock _ d => ∀ x, P x → P (x.revised now d)
  | updateStockPrice _ p => ∀ x, P x → P (x.repriced now (.float p.newPrice) (.ofInt? p.volume))
  | _ => True

theorem Provenance.of_keeps {P : Stock → Prop} {s : Store} {now : Moment}
    {e : Errand × Except DeskError Answer} {x : Stock} (h : Provenance s now e x)
    (he : e.1.Keeps P now) (hs : ∀ y ∈ s.toList, P y) : P x := by
  cases h with
  | kept hx => exact hs x hx
  | created hsymbol hcompany hmade =>
    rw [hmade]
    exact he _ _ _ hsymbol hcompany
  | revised hx => exact he _ (hs _ hx)
  | repriced hx _ hy =>
    rw [hy]
    exact he _ (hs _ hx)

/-- A property that all errands keep is one of all records after them. -/
theorem forall_mem_after {P : Stock → Prop} {d : Desk} (hd : d.store.Ordered)
    {errands : List (Clock × Errand)} (he : ∀ e ∈ errands, e.2.Keeps P e.1.now)
    (hP : ∀ x ∈ d.store.toList, P x) : ∀ x ∈ (d.after errands).store.toList, P x := by
  induction errands generalizing d with
  | nil => exact hP
  | cons e errands ih =>
    obtain ⟨hfirst, hrest⟩ := List.forall_mem_cons.mp he
    have heffect := d.effect_handle e.1 e.2
    refine ih (heffect.ordered hd) hrest fun x hx => ?_
    exact (heffect.provenance hd hx).of_keeps hfirst hP

end Desk

/-- What a request writes has a property, if the record that it changes had it. -/
def Web.Request.Keeps (P : Stock → Prop) (now : Moment) (r : Request) : Prop :=
  ∀ e c x, r.Reaches e c → c.errand? = some x → x.Keeps P now

namespace Desk

section Kept

variable {P : Stock → Prop} {d : Desk} {s : AssessmentSettings}

theorem forall_mem_serve (hd : d.InService s) {clock : Clock} {r : Request}
    (hr : r.Keeps P clock.now) (hP : ∀ x ∈ d.store.toList, P x) :
    ∀ x ∈ (d.serve clock r).1.store.toList, P x := by
  rcases serve_cases d clock r with
    ⟨response, -, heq⟩ | ⟨e, c, hreaches, -, ⟨-, hdesk⟩ | ⟨x, hc, hcloses⟩⟩
  · rw [heq]
    exact hP
  · rw [hdesk]
    exact hP
  · intro y hy
    rw [hcloses.store] at hy
    have hprovenance := (d.effect_handle clock x).provenance hd.ordered hy
    exact hprovenance.of_keeps (hr e c x hreaches hc) hP

/-- A property that all requests keep is one of all records after them. -/
theorem forall_mem_afterRequests (hd : d.InService s) {requests : List (Clock × Request)}
    (hr : ∀ e ∈ requests, e.2.Keeps P e.1.now) (hP : ∀ x ∈ d.store.toList, P x) :
    ∀ x ∈ (d.afterRequests requests).store.toList, P x := by
  induction requests generalizing d with
  | nil => exact hP
  | cons e requests ih =>
    obtain ⟨he, hrest⟩ := List.forall_mem_cons.mp hr
    exact ih (hd.serve e.1 e.2) hrest (forall_mem_serve hd he hP)

end Kept

end Desk

/-! ## What requests write -/

namespace Web.Request

/-- Whether all texts in the body of a request are whole. -/
def isWhole (r : Request) : Bool :=
  match r.readBody with
  | .ok (.json v) => v.isWritable
  | _ => true

/-- The body of a request was read as JSON text. -/
theorem exists_of_readBody {r : Request} {v : Value} (h : r.readBody = .ok (.json v)) :
    ∃ t, Json.read t = .ok v := by
  unfold readBody at h
  split at h
  · cases h
  · split_ifs at h
    · cases h
    · cases h
    · split at h
      · cases h
      · rename_i t hdecode
        split at h
        · rename_i w hread
          cases h
          exact ⟨t, hread⟩
        · cases h
        · cases h
        · cases h

/-- Every volume that a request writes can be written. -/
theorem keeps_hasShortVolume (r : Request) (now : Moment) : r.Keeps Stock.HasShortVolume now := by
  have hshort : ∀ {fields}, r.readBody = .ok (.json (.object fields)) →
      Value.fieldsHaveShortIntegers fields = true := by
    intro fields hbody
    obtain ⟨t, ht⟩ := exists_of_readBody hbody
    exact Json.hasShortIntegers_of_read ht
  intro e c x h hx
  cases e.reads_of_read h.read with
  | createStock hbody hd =>
    cases hx
    exact fun id symbol companyName hsymbol hcompany =>
      StockDetails.hasShortVolume_of_readFields hd (hshort hbody)
  | updateStock hn hbody hd =>
    cases hx
    exact fun y hy => hy.revised now (StockDetails.hasShortVolume_of_readFields hd (hshort hbody))
  | updatePrice hn hbody hp =>
    cases hx
    exact fun y hy => hy.repriced now (PriceUpdate.hasShortVolume_of_readFields hp (hshort hbody))
  | page | health | readiness => cases hx
  | _ =>
    cases hx
    trivial

/-- A request whose texts are whole writes no others. -/
theorem keeps_isWhole {r : Request} (hr : r.isWhole = true) (now : Moment) :
    r.Keeps Stock.IsWhole now := by
  have hwritable : ∀ {v}, r.readBody = .ok (.json v) → v.isWritable = true := by
    intro v hbody
    rwa [isWhole, hbody] at hr
  intro e c x h hx
  cases e.reads_of_read h.read with
  | createStock hbody hd =>
    cases hx
    exact fun id symbol companyName hsymbol hcompany => Stock.isWhole_made id now
      (StockDetails.isWhole_of_readFields hd (hwritable hbody)) hsymbol hcompany
  | updateStock hn hbody hd =>
    cases hx
    exact fun y hy => hy.revised now (StockDetails.isWhole_of_readFields hd (hwritable hbody))
  | updatePrice =>
    cases hx
    exact fun y hy => hy.repriced now _ _
  | page | health | readiness => cases hx
  | _ =>
    cases hx
    trivial

end Web.Request

namespace Desk

/-- Every request to a desk that was opened without records is replied to, whatever was asked before
and whatever is in its trail, and every volume in the store can be written. Its response can be sent
if the texts of all requests are whole. -/
theorem replied_from_start {s : Settings} {fs : Files} {draws : Option RandomSource}
    {clock₀ : Clock} {d₀ : Desk} (h : start s fs draws clock₀ = .ok d₀)
    (hempty : d₀.store = .empty) (trail : Trail) (requests : List (Clock × Request))
    (clock : Clock) (r : Request) :
    let d := Desk.afterRequests { d₀ with trail := trail } requests
    let served := d.serve clock r
    Replied d r served.1 served.2 ∧ (∀ x ∈ served.1.store.toList, x.HasShortVolume) ∧
      ((∀ e ∈ requests, e.2.isWhole = true) → r.isWhole = true → served.2.isWritable = true) := by
  intro d served
  have hstart := inService_of_start h
  have hopened : InService { d₀ with trail := trail } s.assessment := hstart.of_eq rfl rfl
  have hd : d.InService s.assessment := hopened.afterRequests requests
  have hnone : ∀ {P : Stock → Prop}, ∀ x ∈ d₀.store.toList, P x := by
    intro P x hx
    rw [hempty] at hx
    cases hx
  have hreplied := replied hd clock r
  refine ⟨hreplied, ?_, fun hrequests hr => ?_⟩
  · have hbefore : ∀ x ∈ d.store.toList, x.HasShortVolume :=
      forall_mem_afterRequests hopened (fun e _ => e.2.keeps_hasShortVolume e.1.now) hnone
    exact forall_mem_serve hd (r.keeps_hasShortVolume clock.now) hbefore
  · have hbefore : ∀ x ∈ d.store.toList, x.IsWhole :=
      forall_mem_afterRequests hopened
        (fun e he => Request.keeps_isWhole (hrequests e he) e.1.now) hnone
    have hafter := forall_mem_serve hd (Request.keeps_isWhole hr clock.now) hbefore
    exact hreplied.sent.mpr fun x hx _ => hafter x hx

/-- After the creation of a record with whole texts, a list that shows it can be sent. -/
theorem replied_from_start_of_creation :
    let clock : Clock := ⟨⟨⟨2024, 2, 29⟩, 0, 0, 0, 0, none⟩, Double.zero⟩
    let creation : Request :=
      { method := "POST", path := "/api/v1/stocks", mediaType := some "application/json"
        body := some "\x7b\"symbol\": \"ACME\", \"companyName\": \"Acme\"\x7d" }
    let list : Request := { method := "GET", path := "/api/v1/stocks" }
    ∃ d₀, start {} {} (some (.cycle Double.one [])) clock = .ok d₀ ∧ d₀.store = .empty ∧
      creation.isWhole = true ∧ list.isWhole = true ∧
        let served := (d₀.afterRequests [(clock, creation)]).serve clock list
        served.1.store.toList.map (·.symbol) = [Text.ofString "ACME"] ∧
          served.2.isWritable = true := by
  intro clock creation list
  obtain ⟨d₀, h, hempty, hlisted⟩ : ∃ d₀, start {} {} (some (.cycle Double.one [])) clock = .ok d₀ ∧
      d₀.store = .empty ∧ ((d₀.afterRequests [(clock, creation)]).serve clock
        list).1.store.toList.map (·.symbol) = [Text.ofString "ACME"] :=
    ⟨_, rfl, rfl, by decide +kernel +zetaReduce⟩
  have hcreation : creation.isWhole = true := by decide +kernel +zetaReduce
  have hlist : list.isWhole = true := rfl
  obtain ⟨-, -, hsent⟩ := replied_from_start h hempty d₀.trail [(clock, creation)] clock list
  have hrequests : ∀ e ∈ [(clock, creation)], e.2.isWhole = true :=
    List.forall_mem_singleton.mpr hcreation
  exact ⟨d₀, h, hempty, hcreation, hlist, hlisted, hsent hrequests hlist⟩

/-- A record whose symbol is half of a character is stored, but neither the response to its creation
nor that to a list of all records can be sent. No line of these requests reaches the level of the
log. -/
theorem unsent_of_half_symbol :
    let clock : Clock := ⟨⟨⟨2024, 2, 29⟩, 0, 0, 0, 0, none⟩, Double.zero⟩
    let creation : Request :=
      { method := "POST", path := "/api/v1/stocks", mediaType := some "application/json"
        body := some "\x7b\"symbol\": \"\\ud800\", \"companyName\": \"B\"\x7d" }
    let list : Request := { method := "GET", path := "/api/v1/stocks" }
    let s : Settings := { log := { level := .error } }
    ∃ d₀, start s {} (some (.cycle Double.one [])) clock = .ok d₀ ∧ d₀.store = .empty ∧
      let created := d₀.serve clock creation
      let listed := created.1.serve clock list
      created.1.store.toList.map (·.symbol) = [⟨[0xD800]⟩] ∧ created.2.isWritable = false ∧
        listed.2.isWritable = false ∧ listed.1.trail.lines.isEmpty := by
  intro clock creation list s
  exact ⟨_, rfl, rfl, by decide +kernel +zetaReduce⟩

end Desk

end StockRegister
