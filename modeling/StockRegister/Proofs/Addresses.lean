import StockRegister.Proofs.Percent
import StockRegister.Proofs.Replies

/-!
# Addresses of symbols and sectors

A text is asked for, as a symbol or as a sector, at an address of which it is the last segment, in
percent signs but for the characters that the writer keeps (`Heading.address`). The path that is
meant holds the text as it is (`Request.AsksFor.target_eq`), whatever characters it has.

If it has no slash, the path has five segments, and the request makes the call about the text
(`call?_of_not_mem`). But a path is cut into segments after it was decoded, so a slash that was
written with a percent sign counts as any other one. A text with a slash gives a path of more
segments than any route has (`not_known_path`), and the desk is never asked : the path is not found,
or the client is sent to the one without the slashes at its end (`find_path_of_mem`).

`addressed_of_reachable` says this of every desk that requests and errands lead to
(`Desk.Reachable`), and what follows for the stored records : one whose symbol has no slash is in
the response to a request for it, unless another one with the same symbol has a lower id, and one
whose sector has no slash is in the list of its sector.
-/

namespace StockRegister

open Web

/-! ## Pieces -/

namespace Text

variable {α : Type} [BEq α] [LawfulBEq α] {mark : α}

/-- What stands before the first mark is the first piece. -/
theorem pieces_append_cons {before : List α} (h : mark ∉ before) (rest : List α) :
    pieces mark (before ++ mark :: rest) = before :: pieces mark rest := by
  induction before with
  | nil => simp [pieces]
  | cons c before ih =>
    rw [List.mem_cons, not_or] at h
    have hc : (c == mark) = false := by simpa using Ne.symm h.1
    simp [pieces, hc, ih h.2]

/-- A sequence with a mark has at least two pieces. -/
theorem one_lt_length_pieces {cs : List α} (h : mark ∈ cs) : 1 < (pieces mark cs).length := by
  obtain ⟨before, rest, rfl, hbefore⟩ := List.eq_append_cons_of_mem h
  rw [pieces_append_cons hbefore, List.length_cons]
  have hrest := List.length_pos_of_ne_nil (pieces_ne_nil mark rest)
  omega

end Text

/-! ## Routes -/

namespace Web

/-- A path has a pattern only if it has as many segments. -/
theorem matchSegments_eq_none {pattern : List Segment} {ps : List (List Char)}
    (h : pattern.length ≠ ps.length) : matchSegments pattern ps = none := by
  fun_induction matchSegments pattern ps <;> simp_all

/-- No route has a pattern of more than five segments. -/
theorem length_pattern_le : ∀ r ∈ routes, r.pattern.length ≤ 5 := by decide

namespace Routing

variable {method : String} {path : List Char}

/-- The path of an endpoint has the pattern of some route. -/
theorem known_of_endpoint? {e : Endpoint} (h : endpoint? method path = some e) :
    known path = true := by
  obtain ⟨r, hr, hmatch⟩ := List.exists_of_findSome?_eq_some h
  split_ifs at hmatch
  obtain ⟨parameter, hparameter, -⟩ := Option.map_eq_some_iff.mp hmatch
  exact List.any_eq_true.mpr ⟨r, hr, Option.isSome_iff_exists.mpr ⟨parameter, hparameter⟩⟩

/-- A request for an unknown path can only be sent elsewhere. -/
theorem find_of_not_known (h : known path = false) :
    find method path = if path.getLast? == some '/' && known (withoutSlashes path) then
      .elsewhere (withoutSlashes path) else .nowhere := by
  have hnone : endpoint? method path = none := by
    refine Option.eq_none_iff_forall_ne_some.mpr fun e he => ?_
    cases h.symm.trans (known_of_endpoint? he)
  rw [find, hnone]
  dsimp only
  rw [h, if_neg Bool.false_ne_true]

end Routing

/-! ## Slashes at the end -/

theorem withoutSlashes_append (before cs : List Char) : withoutSlashes (before ++ cs) =
    if withoutSlashes cs = [] then withoutSlashes before else before ++ withoutSlashes cs := by
  unfold withoutSlashes
  rw [List.reverse_append, List.dropWhile_append]
  by_cases h : cs.reverse.dropWhile (· == '/') = []
  · simp [h]
  · simp [h]

/-- A path from which a slash is taken away has one at its end. -/
theorem getLast?_of_withoutSlashes_ne {cs : List Char} (h : withoutSlashes cs ≠ cs) :
    cs.getLast? = some '/' := by
  have hdrop : withoutSlashes cs = cs.rdropWhile (· == '/') := rfl
  rw [hdrop, Ne, List.rdropWhile_eq_self_iff] at h
  obtain ⟨hne, hlast⟩ := not_forall.mp h
  rw [not_not] at hlast
  rw [List.getLast?_eq_some_getLast hne, beq_iff_eq.mp hlast]

/-! ## Headings -/

/-- What a text may be asked for as. -/
inductive Heading where
  | symbol
  | sector

namespace Heading

/-- The segment before the text. -/
def segment : Heading → String
  | symbol => "symbol"
  | sector => "sector"

/-- The endpoint for a text. -/
def endpoint : Heading → String → Endpoint
  | symbol => .stockBySymbol
  | sector => .stocksOfSector

/-- The call about a text. -/
def call : Heading → String → Call
  | symbol => .stockBySymbol
  | sector => .stocksOfSector

/-- The errand that the service is asked to do about a text. -/
def errand : Heading → String → Desk.Errand
  | symbol, s => .getStockBySymbol (.text s)
  | sector, s => .listBySector (.text s)

/-- The path to a text under a heading. -/
def path (h : Heading) (cs : List Char) : List Char :=
  ("/api/v1/stocks/" ++ h.segment ++ "/").toList ++ cs

/-- The address of a text under a heading, with percent signs for the characters that are not
kept. -/
def address (h : Heading) (keep : Char → Bool) (s : String) : String :=
  String.ofList (h.path (encodePercent keep s.toList))

theorem errand?_call (h : Heading) (s : String) : (h.call s).errand? = some (h.errand s) := by
  cases h <;> rfl

theorem status_call (h : Heading) (s : String) : (h.call s).status = 200 := by
  cases h <;> rfl

/-- The path to a text, segment by segment. -/
theorem path_eq (h : Heading) (cs : List Char) : h.path cs = '/' :: ("api".toList ++ '/' ::
    ("v1".toList ++ '/' :: ("stocks".toList ++ '/' :: (h.segment.toList ++ '/' :: cs)))) := by
  cases h <;> rfl

theorem matchPattern_path (h : Heading) (pattern : List Segment) (cs : List Char) :
    matchPattern pattern (h.path cs) = (matchSegments pattern ("api".toList :: "v1".toList ::
      "stocks".toList :: h.segment.toList :: Text.pieces '/' cs)).map String.ofList := by
  have hsegment : '/' ∉ h.segment.toList := by cases h <;> decide
  rw [path_eq, matchPattern, Text.pieces_append_cons (by decide),
    Text.pieces_append_cons (by decide), Text.pieces_append_cons (by decide),
    Text.pieces_append_cons hsegment]

/-- The path to a text without slashes has the route of the heading. -/
theorem endpoint?_path (h : Heading) {cs : List Char} (hcs : cs ≠ []) (hslash : '/' ∉ cs) :
    Routing.endpoint? "GET" (h.path cs) = some (h.endpoint (String.ofList cs)) := by
  simp only [Routing.endpoint?, Route.match?, matchPattern_path, Text.pieces_of_not_mem hslash]
  -- All that the routes ask of the text is that it is not empty.
  cases cs with
  | nil => exact absurd rfl hcs
  | cons c cs => cases h <;> rfl

/-- The path to a text with a slash has more segments than any pattern. -/
theorem not_known_path (h : Heading) {cs : List Char} (hslash : '/' ∈ cs) :
    Routing.known (h.path cs) = false := by
  have hpieces := Text.one_lt_length_pieces hslash
  refine List.any_eq_false.mpr fun r hr => ?_
  have hlength := length_pattern_le r hr
  have hmore : r.pattern.length ≠ ("api".toList :: "v1".toList :: "stocks".toList ::
      h.segment.toList :: Text.pieces '/' cs).length := by
    simp only [List.length_cons]
    omega
  rw [Route.match?, matchPattern_path, matchSegments_eq_none hmore]
  exact Bool.false_ne_true

/-- The path without slashes at its end is the path to the text without them, or that to the heading
if nothing is left of the text. -/
theorem known_withoutSlashes_path (h : Heading) (cs : List Char) :
    Routing.known (withoutSlashes (h.path cs)) = decide ('/' ∉ withoutSlashes cs) := by
  rw [path, withoutSlashes_append]
  by_cases hnone : withoutSlashes cs = []
  · rw [if_pos hnone, hnone]
    cases h <;> decide
  · rw [if_neg hnone]
    by_cases hslash : '/' ∈ withoutSlashes cs
    · rw [decide_eq_false (not_not.mpr hslash)]
      exact h.not_known_path hslash
    · rw [decide_eq_true hslash]
      exact Routing.known_of_endpoint? (h.endpoint?_path hnone hslash)

/-- A request for the path to a text with a slash is sent to the path without the slashes at its
end, or nowhere if other slashes are left in the text. -/
theorem find_path_of_mem (h : Heading) {cs : List Char} (hslash : '/' ∈ cs) :
    Routing.find "GET" (h.path cs) = if '/' ∈ withoutSlashes cs then .nowhere
      else .elsewhere (withoutSlashes (h.path cs)) := by
  rw [Routing.find_of_not_known (h.not_known_path hslash), known_withoutSlashes_path]
  -- The path ends with a slash if the text does, which it must if none of its slashes is left.
  by_cases hinside : '/' ∈ withoutSlashes cs
  · simp [hinside]
  · have hlast : cs.getLast? = some '/' := by
      refine getLast?_of_withoutSlashes_ne fun heq => hinside ?_
      rw [heq]
      exact hslash
    have hpath : (h.path cs).getLast? = some '/' := by
      rw [path, List.getLast?_append, hlast, Option.some_or]
    simp [hpath, hinside]

end Heading

/-! ## Requests -/

/-- The characters that end a segment of an address, or stand for others in it, are not kept. -/
structure KeepsInSegment (keep : Char → Bool) : Prop where
  percent : keep '%' = false
  slash : keep '/' = false
  question : keep '?' = false
  hash : keep '#' = false

/-- A request asks for a text under a heading, with percent signs for the characters that are not
kept. -/
structure Request.AsksFor (r : Request) (keep : Char → Bool) (h : Heading) (s : String) :
    Prop where
  method : r.method = "GET"
  path : r.path = h.address keep s

namespace Request.AsksFor

variable {r : Request} {keep : Char → Bool} {h : Heading} {s : String}
  (hr : r.AsksFor keep h s) (hkeep : KeepsInSegment keep)

include hr hkeep

/-- The path that is meant holds the text as it is. -/
theorem target_eq : r.target = h.path s.toList := by
  have hbefore : '%' ∉ ("/api/v1/stocks/" ++ h.segment ++ "/").toList := by cases h <;> decide
  rw [Request.target, hr.path, Heading.address, String.toList_ofList]
  exact decodePercent_append_encodePercent hkeep.percent hbefore s.toList

/-- A request for a text without slashes makes the call about it. -/
theorem call?_of_not_mem (hs : s ≠ "") (hslash : '/' ∉ s.toList) :
    r.call? = .ok (h.call s) := by
  have hne : s.toList ≠ [] := by simpa using hs
  have hfind : Routing.find r.method r.target = .to (h.endpoint s) := by
    rw [hr.method, hr.target_eq hkeep, Routing.find, h.endpoint?_path hne hslash,
      String.ofList_toList]
  refine Request.call?_eq_ok_iff.mpr ⟨h.endpoint s, hfind, ?_⟩
  cases h <;> rfl

end Request.AsksFor

end Web

namespace Desk

/-! ## Reachable desks -/

/-- The desks that one opened with settings turns into, by requests and errands, whatever is in
their trails. -/
inductive Reachable (s : Settings) : Desk → Prop
  | start {fs : Files} {draws : Option RandomSource} {clock : Clock} {d : Desk} :
      Desk.start s fs draws clock = .ok d → Reachable s d
  | serve {d : Desk} (clock : Clock) (r : Request) : Reachable s d →
      Reachable s (d.serve clock r).1
  | handle {d : Desk} (clock : Clock) {x : Errand} : x.IsChecked → Reachable s d →
      Reachable s (d.handle clock x).1
  | relogged {d : Desk} (trail : Trail) : Reachable s d → Reachable s { d with trail := trail }

theorem Reachable.inService {s : Settings} {d : Desk} (h : d.Reachable s) :
    d.InService s.assessment := by
  induction h with
  | start h => exact inService_of_start h
  | serve clock r _ ih => exact ih.serve clock r
  | handle clock hx _ ih => exact ih.handle clock hx
  | relogged trail _ ih => exact ih.of_eq rfl rfl

/-! ## Serving addresses -/

section Addresses

variable {a : AssessmentSettings} {d : Desk} (clock : Clock) {keep : Char → Bool} {h : Heading}
  {s : String} {r : Request} (hr : r.AsksFor keep h s) (hkeep : KeepsInSegment keep)

include hr hkeep

theorem serve_eq_answerCall (d : Desk) (hs : s ≠ "") (hslash : '/' ∉ s.toList) :
    d.serve clock r = d.answerCall clock r.target (h.call s) := by
  rw [serve_eq, hr.call?_of_not_mem hkeep hs hslash]

/-- A request for a text without slashes is answered with what the errand about it comes to. -/
theorem serve_of_not_mem (d : Desk) (hs : s ≠ "") (hslash : '/' ∉ s.toList) :
    (d.handle clock (h.errand s)).1.Closes (d.serve clock r).1 ∧
      (d.serve clock r).2 = .ofResult 200 (d.handle clock (h.errand s)).2 := by
  obtain ⟨d', hanswer, hcloses⟩ := answerCall_eq d clock r.target (h.errand?_call s)
  rw [serve_eq_answerCall clock hr hkeep d hs hslash, hanswer, h.status_call]
  exact ⟨hcloses, rfl⟩

/-- A request for a text with a slash is answered without the desk. -/
theorem serve_of_mem (d : Desk) (hslash : '/' ∈ s.toList) :
    d.serve clock r = (d, if '/' ∈ withoutSlashes s.toList then .notFound
      else .elsewhere r.host (withoutSlashes r.target) r.query) := by
  have hfind := h.find_path_of_mem hslash
  rw [← hr.target_eq hkeep, ← hr.method] at hfind
  unfold serve
  rw [hfind]
  split_ifs <;> rfl

/-- If nothing is against the call about a text without slashes, the request for it is answered from
the store. -/
theorem exists_act_of_not_mem (hd : d.InService a) (hs : s ≠ "") (hslash : '/' ∉ s.toList)
    (hvalid : (h.call s).operand.IsValid)
    (hnone : a.objection? d.assessor.nextDraw (h.call s).operand = none)
    (hfound : ¬(h.call s).Misses d.store) :
    ∃ answer store, (h.errand s).act clock.now d.topCount d.store = .ok (answer, store) ∧
      (d.serve clock r).2 = .ofAnswer 200 answer := by
  have hid : (h.call s).HasWritableId := by cases h <;> trivial
  have hanswered := answered_answerCall clock hd (h.errand?_call s) hid r.target
  obtain ⟨-, x, answer, hx, hact, hresponse⟩ := hanswered.done hvalid hnone hfound
  obtain rfl := Option.some.inj ((h.errand?_call s).symm.trans hx)
  rw [h.status_call] at hresponse
  exact ⟨answer, _, hact, serve_eq_answerCall clock hr hkeep d hs hslash ▸ hresponse⟩

end Addresses

/-- How the requests for a text are served : those for one without slashes as the errand about it,
so that the records with its symbol or of its sector can be reached, and others without the desk. -/
structure Addressed (a : AssessmentSettings) (d : Desk) (clock : Clock) (keep : Char → Bool)
    (s : String) : Prop where
  served : '/' ∉ s.toList → ∀ h r, r.AsksFor keep h s →
    (d.handle clock (h.errand s)).1.Closes (d.serve clock r).1 ∧
      (d.serve clock r).2 = .ofResult 200 (d.handle clock (h.errand s)).2
  unserved : '/' ∈ s.toList → ∀ h r, r.AsksFor keep h s →
    d.serve clock r = (d, if '/' ∈ withoutSlashes s.toList then .notFound
      else .elsewhere r.host (withoutSlashes r.target) r.query)
  symbol : '/' ∉ s.toList → IsFilled (some s) → (s : Text) ≠ a.sentinels.pennySymbol →
    ∀ x ∈ d.store.toList, x.symbol = s → ∃ y ∈ d.store.toList, y.symbol = s ∧ y.id ≤ x.id ∧
      ∀ r, r.AsksFor keep .symbol s → (d.serve clock r).2 = .ofStock 200 y
  sector : '/' ∉ s.toList → a.objection? d.assessor.nextDraw .bulk = none →
    ∀ x ∈ d.store.toList, x.sector = some (s : Text) →
      ∀ r, r.AsksFor keep .sector s → (d.serve clock r).2.Shows x
  sent : ∀ h r, r.AsksFor keep h s → ((d.serve clock r).2.isWritable = true ↔
    ∀ x ∈ (d.serve clock r).1.store.toList, (d.serve clock r).2.Shows x → x.IsWhole)

/-- For all settings and every desk that requests and errands lead to : a request to the address of
a text, as a symbol or as a sector, is answered as the service answers about the text if this has no
slash, whatever other characters it has and whichever of them are kept. -/
theorem addressed_of_reachable {settings : Settings} {d : Desk} (hd : d.Reachable settings)
    (clock : Clock) {keep : Char → Bool} (hkeep : KeepsInSegment keep) {s : String} (hs : s ≠ "") :
    Addressed settings.assessment d clock keep s where
  served hslash h r hr := serve_of_not_mem clock hr hkeep d hs hslash
  unserved hslash h r hr := serve_of_mem clock hr hkeep d hslash
  symbol hslash hfilled hpenny x hx hsymbol := by
    have hviews := hd.inService.ordered.viewsAgree
    cases hfind : d.store.findBySymbol s with
    | none => exact absurd hsymbol ((hviews.findBySymbol_none _).mp hfind x hx)
    | some y =>
      obtain ⟨hy, hsame, hfirst⟩ := (hviews.findBySymbol _ _).mp hfind
      refine ⟨y, hy, hsame, hfirst x hx hsymbol, fun r hr => ?_⟩
      have hnone : settings.assessment.objection? d.assessor.nextDraw (.symbol (some (s : Text))) =
          none := if_neg fun heq => hpenny (Option.some.inj heq)
      have hfound : d.store.findBySymbol s ≠ none := hfind ▸ Option.some_ne_none y
      obtain ⟨answer, store, hact, hresponse⟩ := exists_act_of_not_mem clock hr hkeep hd.inService
        hs hslash hfilled hnone hfound
      simp only [Heading.errand, Errand.act, seekSymbol, Value.toText?, Option.bind_some,
        hfind] at hact
      cases hact
      exact hresponse
  sector hslash hnone x hx hsector r hr := by
    obtain ⟨answer, store, hact, hresponse⟩ := exists_act_of_not_mem clock hr hkeep hd.inService hs
      hslash trivial hnone not_false
    cases hact
    rw [hresponse]
    exact .records ((hd.inService.ordered.viewsAgree.mem_findBySector _ x).mpr ⟨hx, hsector⟩)
  sent h r hr := (replied hd.inService clock r).sent

/-- A record whose symbol has a percent sign, a blank, a question mark and a character that is not
in ASCII is reached through the address of its symbol. -/
theorem addressed_of_percent_sign :
    let clock : Clock := ⟨⟨⟨2024, 2, 29⟩, 0, 0, 0, 0, none⟩, Double.zero⟩
    let creation : Request :=
      { method := "POST", path := "/api/v1/stocks", mediaType := some "application/json"
        body := some "\x7b\"symbol\": \"5% é?\", \"companyName\": \"Acme\"\x7d" }
    let reading : Request := { method := "GET", path := "/api/v1/stocks/symbol/5%25%20%C3%A9%3F" }
    ∃ d₀, start {} {} (some (.cycle Double.one [])) clock = .ok d₀ ∧
      let d := (d₀.serve clock creation).1
      KeepsInSegment Char.isAlphanum ∧ ∃ x, d.store.toList = [x] ∧ x.symbol = "5% é?" ∧
        (d.serve clock reading).2 = .ofStock 200 x := by
  intro clock creation reading
  obtain ⟨d₀, hstart, hcreated⟩ : ∃ d₀,
      start {} {} (some (.cycle Double.one [])) clock = .ok d₀ ∧
        (d₀.serve clock creation).1.store.toList.map (·.symbol) = [Text.ofString "5% é?"] :=
    ⟨_, rfl, by decide +kernel +zetaReduce⟩
  obtain ⟨x, hx, hsymbol⟩ := List.map_eq_singleton_iff.mp hcreated
  have hkeep : KeepsInSegment Char.isAlphanum := ⟨rfl, rfl, rfl, rfl⟩
  have haddressed := addressed_of_reachable (.serve clock creation (.start hstart)) clock hkeep
    (s := "5% é?") (by decide)
  have hasks : reading.AsksFor Char.isAlphanum .symbol "5% é?" := ⟨rfl, by decide +kernel⟩
  have hmem : x ∈ (d₀.serve clock creation).1.store.toList := hx ▸ List.mem_cons_self
  obtain ⟨y, hy, -, -, hresponse⟩ := haddressed.symbol (by decide) ⟨_, rfl, by decide⟩ (by decide)
    x hmem hsymbol
  rw [hx, List.mem_singleton] at hy
  exact ⟨d₀, hstart, hkeep, x, hx, hsymbol, hy ▸ hresponse reading hasks⟩

/-- A record whose symbol has a slash is stored, and the service finds it, but the address of its
symbol is not found. -/
theorem not_found_of_slash :
    let clock : Clock := ⟨⟨⟨2024, 2, 29⟩, 0, 0, 0, 0, none⟩, Double.zero⟩
    let creation : Request :=
      { method := "POST", path := "/api/v1/stocks", mediaType := some "application/json"
        body := some "\x7b\"symbol\": \"A/B\", \"companyName\": \"Slash\"\x7d" }
    let reading : Request := { method := "GET", path := "/api/v1/stocks/symbol/A%2FB" }
    ∃ d₀, start {} {} (some (.cycle Double.one [])) clock = .ok d₀ ∧
      let d := (d₀.serve clock creation).1
      reading.AsksFor Char.isAlphanum .symbol "A/B" ∧
        (∃ x, d.store.toList = [x] ∧ x.symbol = "A/B" ∧
          (d.getStockBySymbol clock (.text "A/B")).2 = .ok x) ∧
        (d.serve clock reading).2 = .notFound ∧ ∀ x, Response.notFound ≠ .ofStock 200 x := by
  intro clock creation reading
  obtain ⟨d₀, hstart, hcreated⟩ : ∃ d₀,
      start {} {} (some (.cycle Double.one [])) clock = .ok d₀ ∧
        (d₀.serve clock creation).1.store.toList.map (·.symbol) = [Text.ofString "A/B"] :=
    ⟨_, rfl, by decide +kernel +zetaReduce⟩
  obtain ⟨x, hx, hsymbol⟩ := List.map_eq_singleton_iff.mp hcreated
  have hd := (Reachable.serve clock creation (.start hstart)).inService
  have hasks : reading.AsksFor Char.isAlphanum .symbol "A/B" := ⟨rfl, by decide +kernel⟩
  refine ⟨d₀, hstart, hasks, ⟨x, hx, hsymbol, ?_⟩, ?_, fun x h => ?_⟩
  · rw [getStockBySymbol_of_isFilled hd.follows clock ⟨_, rfl, by decide⟩, if_neg (by decide),
      Store.findBySymbol, hx, List.find?_singleton, hsymbol]
    rfl
  · rw [serve_of_mem clock hasks ⟨rfl, rfl, rfl, rfl⟩ _ (by decide)]
    rfl
  · cases congrArg Response.status h

end Desk

end StockRegister
