import StockRegister.Proofs.Rejections

/-!
# What the draws decide

An assessor is called with any operation and any argument (`Assessor.Call`), and a desk is asked any
errand. A call takes a draw exactly if it is a read of the whole collection about the whole
collection (`Call.isBulk`), and so does an errand exactly if it reads the collection
(`Errand.isCollectionRead`). The verdict on the whole collection is a function of the draw
(`AssessmentSettings.bulkVerdict`), and no other verdict depends on it (`twoChecks_of_ne_bulk`).

Along any sequence of calls the `i`-th draw therefore goes to the `i`-th call that takes one
(`bulkResults_answers`), whatever stands between them, and all other calls come to what they come
to with any other draws (`otherResults_answers`). `Assessor.DrawsForBulk` says this of calls and
`Desk.DrawsForReads` of errands, where the store has no part in it either.
`drawsForBulk_and_reads` proves both of every assessor that settings describe, whatever it draws.
-/

namespace StockRegister

open Schema

/-! ## Verdicts and draws -/

namespace AssessmentSettings

/-- The verdict on a read of the whole collection with a draw. -/
def bulkVerdict (s : AssessmentSettings) (draw : Double) : Verdict :=
  if draw.lt s.bulkFailureProbability then
    .rejected ⟨9, "recommendation", .transient, "bulk recommendation error"⟩
  else .proceed

theorem twoChecks_bulk (s : AssessmentSettings) (draw : Double) :
    s.twoChecks draw .bulk = s.bulkVerdict draw := by
  have hvalid : Operand.bulk.IsValid := trivial
  rw [twoChecks, if_pos hvalid, objection?, bulkVerdict]
  split_ifs <;> rfl

/-- Only the verdict on the whole collection depends on the draw. -/
theorem twoChecks_of_ne_bulk (s : AssessmentSettings) {o : Operand} (ho : o ≠ .bulk)
    (draw draw' : Double) : s.twoChecks draw o = s.twoChecks draw' o := by
  have hobjection : s.objection? draw o = s.objection? draw' o := by
    cases o with
    | bulk => exact absurd rfl ho
    | entity value purpose => cases purpose <;> rfl
    | creation details => cases details <;> rfl
    | symbol value => rfl
  rw [twoChecks, twoChecks, hobjection]

end AssessmentSettings

namespace Assessor

/-- An assessor that has taken a number of draws. -/
def afterDraws (a : Assessor) (n : Nat) : Assessor :=
  { a with injector :=
    { a.injector with source := a.injector.source.drop n, used := a.injector.used + n } }

/-- An assessment takes one draw if it is of the whole collection, and none otherwise. -/
theorem spend_eq_afterDraws (a : Assessor) {o : Operand} {b : Bool} (h : o = .bulk ↔ b) :
    a.spend o = a.afterDraws b.toNat := by
  cases b with
  | true =>
    rw [h.mpr rfl]
    rfl
  | false =>
    have ho : o ≠ .bulk := by simpa using h
    rw [spend, if_neg ho]
    rfl

theorem afterDraws_afterDraws (a : Assessor) (n : Nat) :
    (a.afterDraws 1).afterDraws n = a.afterDraws (n + 1) := by
  unfold afterDraws
  simp only [Assessor.mk.injEq, Injector.mk.injEq, true_and]
  exact ⟨rfl, by omega⟩

/-! ## Calls -/

/-- A call of an assessor, with the clock it is served by. -/
structure Call where
  clock : Clock
  operation : Operation
  argument : Argument

/-- Whether a call is a read of the whole collection about the whole collection. -/
def Call.isBulk (c : Call) : Bool :=
  match c.operation, c.argument with
  | .bulkLookup, .operand .bulk => true
  | _, _ => false

/-- What a call comes to, and the assessor and the trail after it; a call that is refused leaves
both alone. -/
def call (a : Assessor) (t : Trail) (c : Call) :
    Except AssessmentError Verdict × Assessor × Trail :=
  match a.evaluate c.clock c.operation c.argument t with
  | .ok (verdict, a, t) => (.ok verdict, a, t)
  | .error e => (.error e, a, t)

/-- The assessor after calls, one after the other. -/
def afterCalls (a : Assessor) (t : Trail) : List Call → Assessor
  | [] => a
  | c :: rest => (a.call t c).2.1.afterCalls (a.call t c).2.2 rest

/-- The calls with what they come to, in order. -/
def answers (a : Assessor) (t : Trail) : List Call → List (Call × Except AssessmentError Verdict)
  | [] => []
  | c :: rest => (c, (a.call t c).1) :: (a.call t c).2.1.answers (a.call t c).2.2 rest

/-- What the calls that take a draw came to, in order. -/
def bulkResults (answers : List (Call × Except AssessmentError Verdict)) :
    List (Except AssessmentError Verdict) :=
  (answers.filter fun e => e.1.isBulk).map Prod.snd

/-- The calls that take no draw, with what they came to, in order. -/
def otherResults (answers : List (Call × Except AssessmentError Verdict)) :
    List (Call × Except AssessmentError Verdict) :=
  answers.filter fun e => !e.1.isBulk

theorem accept_eq_ok_bulk_iff (c : Call) :
    c.operation.accept c.argument = .ok .bulk ↔ c.isBulk := by
  obtain ⟨clock, op, x⟩ := c
  rw [Operation.accept_eq_ok_iff]
  constructor
  · rintro ⟨rfl, h⟩
    cases op <;> first
      | rfl
      | cases h.type
  · intro h
    unfold Call.isBulk at h
    dsimp only at h
    split at h
    · exact ⟨rfl, rfl, rfl⟩
    · cases h

section Calls

variable {a : Assessor} {s : AssessmentSettings}

/-- What a call comes to is the verdict of the two checks on what is accepted, and it draws exactly
if it is a read of the whole collection. -/
theorem call_eq (ha : a.Follows s) (t : Trail) (c : Call) :
    (a.call t c).1 = (c.operation.accept c.argument).map (s.twoChecks a.nextDraw) ∧
      (a.call t c).2.1 = a.afterDraws c.isBulk.toNat := by
  unfold call Assessor.evaluate
  cases hx : c.operation.accept c.argument with
  | error e =>
    have hbulk : c.isBulk = false := by
      rw [Bool.eq_false_iff, ne_eq, ← accept_eq_ok_bulk_iff, hx]
      simp
    rw [hbulk]
    exact ⟨rfl, rfl⟩
  | ok o =>
    obtain ⟨t', ht'⟩ := conclude_eq_twoChecks ha c.clock c.operation o t
    have hbulk : o = .bulk ↔ c.isBulk := by
      rw [← accept_eq_ok_bulk_iff, hx, Except.ok.injEq]
    rw [Except.map, ht']
    exact ⟨rfl, a.spend_eq_afterDraws hbulk⟩

theorem Follows.afterDraws (ha : a.Follows s) (n : Nat) : (a.afterDraws n).Follows s :=
  ⟨ha.stages, ha.probability⟩

theorem Follows.call (ha : a.Follows s) (t : Trail) (c : Call) :
    (a.call t c).2.1.Follows s := by
  rw [(call_eq ha t c).2]
  exact ha.afterDraws _

/-- Calls draw once for each read of the whole collection among them. -/
theorem afterCalls_eq (ha : a.Follows s) (t : Trail) (calls : List Call) :
    a.afterCalls t calls = a.afterDraws (calls.countP Call.isBulk) := by
  induction calls generalizing a t with
  | nil => rfl
  | cons c calls ih =>
    rw [afterCalls, ih (ha.call t c), (call_eq ha t c).2, List.countP_cons]
    cases c.isBulk with
    | false => rfl
    | true => exact a.afterDraws_afterDraws _

/-- The `i`-th read of the whole collection gets the verdict of the `i`-th draw. -/
theorem bulkResults_answers (ha : a.Follows s) (t : Trail) (calls : List Call) :
    bulkResults (a.answers t calls) =
      (a.injector.source.take (calls.countP Call.isBulk)).map fun draw =>
        .ok (s.bulkVerdict draw) := by
  induction calls generalizing a t with
  | nil => rfl
  | cons c calls ih =>
    obtain ⟨hresult, hafter⟩ := call_eq ha t c
    have hrest := ih (ha.call t c) (a.call t c).2.2
    rw [answers, bulkResults, List.countP_cons]
    cases hc : c.isBulk with
    | false =>
      rw [hc] at hafter
      rw [List.filter_cons_of_neg (by simp [hc]), ← bulkResults, hrest, hafter]
      rfl
    | true =>
      rw [hc] at hafter
      have haccept := (accept_eq_ok_bulk_iff c).mpr hc
      rw [haccept, Except.map, s.twoChecks_bulk] at hresult
      rw [List.filter_cons_of_pos (by simp [hc]), List.map_cons, ← bulkResults, hrest, hafter,
        hresult]
      rfl

/-- All other calls come to the same with any draw. -/
theorem otherResults_answers (ha : a.Follows s) (t : Trail) (calls : List Call) (draw : Double) :
    otherResults (a.answers t calls) = (calls.filter fun c => !c.isBulk).map fun c =>
      (c, (c.operation.accept c.argument).map (s.twoChecks draw)) := by
  induction calls generalizing a t with
  | nil => rfl
  | cons c calls ih =>
    have hrest := ih (ha.call t c) (a.call t c).2.2
    rw [answers, otherResults]
    cases hc : c.isBulk with
    | true =>
      rw [List.filter_cons_of_neg (by simp [hc]), List.filter_cons_of_neg (by simp [hc]),
        ← otherResults, hrest]
    | false =>
      have hresult : (a.call t c).1 = (c.operation.accept c.argument).map (s.twoChecks draw) := by
        rw [(call_eq ha t c).1]
        cases hx : c.operation.accept c.argument with
        | error e => rfl
        | ok o =>
          have ho : o ≠ .bulk := by
            rintro rfl
            rw [(accept_eq_ok_bulk_iff c).mp hx] at hc
            cases hc
          rw [Except.map, Except.map, s.twoChecks_of_ne_bulk ho]
      rw [List.filter_cons_of_pos (by simp [hc]), List.filter_cons_of_pos (by simp [hc]),
        List.map_cons, ← otherResults, hrest, hresult]

end Calls

/-- What draws have to do with the calls of an assessor : each read of the whole collection takes
one, no other call takes any, and the `i`-th of these reads is rejected exactly if the `i`-th draw
is below the probability. So calls that stand between them change none of these verdicts, and no
source of draws changes what other calls come to. -/
structure DrawsForBulk (a : Assessor) (s : AssessmentSettings) (source : RandomSource) : Prop where
  used : ∀ t calls, (a.afterCalls t calls).injector.used = calls.countP Call.isBulk
  left : ∀ t calls,
    (a.afterCalls t calls).injector.source = source.drop (calls.countP Call.isBulk)
  bulk : ∀ t calls, bulkResults (a.answers t calls) =
    (source.take (calls.countP Call.isBulk)).map fun draw => .ok (s.bulkVerdict draw)
  inserted : ∀ t t' calls calls', calls.filter Call.isBulk = calls'.filter Call.isBulk →
    bulkResults (a.answers t calls) = bulkResults (a.answers t' calls')
  others : ∀ source' b, ofSettings s source' = .ok b → ∀ t t' calls,
    otherResults (a.answers t calls) = otherResults (b.answers t' calls)

theorem injector_of_ofSettings {s : AssessmentSettings} {source : RandomSource} {a : Assessor}
    (ha : ofSettings s source = .ok a) :
    a.injector.source = source ∧ a.injector.used = 0 := by
  unfold ofSettings Injector.ofValue at ha
  simp only [Value.toAmount?] at ha
  split_ifs at ha
  · obtain rfl := Except.ok.inj ha
    exact ⟨rfl, rfl⟩
  · cases ha

theorem drawsForBulk_ofSettings {s : AssessmentSettings} {source : RandomSource} {a : Assessor}
    (ha : ofSettings s source = .ok a) : a.DrawsForBulk s source := by
  have hfollows := follows_ofSettings ha
  obtain ⟨hsource, hused⟩ := injector_of_ofSettings ha
  have hbulk (t : Trail) (calls : List Call) := bulkResults_answers hfollows t calls
  rw [hsource] at hbulk
  refine ⟨fun t calls => ?_, fun t calls => ?_, hbulk, fun t t' calls calls' hfilter => ?_,
    fun source' b hb t t' calls => ?_⟩
  · rw [afterCalls_eq hfollows, afterDraws, hused, Nat.zero_add]
  · rw [afterCalls_eq hfollows, afterDraws, hsource]
  · rw [hbulk, hbulk, List.countP_eq_length_filter, hfilter, ← List.countP_eq_length_filter]
  · rw [otherResults_answers hfollows t calls Double.zero,
      otherResults_answers (follows_ofSettings hb) t' calls Double.zero]

end Assessor

/-! ## Errands -/

namespace Desk

/-- Whether an errand reads the whole collection. -/
def Errand.isCollectionRead : Errand → Bool
  | listStocks | listBySector _ | search _ | topGainers | topByMarketCap => true
  | _ => false

/-- The rejections of the reads of the collection along a history, in order. -/
def readRejections (history : List (Errand × Except DeskError Answer)) :
    List (Option Rejection) :=
  (history.filter fun e => e.1.isCollectionRead).map fun e => rejection? e.2

/-- The number of reads of the collection among errands. -/
def countReads (errands : List (Clock × Errand)) : Nat :=
  errands.countP fun e => e.2.isCollectionRead

/-- Exactly the reads of the collection are about the whole collection. -/
theorem Errand.operand_eq_ok_bulk_iff (r : Errand) :
    r.operand = .ok .bulk ↔ r.isCollectionRead := by
  have hvalue {op : Operation} (hop : op ≠ .bulkLookup) (v : Value) :
      Operand.ofValue op v ≠ .ok .bulk := by
    intro h
    have htype := (Operand.isAbout_of_ofValue h).type
    cases op <;> first
      | exact hop rfl
      | cases htype
  cases r <;> simp [Errand.operand, Errand.isCollectionRead, hvalue]

section Errands

variable {d : Desk} {s : AssessmentSettings}

theorem assessor_handle (hd : d.assessor.Follows s) (clock : Clock) (r : Errand) :
    (d.handle clock r).1.assessor = d.assessor.afterDraws r.isCollectionRead.toNat := by
  rw [(assessed_handle hd clock r).assessor]
  cases ho : r.operand with
  | bad problems =>
    have hread : r.isCollectionRead = false := by
      rw [Bool.eq_false_iff, ne_eq, ← r.operand_eq_ok_bulk_iff, ho]
      simp
    rw [hread]
    rfl
  | ok o =>
    have hbulk : o = .bulk ↔ r.isCollectionRead := by
      rw [← r.operand_eq_ok_bulk_iff, ho, Checked.ok.injEq]
    exact d.assessor.spend_eq_afterDraws hbulk

/-- Errands draw once for each read of the collection among them. -/
theorem assessor_after (hd : d.assessor.Follows s) (errands : List (Clock × Errand)) :
    (d.after errands).assessor = d.assessor.afterDraws (countReads errands) := by
  induction errands generalizing d with
  | nil => rfl
  | cons e errands ih =>
    rw [after, ih (follows_handle hd e.1 e.2), assessor_handle hd, countReads, countReads,
      List.countP_cons]
    cases e.2.isCollectionRead with
    | false => rfl
    | true => exact d.assessor.afterDraws_afterDraws _

/-- The `i`-th read of the collection is rejected with the verdict of the `i`-th draw. -/
theorem readRejections_history (hd : d.assessor.Follows s) (errands : List (Clock × Errand)) :
    readRejections (d.history errands) =
      (d.assessor.injector.source.take (countReads errands)).map fun draw =>
        (s.bulkVerdict draw).rejection? := by
  induction errands generalizing d with
  | nil => rfl
  | cons e errands ih =>
    have hrest := ih (follows_handle hd e.1 e.2)
    have hafter := assessor_handle hd e.1 e.2
    rw [history, readRejections, countReads, List.countP_cons, ← countReads]
    cases hr : e.2.isCollectionRead with
    | false =>
      rw [hr] at hafter
      rw [List.filter_cons_of_neg (by simp [hr]), ← readRejections, hrest, hafter]
      rfl
    | true =>
      have hrejection := (assessed_handle hd e.1 e.2).rejection?
      rw [e.2.operand_eq_ok_bulk_iff.mpr hr, AssessmentSettings.rejection?,
        s.twoChecks_bulk] at hrejection
      rw [hr] at hafter
      rw [List.filter_cons_of_pos (by simp [hr]), List.map_cons, ← readRejections, hrest, hafter,
        hrejection]
      rfl

/-- Errands about one operand are rejected alike at any two desks of the same settings, and those
about the whole collection if the next draw is the same. -/
theorem rejection?_handle_congr {d' : Desk} (hd : d.assessor.Follows s)
    (hd' : d'.assessor.Follows s) (clock clock' : Clock) {r r' : Errand}
    (hoperand : r.operand = r'.operand)
    (hdraw : r.isCollectionRead → d.assessor.nextDraw = d'.assessor.nextDraw) :
    rejection? (d.handle clock r).2 = rejection? (d'.handle clock' r').2 := by
  rw [(assessed_handle hd clock r).rejection?, (assessed_handle hd' clock' r').rejection?,
    ← hoperand]
  cases ho : r.operand with
  | bad problems => rfl
  | ok o =>
    by_cases hbulk : o = .bulk
    · rw [hdraw (r.operand_eq_ok_bulk_iff.mp (hbulk ▸ ho))]
    · rw [AssessmentSettings.rejection?, AssessmentSettings.rejection?,
        s.twoChecks_of_ne_bulk hbulk]

end Errands

/-- What draws have to do with the errands of desks that start with an assessor, whatever they
store : each read of the collection takes one, no other errand takes any, and the `i`-th of
these reads is rejected exactly if the `i`-th draw is below the probability. So after equally many
such reads any two errands about the same operand are rejected alike, which of the five reads
they may be, and other errands also with any other source of draws. -/
structure DrawsForReads (a : Assessor) (s : AssessmentSettings) (source : RandomSource) :
    Prop where
  used : ∀ d : Desk, d.assessor = a → ∀ errands,
    (d.after errands).assessor.injector.used = countReads errands
  reads : ∀ d : Desk, d.assessor = a → ∀ errands, readRejections (d.history errands) =
    (source.take (countReads errands)).map fun draw => (s.bulkVerdict draw).rejection?
  alike : ∀ d d' : Desk, d.assessor = a → d'.assessor = a → ∀ errands errands',
    countReads errands = countReads errands' → ∀ clock clock' r r',
      Errand.operand r = Errand.operand r' →
        rejection? ((d.after errands).handle clock r).2 =
          rejection? ((d'.after errands').handle clock' r').2
  others : ∀ source' b, Assessor.ofSettings s source' = .ok b → ∀ d d' : Desk, d.assessor = a →
    d'.assessor = b → ∀ errands errands' clock clock' r r',
      Errand.isCollectionRead r = false → Errand.operand r = Errand.operand r' →
        rejection? ((d.after errands).handle clock r).2 =
          rejection? ((d'.after errands').handle clock' r').2

theorem drawsForReads_ofSettings {s : AssessmentSettings} {source : RandomSource} {a : Assessor}
    (ha : Assessor.ofSettings s source = .ok a) : DrawsForReads a s source := by
  have hfollows := Assessor.follows_ofSettings ha
  obtain ⟨hsource, hused⟩ := Assessor.injector_of_ofSettings ha
  refine ⟨?_, ?_, ?_, ?_⟩
  · rintro d rfl errands
    rw [assessor_after hfollows, Assessor.afterDraws, hused, Nat.zero_add]
  · rintro d rfl errands
    rw [readRejections_history hfollows, hsource]
  · rintro d d' rfl hd' errands errands' hcount clock clock' r r' hoperand
    have hfollows' : d'.assessor.Follows s := hd' ▸ hfollows
    refine rejection?_handle_congr (follows_after hfollows errands)
      (follows_after hfollows' errands') clock clock' hoperand fun _ => ?_
    rw [assessor_after hfollows, assessor_after hfollows', hd', hcount]
  · rintro source' b hb d d' rfl rfl errands errands' clock clock' r r' hread hoperand
    refine rejection?_handle_congr (follows_after hfollows errands)
      (follows_after (Assessor.follows_ofSettings hb) errands') clock clock' hoperand fun h => ?_
    rw [hread] at h
    cases h

/-- For all settings and every source of draws : the calls of the assessor draw for reads of the
whole collection only, and so do the errands of a desk. -/
theorem drawsForBulk_and_reads {s : AssessmentSettings} {source : RandomSource} {a : Assessor}
    (ha : Assessor.ofSettings s source = .ok a) :
    a.DrawsForBulk s source ∧ DrawsForReads a s source :=
  ⟨Assessor.drawsForBulk_ofSettings ha, drawsForReads_ofSettings ha⟩

/-- A sentinel and a bare value between two reads of the whole collection take no draw : the first
read gets the draw 0 and is rejected, the second one gets the draw 1. -/
theorem drawsForBulk_of_two_reads :
    let source := RandomSource.cycle Double.zero [Double.one]
    let clock : Clock := ⟨⟨⟨2024, 2, 29⟩, 0, 0, 0, 0, none⟩, Double.zero⟩
    let calls : List Assessor.Call := [⟨clock, .bulkLookup, .operand .bulk⟩,
      ⟨clock, .lookupById, .operand (.entity (some 999) .lookup)⟩,
      ⟨clock, .bulkLookup, .bare .null⟩, ⟨clock, .bulkLookup, .operand .bulk⟩]
    ∃ a, Assessor.ofSettings {} source = .ok a ∧
      (a.afterCalls {} calls).injector.used = 2 ∧
      Assessor.bulkResults (a.answers {} calls) =
        [.ok (.rejected ⟨9, "recommendation", .transient, "bulk recommendation error"⟩),
          .ok .proceed] := by
  intro source clock calls
  obtain ⟨a, ha⟩ : ∃ a, Assessor.ofSettings {} source = .ok a := ⟨_, rfl⟩
  obtain ⟨hcalls, -⟩ := drawsForBulk_and_reads ha
  have hzero : ({} : AssessmentSettings).bulkVerdict Double.zero =
      .rejected ⟨9, "recommendation", .transient, "bulk recommendation error"⟩ :=
    if_pos (by decide +kernel)
  have hone : ({} : AssessmentSettings).bulkVerdict Double.one = .proceed :=
    if_neg (by decide +kernel)
  have hdraws : source.take (calls.countP Assessor.Call.isBulk) = [Double.zero, Double.one] := rfl
  refine ⟨a, ha, hcalls.used {} calls, ?_⟩
  rw [hcalls.bulk, hdraws, List.map_cons, List.map_cons, List.map_nil, hzero, hone]

end Desk

end StockRegister
