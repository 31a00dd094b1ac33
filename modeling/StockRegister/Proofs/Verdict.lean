import StockRegister.Assessment.Run
import StockRegister.Proofs.Notices
import StockRegister.Proofs.Validity

/-!
# The verdict of the nine stages

The nine stages check the same operand one after the other, and the last one asks the
recommendation rule besides. `AssessmentSettings.twoChecks` is what is left of them : an operand
that is not valid is rejected by the first stage, a valid one to which the recommendation objects
(`AssessmentSettings.objection?`) by the ninth, and every other one proceeds.

What stages make of an operand is their `course` : the verdict, and what is logged of each of them.
A walk through the stages logs this up to the first line that cannot be printed
(`runStages_cases`).
Since validity does not depend on the stage, a valid operand passes all stages without a rule
(`course_append`) and any other one stops at the first. `course_stageTable` is the course of the
whole table, and `evaluate_eq_twoChecks` says the same of every assessor that comes of one that
settings describe, after any number of evaluations (`Assessor.Reached`).
-/

namespace StockRegister

/-! ## One stage -/

namespace Stage

/-- A stage that makes the check objects exactly to the operands that are not valid. -/
theorem objection_eq {s : Stage} (hs : s.permissive = false) (o : Operand) :
    s.objection o = if o.IsValid then none else some (o.complaint s.subject) := by
  unfold objection
  rw [hs, if_neg (by decide), Operand.map_message_validityFault?]

theorem objection_of_isValid {o : Operand} (ho : o.IsValid) (s : Stage) :
    s.objection o = none := by
  cases hs : s.permissive with
  | true => simp [objection, hs]
  | false => rw [objection_eq hs, if_pos ho]

theorem assess_of_isValid {o : Operand} (ho : o.IsValid) (s : Stage) (i : Injector) :
    s.assess o i = s.judge (.operand o) i := by
  simp only [assess, objection_of_isValid ho]

theorem assess_of_not_isValid {s : Stage} (hs : s.permissive = false) {o : Operand}
    (ho : ¬o.IsValid) (i : Injector) :
    s.assess o i = (s.reject .validation (o.complaint s.subject), i) := by
  simp only [assess, objection_eq hs, if_neg ho]

theorem judge_of_rule_eq_none {s : Stage} (hs : s.rule = none) (a : Argument) (i : Injector) :
    s.judge a i = (.proceed, i) := by
  simp only [judge, hs]

end Stage

/-! ## Walking through stages -/

/-- What stages make of an operand : the verdict, the injector after it, and what is logged of the
stages that were reached. -/
def course (o : Operand) : List Stage → Injector → Verdict × Injector × List Notice
  | [], i => (.proceed, i, [])
  | s :: rest, i =>
    match s.assess o i with
    | (.rejected r, i) => (.rejected r, i, [s.rejectedNotice r])
    | (.proceed, i) =>
      ((course o rest i).1, (course o rest i).2.1, s.passedNotice :: (course o rest i).2.2)

/-- A verdict, or else the reason why there is none. -/
def Verdict.orReason {ε : Type} (v : Verdict) : Option ε → Except ε Verdict
  | none => .ok v
  | some error => .error error

/-- Stages that let an operand pass leave only their notices. -/
theorem course_append {o : Operand} {i : Injector} {opening : List Stage}
    (h : ∀ s ∈ opening, s.assess o i = (.proceed, i)) (rest : List Stage) :
    course o (opening ++ rest) i = ((course o rest i).1, (course o rest i).2.1,
      opening.map Stage.passedNotice ++ (course o rest i).2.2) := by
  induction opening with
  | nil => rfl
  | cons s opening ih =>
    simp only [List.cons_append, course, h s List.mem_cons_self, List.map_cons]
    rw [ih fun s' hs' => h s' (List.mem_cons_of_mem _ hs')]

/-- A walk through stages logs the notices of its course. If all of their lines are printed it comes
to the verdict, and otherwise it breaks off for the reason that the printer gives. -/
theorem runStages_cases {ε : Type} (p : Printer ε) (clock : Clock) (o : Operand)
    (stages : List Stage) (i : Injector) (t : Trail) :
    let walk := course o stages i
    (∃ t', t.noteEach p clock walk.2.2 = (t', none) ∧
      runStages p clock o stages i t = (.ok walk.1, walk.2.1, t')) ∨
    ∃ t' error i', t.noteEach p clock walk.2.2 = (t', some error) ∧
      runStages p clock o stages i t = (.error error, i', t') := by
  induction stages generalizing i t with
  | nil => exact Or.inl ⟨t, rfl, rfl⟩
  | cons s stages ih =>
    simp only [runStages, course]
    rcases s.assess o i with ⟨_ | r, i'⟩
    · simp only [Trail.noteEach]
      rcases t.note p clock s.passedNotice with ⟨t', _ | error⟩
      · exact ih i' t'
      · exact Or.inr ⟨t', error, i', rfl, rfl⟩
    · simp only [Trail.noteEach]
      rcases t.note p clock (s.rejectedNotice r) with ⟨t', _ | error⟩
      · exact Or.inl ⟨t', rfl, rfl⟩
      · exact Or.inr ⟨t', error, i', rfl, rfl⟩

/-! ## The recommendation -/

namespace AssessmentSettings

/-- What the recommendation has against an operand when `draw` is the next draw : the sentinel
of exactly its kind and purpose, or, for the whole collection, a draw below the probability. -/
def objection? (s : AssessmentSettings) (draw : Double) : Operand → Option Violation
  | .entity value .lookup =>
    if value = some s.sentinels.pennyId then some ⟨.domain, "penny stock not recommended"⟩
    else none
  | .entity value .update =>
    if value = some s.sentinels.updateId then some ⟨.domain, "update recommendation error"⟩
    else none
  | .entity value .priceUpdate =>
    if value = some s.sentinels.priceUpdateId then
      some ⟨.domain, "price-update recommendation error"⟩
    else none
  | .entity value .delete =>
    if value = some s.sentinels.deleteId then some ⟨.domain, "delete recommendation error"⟩
    else none
  | .symbol value =>
    if value = some (s.sentinels.pennySymbol : Text) then
      some ⟨.domain, "penny stock not recommended"⟩
    else none
  | .creation none => none
  | .creation (some d) =>
    if d.symbol = some (s.sentinels.testSymbol : Text) then
      some ⟨.domain, "test stock not recommended"⟩
    else none
  | .bulk =>
    if draw.lt s.bulkFailureProbability then some ⟨.transient, "bulk recommendation error"⟩
    else none

/-- The verdict of two checks : validity at the first stage, the recommendation at the ninth. -/
def twoChecks (s : AssessmentSettings) (draw : Double) (o : Operand) : Verdict :=
  if o.IsValid then
    match s.objection? draw o with
    | none => .proceed
    | some v => .rejected ⟨9, "recommendation", v.failure, v.message⟩
  else .rejected ⟨1, "data_processing", .validation, o.complaint "data processing"⟩

/-- Only the first stage and the ninth reject. -/
theorem stageRank_of_twoChecks {s : AssessmentSettings} {draw : Double} {o : Operand}
    {r : Rejection} (h : s.twoChecks draw o = .rejected r) :
    r.stageRank = 1 ∨ r.stageRank = 9 := by
  unfold twoChecks at h
  split_ifs at h
  · split at h
    · cases h
    · cases h
      exact Or.inr rfl
  · cases h
    exact Or.inl rfl

/-- The whole collection is rejected for its draw only. -/
theorem failure_of_twoChecks_bulk {s : AssessmentSettings} {draw : Double} {r : Rejection}
    (h : s.twoChecks draw .bulk = .rejected r) : r.failure = .transient := by
  have hvalid : Operand.bulk.IsValid := trivial
  rw [twoChecks, if_pos hvalid] at h
  split at h
  · cases h
  · rename_i v hv
    cases h
    simp only [objection?] at hv
    split_ifs at hv
    cases hv
    rfl

/-- A positive id is rejected for no sentinel but that of its own purpose. -/
theorem twoChecks_entity_of_ne {s : AssessmentSettings} {n : Int} {purpose : IdPurpose}
    (hn : 0 < n) (hne : n ≠ s.sentinels.idFor purpose) (draw : Double) :
    s.twoChecks draw (.entity (some n) purpose) = .proceed := by
  have hvalid : (Operand.entity (some n) purpose).IsValid := ⟨n, rfl, hn⟩
  have hnone : s.objection? draw (.entity (some n) purpose) = none := by
    cases purpose <;> exact if_neg fun h => hne (Option.some.inj h)
  rw [twoChecks, if_pos hvalid, hnone]

theorem map_mk_ite (failure : FailureKind) (p : Prop) [Decidable p] (message : String) :
    (if p then some message else none).map (Violation.mk failure) =
      if p then some ⟨failure, message⟩ else none := by
  split_ifs <;> rfl

/-- The rule of the last stage has against an operand what the recommendation has. -/
theorem recommendationRule_fst {s : AssessmentSettings} {i : Injector}
    (hi : i.probability = s.bulkFailureProbability) (o : Operand) :
    (recommendationRule s.sentinels (.operand o) i).1 = s.objection? i.source.next.1 o := by
  cases o with
  | entity value purpose =>
    simp only [recommendationRule, Sentinels.hit?, map_mk_ite]
    cases purpose <;> rfl
  | symbol value =>
    simp only [recommendationRule, Sentinels.hit?, map_mk_ite]
    rfl
  | creation details =>
    cases details with
    | none => rfl
    | some d =>
      simp only [recommendationRule, Sentinels.hit?, map_mk_ite]
      rfl
  | bulk => simp only [recommendationRule, Injector.shouldFail, bulkMessage, objection?, hi]

/-- The rule draws only for the whole collection. -/
theorem recommendationRule_snd (s : Sentinels) (o : Operand) (i : Injector) :
    (recommendationRule s (.operand o) i).2 = if o = .bulk then i.shouldFail.2 else i := by
  cases o <;> rfl

end AssessmentSettings

/-! ## The table -/

/-- The stages of the table before the last one. -/
def openingStages : List Stage := stagesFrom none 1 (stageNames.take 8)

/-- The last stage of the table. -/
def closingStage (rule : TerminalRule) : Stage :=
  ⟨9, "recommendation", "recommendation", some rule, false⟩

theorem stageTable_some (rule : TerminalRule) :
    stageTable (some rule) = openingStages ++ [closingStage rule] :=
  rfl

theorem rule_of_mem_openingStages {st : Stage} (h : st ∈ openingStages) : st.rule = none := by
  have hall : ∀ st ∈ openingStages, st.rule.isNone = true := by decide
  exact Option.isNone_iff_eq_none.mp (hall st h)

/-- The verdict of the last stage on a valid operand, and the injector after it. -/
theorem assess_closingStage {s : AssessmentSettings} {i : Injector}
    (hi : i.probability = s.bulkFailureProbability) {o : Operand} (ho : o.IsValid) :
    (closingStage (recommendationRule s.sentinels)).assess o i =
      (s.twoChecks i.source.next.1 o, if o = .bulk then i.shouldFail.2 else i) := by
  have hfst := AssessmentSettings.recommendationRule_fst hi o
  have hsnd := AssessmentSettings.recommendationRule_snd s.sentinels o i
  rw [Stage.assess_of_isValid ho, AssessmentSettings.twoChecks, if_pos ho, ← hfst, ← hsnd]
  simp only [Stage.judge, closingStage]
  split <;> rename_i heq <;> rw [heq]
  rfl

/-- The walk through the whole table : its verdict is that of the two checks, and it draws once
for the whole collection and for nothing else. -/
theorem course_stageTable {s : AssessmentSettings} {i : Injector}
    (hi : i.probability = s.bulkFailureProbability) (o : Operand) :
    ∃ ns, course o (stageTable (some (recommendationRule s.sentinels))) i =
      (s.twoChecks i.source.next.1 o, if o = .bulk then i.shouldFail.2 else i, ns) := by
  by_cases ho : o.IsValid
  · have hpass : ∀ st ∈ openingStages, st.assess o i = (.proceed, i) := by
      intro st hst
      rw [Stage.assess_of_isValid ho, Stage.judge_of_rule_eq_none (rule_of_mem_openingStages hst)]
    rw [stageTable_some, course_append hpass]
    simp only [course, assess_closingStage hi ho]
    split <;> rename_i heq <;> obtain ⟨hv, rfl⟩ := Prod.mk.inj heq <;> exact ⟨_, by rw [hv]⟩
  · have hbulk : o ≠ .bulk := by
      rintro rfl
      exact ho trivial
    rw [AssessmentSettings.twoChecks, if_neg ho, if_neg hbulk]
    simp only [stageTable, stageNames, stagesFrom, course]
    rw [Stage.assess_of_not_isValid rfl ho]
    exact ⟨_, rfl⟩

/-! ## Assessors -/

/-- An operation is about operands of one type, and about ids of one purpose. -/
structure Operation.IsAbout (op : Operation) (o : Operand) : Prop where
  type : o.type = op.operandShape.1
  purpose : o.purpose? = op.operandShape.2

theorem Operation.accept_of_isAbout {op : Operation} {o : Operand} (h : op.IsAbout o) :
    op.accept (.operand o) = .ok o := by
  unfold accept
  dsimp only
  rw [if_neg (not_not.mpr h.type), h.purpose]
  cases op.operandShape.2 with
  | none => rfl
  | some purpose => exact if_pos rfl

/-- Exactly the operands that an operation is about are accepted, and no bare value is. -/
theorem Operation.accept_eq_ok_iff {op : Operation} {x : Argument} {o : Operand} :
    op.accept x = .ok o ↔ x = .operand o ∧ op.IsAbout o := by
  constructor
  · intro h
    cases x with
    | bare v => cases h
    | operand o' =>
      unfold accept at h
      dsimp only at h
      split_ifs at h with htype
      split at h
      · rename_i expected actual he ha
        split_ifs at h with hp
        cases h
        exact ⟨rfl, not_not.mp htype, by rw [ha, he, hp]⟩
      · -- Either side has a purpose exactly if its type is that of ids.
        rename_i hnone
        cases h
        refine ⟨rfl, not_not.mp htype, ?_⟩
        cases op <;> cases o <;>
          simp_all [operandShape, Operand.type, Operand.purpose?]
  · rintro ⟨rfl, h⟩
    exact accept_of_isAbout h

namespace Assessor

/-- The draw that the next assessment of the whole collection will take. -/
def nextDraw (a : Assessor) : Double := a.injector.source.next.1

/-- The assessors that one of the given settings and source turns into, evaluation by
evaluation. -/
inductive Reached (s : AssessmentSettings) (source : RandomSource) : Assessor → Prop
  | start {a : Assessor} : ofSettings s source = .ok a → Reached s source a
  | evaluate {a b : Assessor} {clock : Clock} {op : Operation} {x : Argument} {t t' : Trail}
      {v : Verdict} :
      Reached s source a → a.evaluate clock op x t = .ok (v, b, t') → Reached s source b

/-- The stages and the probability of an assessor are those that settings describe. -/
structure Follows (a : Assessor) (s : AssessmentSettings) : Prop where
  stages : a.stages = stageTable (some (recommendationRule s.sentinels))
  probability : a.injector.probability = s.bulkFailureProbability

/-- An assessment logs its start and the notices of its course. If all of their lines are printed it
records the run, and comes to the verdict if the line of the end is printed too. -/
theorem assess_cases {ε : Type} (a : Assessor) (p : Printer ε) (clock : Clock) (op : Operation)
    (o : Operand) (t : Trail) :
    let walk := course o a.stages a.injector
    let notices := op.startNotice o :: walk.2.2
    (∃ t', t.issueCorrelation.noteEach p clock notices = (t', none) ∧
      a.assess p clock op o t =
        (walk.1.orReason (recordRun p clock op walk.1 t').2,
        { a with injector := walk.2.1 }, (recordRun p clock op walk.1 t').1)) ∨
    ∃ t' error i', t.issueCorrelation.noteEach p clock notices = (t', some error) ∧
      a.assess p clock op o t = (.error error, { a with injector := i' }, t') := by
  intro walk notices
  simp only [notices, Trail.noteEach, assess]
  rcases t.issueCorrelation.note p clock (op.startNotice o) with ⟨t₁, _ | error⟩
  · rcases runStages_cases p clock o a.stages a.injector t₁ with
      ⟨t', hnotices, hwalk⟩ | ⟨t', error, i', hnotices, hwalk⟩
    · refine Or.inl ⟨t', hnotices, ?_⟩
      simp only [hwalk]
      rcases recordRun p clock op walk.1 t' with ⟨t'', _ | error⟩ <;> rfl
    · refine Or.inr ⟨t', error, i', hnotices, ?_⟩
      simp only [hwalk]
  · exact Or.inr ⟨t₁, error, a.injector, rfl, rfl⟩

/-- A printer without reasons never makes an assessment break off. -/
theorem conclude_eq (a : Assessor) (clock : Clock) (op : Operation) (o : Operand) (t : Trail) :
    let sure : Printer Empty := Printer.sure
    let walk := course o a.stages a.injector
    let t' := (t.issueCorrelation.noteEach sure clock (op.startNotice o :: walk.2.2)).1
    a.assess sure clock op o t = (.ok walk.1, { a with injector := walk.2.1 },
        (recordRun sure clock op walk.1 t').1) ∧
      a.conclude clock op o t = (walk.1, { a with injector := walk.2.1 },
        (recordRun sure clock op walk.1 t').1) := by
  intro sure walk t'
  have hassess : a.assess sure clock op o t = (.ok walk.1, { a with injector := walk.2.1 },
      (recordRun sure clock op walk.1 t').1) := by
    rcases a.assess_cases sure clock op o t with ⟨u, hnotices, hassess⟩ | ⟨_, error, _⟩
    · obtain rfl : t' = u := congrArg Prod.fst hnotices
      rw [hassess]
      cases (recordRun sure clock op walk.1 t').2 with
      | none => rfl
      | some error => exact nomatch error
    · exact nomatch error
  refine ⟨hassess, ?_⟩
  unfold conclude
  rw [hassess]

/-- An assessment gives the verdict of the two checks, and leaves all but the draws as it is. -/
theorem conclude_eq_twoChecks {a : Assessor} {s : AssessmentSettings} (h : a.Follows s)
    (clock : Clock) (op : Operation) (o : Operand) (t : Trail) :
    ∃ t', a.conclude clock op o t =
      (s.twoChecks a.nextDraw o,
        { a with injector := if o = .bulk then a.injector.shouldFail.2 else a.injector }, t') := by
  obtain ⟨ns, hwalk⟩ := course_stageTable h.probability o
  rw [← h.stages] at hwalk
  obtain ⟨-, hconclude⟩ := a.conclude_eq clock op o t
  rw [hwalk] at hconclude
  exact ⟨_, hconclude⟩

theorem follows_ofSettings {s : AssessmentSettings} {source : RandomSource} {a : Assessor}
    (h : ofSettings s source = .ok a) : a.Follows s := by
  unfold ofSettings Injector.ofValue at h
  simp only [Value.toAmount?] at h
  split_ifs at h
  · obtain rfl := Except.ok.inj h
    exact ⟨rfl, rfl⟩
  · cases h

theorem Follows.evaluate {a b : Assessor} {s : AssessmentSettings} (h : a.Follows s)
    {clock : Clock} {op : Operation} {x : Argument} {t t' : Trail} {v : Verdict}
    (he : a.evaluate clock op x t = .ok (v, b, t')) : b.Follows s := by
  unfold Assessor.evaluate at he
  cases hx : op.accept x with
  | error e =>
    rw [hx] at he
    cases he
  | ok o =>
    obtain ⟨t'', ht''⟩ := conclude_eq_twoChecks h clock op o t
    rw [hx, Except.map, ht''] at he
    obtain ⟨-, rfl, -⟩ : _ ∧ _ = b ∧ _ := by simpa using he
    refine ⟨h.stages, ?_⟩
    dsimp only
    split_ifs
    · exact h.probability
    · exact h.probability

theorem Reached.follows {s : AssessmentSettings} {source : RandomSource} {a : Assessor}
    (h : a.Reached s source) : a.Follows s := by
  induction h with
  | start h => exact follows_ofSettings h
  | evaluate _ he ih => exact ih.evaluate he

/-- Every assessor that comes of one that settings describe gives every operand that the
operation is about the verdict of the two checks. So it rejects at the first stage or the
ninth only, it rejects the whole collection for its draw only, and a positive id for no
sentinel but that of its own purpose. -/
theorem evaluate_eq_twoChecks {s : AssessmentSettings} {source : RandomSource} {a : Assessor}
    (ha : a.Reached s source) (clock : Clock) {op : Operation} {o : Operand}
    (ho : op.IsAbout o) (t : Trail) :
    ∃ v b t', a.evaluate clock op (.operand o) t = .ok (v, b, t') ∧
      v = s.twoChecks a.nextDraw o ∧
      (∀ r, v = .rejected r → r.stageRank = 1 ∨ r.stageRank = 9) ∧
      (∀ r, v = .rejected r → op = .bulkLookup → r.failure = .transient) ∧
      (∀ n purpose, o = .entity (some n) purpose → 0 < n → n ≠ s.sentinels.idFor purpose →
        v = .proceed) := by
  obtain ⟨t', ht'⟩ := conclude_eq_twoChecks ha.follows clock op o t
  have heval : a.evaluate clock op (.operand o) t = .ok (a.conclude clock op o t) := by
    rw [evaluate, Operation.accept_of_isAbout ho, Except.map]
  refine ⟨_, _, t', heval.trans (congrArg _ ht'), rfl, ?_, ?_, ?_⟩
  · intro r hr
    exact AssessmentSettings.stageRank_of_twoChecks hr
  · rintro r hr rfl
    have hbulk : o = .bulk := by
      cases o <;> first
        | rfl
        | cases ho.type
    rw [hbulk] at hr
    exact AssessmentSettings.failure_of_twoChecks_bulk hr
  · rintro n purpose rfl hn hne
    exact AssessmentSettings.twoChecks_entity_of_ne hn hne _

/-- A blank symbol is rejected as invalid by the first stage even where it is the sentinel. -/
theorem evaluate_blank_sentinel :
    Operation.IsAbout .lookupBySymbol (.symbol (some (" " : Text))) ∧
    ∃ a v b t', ofSettings { sentinels := { pennySymbol := " " } } (.cycle Double.zero []) = .ok a ∧
      a.evaluate ⟨⟨⟨2024, 2, 29⟩, 0, 0, 0, 0, none⟩, Double.zero⟩ .lookupBySymbol
        (.operand (.symbol (some (" " : Text)))) {} = .ok (v, b, t') ∧
      v = .rejected ⟨1, "data_processing", .validation, "invalid symbol for data processing"⟩ := by
  have ho : Operation.IsAbout .lookupBySymbol (.symbol (some (" " : Text))) := ⟨rfl, rfl⟩
  obtain ⟨a, ha⟩ : ∃ a, ofSettings { sentinels := { pennySymbol := " " } }
      (.cycle Double.zero []) = .ok a := ⟨_, rfl⟩
  obtain ⟨v, b, t', he, hv, -⟩ := evaluate_eq_twoChecks (.start ha)
    ⟨⟨⟨2024, 2, 29⟩, 0, 0, 0, 0, none⟩, Double.zero⟩ ho {}
  exact ⟨ho, a, v, b, t', ha, he, hv⟩

end Assessor

end StockRegister
