import StockRegister.Proofs.Draws

/-!
# What a run leaves in the trail

A `Run` is an assessment that was made : when, of what operation and operand, and with which
verdict. It has one block of events (`Run.events`) : its start, one event for each stage that lets
it pass, one for the stage that rejects it if there is one, and its end. Since the ranks of the
stages are 1 to 9, a run that is rejected at rank `k` is let pass by the ranks 1 to `k - 1`
(`Verdict.StopsAfter.passedEvents_eq`).

Each event is logged at a level of its own (`Run.leveledEvents`), and the run breaks off at the
first one whose line reaches the threshold and cannot be printed. What it leaves is its block up to
this event (`Run.block`), and it answers with the reason in place of the verdict (`Run.answer`).
This is what an assessment does with any printer (`Assessor.assess_eq_answer`), and with one that
prints every line it leaves the whole block (`Assessor.logs_conclude`).

`Assessor.events_afterBy` says of an assessor with any stages and any printer that after any calls
an empty trail holds the last events of the blocks of the runs that the calls began, that every
rejection names the stage that made it, and that two events have the same name exactly if they are
of one run.
-/

namespace StockRegister

/-! ## Keys -/

theorem Key.same_ofString (s t : String) :
    (Key.text (Text.ofString s)).same (Text.ofString t) = (s == t) := by
  rw [Key.same_text, Bool.eq_iff_iff, beq_iff_eq, beq_iff_eq, Text.ofString_inj]

/-- Fields with new keys are written at the end. -/
theorem Fields.put_of_new {fields : Fields} {key : Key}
    (h : ∀ f ∈ fields, f.1.same key = false) (v : Value) :
    fields.put key v = fields ++ [(key, v)] := by
  induction fields with
  | nil => rfl
  | cons f fields ih =>
    have hf := h f List.mem_cons_self
    rw [Fields.put, hf, ih fun g hg => h g (List.mem_cons_of_mem _ hg)]
    rfl

theorem Fields.putAll_of_new {fields more : Fields}
    (h : ((fields ++ more).map Prod.fst).Pairwise fun k l => k.same l = false) :
    fields.putAll more = fields ++ more := by
  induction more generalizing fields with
  | nil => exact (List.append_nil _).symm
  | cons f more ih =>
    have hnew : ∀ g ∈ fields, g.1.same f.1 = false := by
      intro g hg
      rw [List.map_append, List.pairwise_append] at h
      exact h.2.2 _ (List.mem_map_of_mem hg) _ List.mem_cons_self
    have hput : fields.putAll (f :: more) = Fields.putAll (fields ++ [f]) more :=
      congrArg (Fields.putAll · more) (Fields.put_of_new hnew f.2)
    rw [hput, ih (by simpa using h), List.append_assoc, List.singleton_append]

/-! ## Blocks -/

/-- What is stored of every event besides its data : its type, its moment and the name of its
run. -/
def Event.envelope (ids : CorrelationNames) (e : Event) : Fields :=
  [("event_type", e.type), ("recorded_at", .text e.recordedAt.isoText),
    ("correlation_id", correlationValue ids e.correlation)]

theorem Event.get?_envelope_append (ids : CorrelationNames) (e : Event) (data : Fields) :
    Fields.get? (e.envelope ids ++ data) "correlation_id" =
      some (correlationValue ids e.correlation) := by
  simp [Fields.get?, envelope, Key.same_ofString]

/-- An assessment that was made. -/
structure Run where
  clock : Clock
  operation : Operation
  operand : Operand
  verdict : Verdict

namespace Run

/-- An event of a run, under the name of the run. -/
def entry (r : Run) (id : CorrelationId) (type : String) (data : Fields) : Event :=
  ⟨.text type, r.clock.now, some id, data⟩

/-- The number of stages that let a run pass : those below the rank of its rejection, or all. -/
def passedCount (r : Run) : Nat :=
  match r.verdict with
  | .proceed => stageCount
  | .rejected x => x.stageRank.toNat - 1

/-- The event of a stage that let a run pass. -/
def passedEvent (r : Run) (id : CorrelationId) (name : String) (rank : Nat) : Event :=
  r.entry id "stage_passed" [("stage_name", .text name), ("stage_rank", .int rank)]

/-- The events of the first stages of those with the given names, with their ranks from 1 on. -/
def passedEvents (names : List String) (r : Run) (id : CorrelationId) : List Event :=
  ((names.take r.passedCount).zipIdx 1).map fun s => r.passedEvent id s.1 s.2

/-- The event of the stage that rejected a run, as the verdict names it. -/
def rejectedEvents (r : Run) (id : CorrelationId) : List Event :=
  match r.verdict with
  | .proceed => []
  | .rejected x =>
    [r.entry id "stage_rejected" [("stage_name", .text x.stageName),
      ("stage_rank", .int x.stageRank), ("failure_kind", .text x.failure.name),
      ("message", .text x.message)]]

/-- The event of the start of a run, which describes the operand. -/
def startEvent (r : Run) (id : CorrelationId) : Event :=
  r.entry id "pipeline_start" (("operation_kind", .text r.operation.name) :: r.operand.describe)

/-- The event of the end of a run, which tells the outcome. -/
def endEvent (r : Run) (id : CorrelationId) : Event :=
  r.entry id "pipeline_end" [("operation_kind", .text r.operation.name),
    ("outcome", .text r.verdict.outcome), ("duration_seconds", .float r.clock.elapsed)]

/-- The block of a run through stages with the given names. -/
def events (names : List String) (r : Run) (id : CorrelationId) : List Event :=
  r.startEvent id :: (r.passedEvents names id ++ r.rejectedEvents id ++ [r.endEvent id])

/-- The level at which the rejection of a run is logged : a random one is no reason to warn. -/
def rejectionLevel (r : Run) : LogLevel :=
  match r.verdict with
  | .rejected x => if x.failure = .transient then .info else .warning
  | .proceed => .warning

/-- The events of a run with the levels at which they are logged. -/
def leveledEvents (names : List String) (r : Run) (id : CorrelationId) : List (LogLevel × Event) :=
  (.info, r.startEvent id) :: ((r.passedEvents names id).map (LogLevel.debug, ·) ++
    (r.rejectedEvents id).map (r.rejectionLevel, ·) ++ [(.info, r.endEvent id)])

theorem map_leveledEvents (names : List String) (r : Run) (id : CorrelationId) :
    (r.leveledEvents names id).map Prod.snd = r.events names id := by
  simp [leveledEvents, events, Function.comp_def]

/-- The blocks of runs, named by serial numbers from the given one on. -/
def blocks (names : List String) (serial : Nat) (runs : List Run) : List (List Event) :=
  (runs.zipIdx serial).map fun r => r.1.events names (.issued r.2)

section Printing

variable {ε : Type} (p : Printer ε) (threshold : Int)

/-- What a run leaves : its block up to the first event whose line fails. -/
def block (names : List String) (r : Run) (id : CorrelationId) : List Event :=
  p.kept threshold (r.leveledEvents names id)

/-- What a run answers : its verdict, or else the reason of the first line that fails. -/
def answer (names : List String) (r : Run) (id : CorrelationId) : Except ε Verdict :=
  r.verdict.orReason (p.firstFault? threshold (r.leveledEvents names id))

/-- What runs leave, named by serial numbers from the given one on. -/
def blocksBy (names : List String) (serial : Nat) (runs : List Run) : List (List Event) :=
  (runs.zipIdx serial).map fun r => r.1.block p threshold names (.issued r.2)

/-- What runs answer. -/
def answersBy (names : List String) (serial : Nat) (runs : List Run) : List (Except ε Verdict) :=
  (runs.zipIdx serial).map fun r => r.1.answer p threshold names (.issued r.2)

variable {p threshold}

theorem blocksBy_append (names : List String) (serial : Nat) (runs runs' : List Run) :
    blocksBy p threshold names serial (runs ++ runs') =
      blocksBy p threshold names serial runs ++
        blocksBy p threshold names (serial + runs.length) runs' := by
  simp only [blocksBy, List.zipIdx_append, List.map_append]

/-- How a run ends : if all lines that reach the threshold are printed it comes to its verdict and
leaves its whole block. Otherwise it breaks off at the first one that is not, and leaves the events
up to that of this line. -/
inductive Ends (p : Printer ε) (threshold : Int) (names : List String) (r : Run)
    (id : CorrelationId) : Except ε Verdict → List Event → Prop
  | whole : (∀ e ∈ r.leveledEvents names id, p.fault? threshold e = none) →
      Ends p threshold names r id (.ok r.verdict) (r.events names id)
  | broken {opening rest : List (LogLevel × Event)} {e : LogLevel × Event} {error : ε} :
      r.leveledEvents names id = opening ++ e :: rest →
      (∀ e ∈ opening, p.fault? threshold e = none) → p.fault? threshold e = some error →
      Ends p threshold names r id (.error error) (opening.map Prod.snd ++ [e.2])

theorem ends (names : List String) (r : Run) (id : CorrelationId) :
    r.Ends p threshold names id (r.answer p threshold names id) (r.block p threshold names id) := by
  unfold answer block
  cases hfault : p.firstFault? threshold (r.leveledEvents names id) with
  | none =>
    rw [Printer.kept_of_firstFault?_eq_none hfault, map_leveledEvents]
    exact .whole (Printer.firstFault?_eq_none_iff.mp hfault)
  | some error =>
    obtain ⟨opening, e, rest, hevents, he, hopening⟩ := List.findSome?_eq_some_iff.mp hfault
    have hnone : p.firstFault? threshold opening = none :=
      Printer.firstFault?_eq_none_iff.mpr hopening
    have hkept : p.kept threshold (r.leveledEvents names id) = opening.map Prod.snd ++ [e.2] := by
      have hsome : p.firstFault? threshold [e] = some error :=
        (Printer.firstFault?_singleton e).trans he
      rw [hevents, Printer.kept_append_of_eq_none hnone, ← List.singleton_append,
        Printer.kept_append_of_eq_some hsome, Printer.kept_singleton]
    rw [hkept]
    exact .broken hevents hopening he

/-- A run that comes to a verdict leaves its whole block. -/
theorem block_of_answer_eq_ok {names : List String} {r : Run} {id : CorrelationId} {v : Verdict}
    (h : r.answer p threshold names id = .ok v) :
    v = r.verdict ∧ r.block p threshold names id = r.events names id := by
  have hends : r.Ends p threshold names id (r.answer p threshold names id) _ := r.ends names id
  rw [h] at hends
  generalize r.block p threshold names id = block at hends
  cases hends
  exact ⟨rfl, rfl⟩

/-- A run whose first line fails leaves its start only. -/
theorem answer_of_fault_start (names : List String) {r : Run} {id : CorrelationId} {error : ε}
    (h : p.fault? threshold (.info, r.startEvent id) = some error) :
    r.answer p threshold names id = .error error ∧
      r.block p threshold names id = [r.startEvent id] := by
  unfold answer block leveledEvents
  rw [Printer.firstFault?, List.findSome?_cons, Printer.kept, upToFirst_cons, h]
  exact ⟨rfl, rfl⟩

/-- A printer that prints every line lets every run come to its verdict. -/
theorem answer_sure (names : List String) (r : Run) (id : CorrelationId) :
    r.answer (Printer.sure : Printer ε) threshold names id = .ok r.verdict := by
  have hnone := Printer.firstFault?_eq_none_iff.mpr fun e (_ : e ∈ r.leveledEvents names id) =>
    Printer.fault?_sure (ε := ε) threshold e
  rw [answer, hnone, Verdict.orReason]

theorem mem_events_of_mem_block {names : List String} {r : Run} {id : CorrelationId} {e : Event}
    (h : e ∈ r.block p threshold names id) : e ∈ r.events names id := by
  rw [← map_leveledEvents]
  exact (List.take_sublist _ _).map _ |>.subset h

end Printing

/-- The data of the events of a run have keys of their own. -/
theorem fields_of_mem_events {names : List String} {r : Run} {id : CorrelationId} {e : Event}
    (h : e ∈ r.events names id) (ids : CorrelationNames) :
    e.fields ids = e.envelope ids ++ e.data := by
  apply Fields.putAll_of_new
  simp only [events, passedEvents, List.mem_cons, List.mem_append, List.mem_map,
    List.not_mem_nil, or_false] at h
  rcases h with rfl | (⟨s, -, rfl⟩ | h) | rfl
  · cases hr : r.operand <;> simp [startEvent, entry, hr, Operand.describe, Key.same_ofString]
  · simp [passedEvent, entry, Key.same_ofString]
  · unfold rejectedEvents at h
    split at h
    · cases h
    · obtain rfl := List.mem_singleton.mp h
      simp [entry, Key.same_ofString]
  · simp [endEvent, entry, Key.same_ofString]

/-- All events of a block have the name of the run. -/
theorem correlation_of_mem_events {names : List String} {r : Run} {id : CorrelationId} {e : Event}
    (h : e ∈ r.events names id) : e.correlation = some id := by
  have hrejected : ∀ e ∈ r.rejectedEvents id, e.correlation = some id := by
    unfold rejectedEvents
    cases r.verdict with
    | proceed => simp
    | rejected x => simp [entry]
  simp only [events, passedEvents, List.mem_cons, List.mem_append, List.mem_map,
    List.not_mem_nil, or_false] at h
  rcases h with rfl | (⟨s, -, rfl⟩ | h) | rfl
  · rfl
  · rfl
  · exact hrejected e h
  · rfl

section Printing

variable {ε : Type} {p : Printer ε} {threshold : Int} {names : List String} {serial : Nat}
  {runs : List Run} {block : List Event} {e : Event}

theorem correlation_of_mem_blocksBy {i : Nat}
    (hi : (blocksBy p threshold names serial runs)[i]? = some block) (he : e ∈ block) :
    e.correlation = some (.issued (serial + i)) := by
  rw [blocksBy, List.getElem?_map, List.getElem?_zipIdx, Option.map_map] at hi
  obtain ⟨r, -, rfl⟩ := Option.map_eq_some_iff.mp hi
  exact correlation_of_mem_events (mem_events_of_mem_block he)

theorem fields_of_mem_blocksBy (hblock : block ∈ blocksBy p threshold names serial runs)
    (he : e ∈ block) (ids : CorrelationNames) : e.fields ids = e.envelope ids ++ e.data := by
  obtain ⟨r, -, rfl⟩ := List.mem_map.mp hblock
  exact fields_of_mem_events (mem_events_of_mem_block he) ids

end Printing

end Run

/-! ## The walk through the stages -/

/-- A stage that rejects gives its own rank and name. -/
theorem Stage.names_of_assess {s : Stage} {o : Operand} {i i' : Injector} {x : Rejection}
    (h : s.assess o i = (.rejected x, i')) : x.stageRank = s.rank ∧ x.stageName = s.name := by
  unfold assess judge reject at h
  split at h
  · cases h
    exact ⟨rfl, rfl⟩
  · split at h
    · cases h
    · split at h
      · cases h
      · cases h
        exact ⟨rfl, rfl⟩

/-- The opening of a table of stages lets an operand pass with a verdict : it is the whole table,
or all that stands before the stage that the rejection names. -/
inductive Verdict.StopsAfter (stages : List Stage) : List Stage → Verdict → Prop
  | all : StopsAfter stages stages .proceed
  | before {opening rest : List Stage} {s : Stage} {x : Rejection} :
      stages = opening ++ s :: rest → x.stageRank = s.rank → x.stageName = s.name →
        StopsAfter stages opening (.rejected x)

theorem Verdict.StopsAfter.cons {stages opening : List Stage} {v : Verdict}
    (h : v.StopsAfter stages opening) (s : Stage) : v.StopsAfter (s :: stages) (s :: opening) := by
  cases h with
  | all => exact .all
  | before hstages hrank hname => exact .before (congrArg (s :: ·) hstages) hrank hname

/-- The notice of a rejection has the event and the level of the rejection of a run. -/
theorem Stage.leveled_rejectedNotice {s : Stage} {r : Run} {x : Rejection}
    (hr : r.verdict = .rejected x) (hrank : x.stageRank = s.rank) (hname : x.stageName = s.name)
    (id : CorrelationId) :
    [(s.rejectedNotice x).leveled r.clock (some id)] =
      (r.rejectedEvents id).map (r.rejectionLevel, ·) := by
  have hlevel : (s.rejectedNotice x).level = r.rejectionLevel := by
    rw [Run.rejectionLevel, hr]
    exact if_congr (by cases x.failure <;> decide) rfl rfl
  rw [Run.rejectedEvents, hr, Notice.leveled, hlevel]
  dsimp only
  rw [hrank, hname]
  rfl

/-- The course through stages has a notice of each stage that lets the operand pass, and of the one
that rejects it. -/
theorem leveled_course (id : CorrelationId) (clock : Clock) (op : Operation) (o : Operand)
    (stages : List Stage) (i : Injector) :
    let r : Run := ⟨clock, op, o, (course o stages i).1⟩
    ∃ opening, r.verdict.StopsAfter stages opening ∧
      (course o stages i).2.2.map (·.leveled clock (some id)) =
        (opening.map fun s => r.passedEvent id s.name s.rank).map (LogLevel.debug, ·) ++
          (r.rejectedEvents id).map (r.rejectionLevel, ·) := by
  induction stages generalizing i with
  | nil => exact ⟨[], .all, rfl⟩
  | cons s stages ih =>
    cases hs : s.assess o i with
    | mk v i' =>
    cases v with
    | rejected x =>
      obtain ⟨hrank, hname⟩ := Stage.names_of_assess hs
      simp only [course, hs]
      exact ⟨[], .before rfl hrank hname,
        Stage.leveled_rejectedNotice (r := ⟨clock, op, o, .rejected x⟩) rfl hrank hname id⟩
    | proceed =>
      obtain ⟨opening, hstops, hnotices⟩ := ih i'
      simp only [course, hs]
      refine ⟨s :: opening, hstops.cons s, ?_⟩
      rw [List.map_cons, List.map_cons, List.map_cons, List.cons_append, ← hnotices]
      rfl

/-- The stage that a rejection names is one of the table. -/
theorem Verdict.StopsAfter.exists_stage {stages opening : List Stage} {x : Rejection}
    (h : (rejected x).StopsAfter stages opening) :
    ∃ s ∈ stages, x.stageRank = s.rank ∧ x.stageName = s.name := by
  cases h with
  | before hstages hrank hname =>
    exact ⟨_, hstages ▸ List.mem_append_right _ List.mem_cons_self, hrank, hname⟩

/-! ## The run -/

section Ranks

variable {stages opening : List Stage} {r : Run}

/-- Where a table that is ranked from 1 on is cut, both parts are ranked on. -/
theorem ranks_append {rest : List Stage}
    (hranks : (opening ++ rest).map (·.rank) = Assessor.expectedRanks) :
    opening.map (·.rank) = List.range' 1 opening.length ∧
      rest.map (·.rank) = List.range' (1 + opening.length) rest.length := by
  have hexpected : Assessor.expectedRanks = List.range' 1 9 := rfl
  have hlength : opening.length + rest.length = 9 := by
    have h := congrArg List.length hranks
    rwa [List.length_map, List.length_append] at h
  have hcut : List.range' 1 opening.length ++ List.range' (1 + opening.length) rest.length =
      List.range' 1 (opening.length + rest.length) := List.range'_append_1
  rw [hlength, ← hexpected, ← hranks, List.map_append] at hcut
  obtain ⟨hopening, hrest⟩ := List.append_inj hcut (by simp)
  exact ⟨hopening.symm, hrest.symm⟩

/-- In a table that is ranked from 1 on, the rank of a rejection tells how many stages let the
run pass. -/
theorem Verdict.StopsAfter.length_eq (hranks : stages.map (·.rank) = Assessor.expectedRanks)
    (h : r.verdict.StopsAfter stages opening) : opening.length = r.passedCount := by
  obtain ⟨clock, op, o, v⟩ := r
  cases h with
  | all =>
    have hlength := congrArg List.length hranks
    rwa [List.length_map] at hlength
  | before hstages hrank hname =>
    obtain ⟨-, hrest⟩ := ranks_append (hstages ▸ hranks)
    rw [List.map_cons, List.length_cons, List.range'_succ] at hrest
    have hs := List.head_eq_of_cons_eq hrest
    simp only [Run.passedCount, hrank, hs]
    omega

theorem Verdict.StopsAfter.isPrefix (h : r.verdict.StopsAfter stages opening) :
    opening <+: stages := by
  obtain ⟨clock, op, o, v⟩ := r
  cases h with
  | all => exact List.prefix_refl _
  | before hstages => exact ⟨_, hstages.symm⟩

theorem Run.map_passedEvent (id : CorrelationId) {k : Nat}
    (h : opening.map (·.rank) = List.range' k opening.length) :
    opening.map (fun s => r.passedEvent id s.name s.rank) =
      ((opening.map (·.name)).zipIdx k).map fun s => r.passedEvent id s.1 s.2 := by
  induction opening generalizing k with
  | nil => rfl
  | cons s opening ih =>
    simp only [List.map_cons, List.length_cons, List.range'_succ, List.cons.injEq] at h
    rw [List.map_cons, List.map_cons, List.zipIdx_cons, List.map_cons, ih h.2, h.1]

/-- The stages that let a run pass are the first ones of a table that is ranked from 1 on. -/
theorem Verdict.StopsAfter.passedEvents_eq
    (hranks : stages.map (·.rank) = Assessor.expectedRanks)
    (h : r.verdict.StopsAfter stages opening) (id : CorrelationId) :
    opening.map (fun s => r.passedEvent id s.name s.rank) =
      r.passedEvents (stages.map (·.name)) id := by
  obtain ⟨rest, hrest⟩ := h.isPrefix
  have hopening := (ranks_append (hrest ▸ hranks)).1
  rw [Run.map_passedEvent id hopening, Run.passedEvents, ← h.length_eq hranks, ← hrest,
    List.map_append, List.take_left' (List.length_map ..)]

end Ranks

/-- The description of an operand leaves the kind of the operation as it is. -/
theorem Run.leveled_startNotice (r : Run) (id : CorrelationId) :
    (r.operation.startNotice r.operand).leveled r.clock (some id) = (.info, r.startEvent id) := by
  let kind : Fields := [("operation_kind", .text r.operation.name)]
  have hdata : kind.putAll r.operand.describe = kind ++ r.operand.describe := by
    apply Fields.putAll_of_new
    cases r.operand <;> simp [kind, Operand.describe, Key.same_ofString]
  rw [startEvent, entry, Notice.leveled, Operation.startNotice, Notice.started, Notice.event]
  exact congrArg (fun data => (LogLevel.info, Event.mk _ _ _ data)) hdata

/-- The metrics of a run are no events. -/
theorem logs_measureRun (clock : Clock) (op : Operation) (v : Verdict) (t : Trail) :
    t.Logs (measureRun clock op v t) [] := by
  cases v with
  | proceed => exact (t.logs_measure ..).trans (Trail.logs_measure ..)
  | rejected x =>
    exact ((t.logs_measure ..).trans (Trail.logs_measure ..)).trans (Trail.logs_measure ..)

namespace Assessor

/-- The run that an assessment begins, with the verdict that the stages come to. -/
def runOf (a : Assessor) (clock : Clock) (op : Operation) (o : Operand) : Run :=
  ⟨clock, op, o, (course o a.stages a.injector).1⟩

theorem runOf_eq {a : Assessor} {clock : Clock} {op : Operation} {o : Operand} {v : Verdict}
    (h : (a.runOf clock op o).verdict = v) : a.runOf clock op o = ⟨clock, op, o, v⟩ :=
  congrArg (Run.mk clock op o) h

section Assessments

variable {ε : Type} (p : Printer ε) {a : Assessor}

theorem stages_assess (a : Assessor) (clock : Clock) (op : Operation) (o : Operand) (t : Trail) :
    (a.assess p clock op o t).2.1.stages = a.stages := by
  rcases a.assess_cases p clock op o t with ⟨t', -, h⟩ | ⟨t', error, i', -, h⟩
  · rw [h]
  · rw [h]

theorem exists_stopsAfter_runOf (a : Assessor) (clock : Clock) (op : Operation) (o : Operand) :
    ∃ opening, (a.runOf clock op o).verdict.StopsAfter a.stages opening :=
  (leveled_course (.issued 0) clock op o a.stages a.injector).imp fun _ h => h.1

/-- All that an assessment logs if every line is printed : its start, the notices of the stages that
are reached, and its end. -/
def notices (a : Assessor) (clock : Clock) (op : Operation) (o : Operand) : List Notice :=
  let walk := course o a.stages a.injector
  op.startNotice o :: walk.2.2 ++ [op.endNotice clock walk.1]

/-- An assessment logs its notices up to the first one with a line that is not printed. If all lines
are, it comes to the verdict of the stages. -/
theorem logs_assess (a : Assessor) (clock : Clock) (op : Operation) (o : Operand) (t : Trail) :
    let events := (a.notices clock op o).map (·.leveled clock (some (.issued (t.issued + 1))))
    (a.assess p clock op o t).1 =
        (course o a.stages a.injector).1.orReason (p.firstFault? t.threshold events) ∧
      t.issueCorrelation.Logs (a.assess p clock op o t).2.2 (p.kept t.threshold events) := by
  intro events
  let walk := course o a.stages a.injector
  let id : CorrelationId := .issued (t.issued + 1)
  let begun := (op.startNotice o :: walk.2.2).map fun n => n.leveled clock (some id)
  have hevents : events = begun ++ [(op.endNotice clock walk.1).leveled clock (some id)] :=
    List.map_append
  obtain ⟨hlogs, hfault⟩ :
      t.issueCorrelation.Logs (t.issueCorrelation.noteEach p clock (op.startNotice o :: walk.2.2)).1
        (p.kept t.threshold begun) ∧
      (t.issueCorrelation.noteEach p clock (op.startNotice o :: walk.2.2)).2 =
        p.firstFault? t.threshold begun :=
    t.issueCorrelation.logs_noteEach p clock _
  rw [hevents]
  rcases a.assess_cases p clock op o t with
    ⟨t', hnotices, hassess⟩ | ⟨t', error, i', hnotices, hassess⟩
  · -- The line of the end is all that can still fail.
    rw [hnotices] at hlogs hfault
    have hmeasured := hlogs.trans (logs_measureRun clock op walk.1 t')
    have hend := Trail.logs_note p clock (measureRun clock op walk.1 t')
      (op.endNotice clock walk.1)
    have hreason := Trail.note_snd p clock (measureRun clock op walk.1 t')
      (op.endNotice clock walk.1)
    rw [hmeasured.current] at hend hreason
    rw [hmeasured.threshold] at hreason
    rw [Printer.kept_append_of_eq_none hfault.symm, Printer.kept_singleton,
      Printer.firstFault?_append, ← hfault, Option.none_or, Printer.firstFault?_singleton, hassess]
    rw [Printer.kept_of_firstFault?_eq_none hfault.symm, List.append_nil] at hmeasured
    exact ⟨congrArg walk.1.orReason hreason, hmeasured.trans hend⟩
  · rw [hnotices] at hlogs hfault
    rw [Printer.firstFault?_append, ← hfault, Printer.kept_append_of_eq_some hfault.symm, hassess]
    exact ⟨rfl, hlogs⟩

/-- The notices of an assessment are the events of its run with their levels. -/
theorem map_leveled_notices (ha : a.stages.map (·.rank) = expectedRanks) (clock : Clock)
    (op : Operation) (o : Operand) (id : CorrelationId) :
    (a.notices clock op o).map (·.leveled clock (some id)) =
      (a.runOf clock op o).leveledEvents (a.stages.map (·.name)) id := by
  obtain ⟨opening, hstops, hnotices⟩ := leveled_course id clock op o a.stages a.injector
  have hstart := (a.runOf clock op o).leveled_startNotice id
  rw [hstops.passedEvents_eq ha id] at hnotices
  rw [notices, List.map_append, List.map_cons, hnotices]
  exact congrArg (fun start => start :: _ ++ _) hstart

/-- An assessment with any printer answers as its run does, and leaves what the run leaves, under
the next serial number. -/
theorem assess_eq_answer (ha : a.stages.map (·.rank) = expectedRanks) (clock : Clock)
    (op : Operation) (o : Operand) (t : Trail) :
    let r := a.runOf clock op o
    let names := a.stages.map (·.name)
    (a.assess p clock op o t).1 = r.answer p t.threshold names (.issued (t.issued + 1)) ∧
      t.issueCorrelation.Logs (a.assess p clock op o t).2.2
        (r.block p t.threshold names (.issued (t.issued + 1))) := by
  have hlogs := logs_assess p a clock op o t
  rw [map_leveled_notices ha] at hlogs
  exact hlogs

/-- An assessment with a printer that prints every line logs the block of its run, under the next
serial number. -/
theorem logs_conclude (ha : a.stages.map (·.rank) = expectedRanks) (clock : Clock)
    (op : Operation) (o : Operand) (t : Trail) :
    let r : Run := ⟨clock, op, o, (a.conclude clock op o t).1⟩
    (∃ opening, r.verdict.StopsAfter a.stages opening) ∧
      t.issueCorrelation.Logs (a.conclude clock op o t).2.2
        (r.events (a.stages.map (·.name)) (.issued (t.issued + 1))) := by
  obtain ⟨hassess, hconclude⟩ := a.conclude_eq clock op o t
  obtain ⟨-, hlogs⟩ := assess_eq_answer Printer.sure ha clock op o t
  have hanswer : (a.runOf clock op o).answer (Printer.sure : Printer Empty) t.threshold
      (a.stages.map (·.name)) (.issued (t.issued + 1)) = .ok (a.runOf clock op o).verdict :=
    Run.answer_sure ..
  obtain ⟨-, hblock⟩ := Run.block_of_answer_eq_ok hanswer
  rw [hassess, hblock] at hlogs
  rw [hconclude]
  exact ⟨a.exists_stopsAfter_runOf clock op o, hlogs⟩

end Assessments

end Assessor

/-! ## Sequences of runs -/

namespace Trail

/-- Between two trails runs were recorded, by stages with the given names : their blocks follow what
was logged before, each under the next serial number. -/
structure Records (names : List String) (t t' : Trail) (runs : List Run) : Prop where
  events : ∀ before, t.events = window t.capacity before →
    t'.events = window t.capacity (before ++ (Run.blocks names (t.issued + 1) runs).flatten)
  capacity : t'.capacity = t.capacity
  issued : t'.issued = t.issued + runs.length

/-- Between two trails runs were begun with a printer : what they leave follows what was logged
before, each under the next serial number. -/
structure Begins {ε : Type} (p : Printer ε) (names : List String) (t t' : Trail)
    (runs : List Run) : Prop where
  events : ∀ before, t.events = window t.capacity before → t'.events =
    window t.capacity (before ++ (Run.blocksBy p t.threshold names (t.issued + 1) runs).flatten)
  capacity : t'.capacity = t.capacity
  threshold : t'.threshold = t.threshold
  issued : t'.issued = t.issued + runs.length

section Begins

variable {ε : Type} {p : Printer ε} {names : List String} {t t' t'' : Trail}
  {runs runs' : List Run}

theorem Begins.refl (p : Printer ε) (names : List String) (t : Trail) : Begins p names t t [] :=
  ⟨fun before h => by rw [h]; exact congrArg _ (List.append_nil _).symm, rfl, rfl, rfl⟩

theorem Begins.trans (h : Begins p names t t' runs) (h' : Begins p names t' t'' runs') :
    Begins p names t t'' (runs ++ runs') := by
  refine ⟨fun before hbefore => ?_, h'.capacity.trans h.capacity, h'.threshold.trans h.threshold,
    ?_⟩
  · have hmiddle := h.events before hbefore
    rw [← h.capacity] at hmiddle
    rw [h'.events _ hmiddle, h.capacity, h.threshold, h.issued, Run.blocksBy_append,
      List.flatten_append, List.append_assoc, Nat.add_right_comm]
  · rw [h'.issued, h.issued, List.length_append, Nat.add_assoc]

end Begins

end Trail

namespace Assessor

/-- An assessment with a printer that prints every line records one run. -/
theorem records_conclude {a : Assessor} (ha : a.stages.map (·.rank) = expectedRanks)
    (clock : Clock) (op : Operation) (o : Operand) (t : Trail) :
    Trail.Records (a.stages.map (·.name)) t (a.conclude clock op o t).2.2
      [⟨clock, op, o, (a.conclude clock op o t).1⟩] := by
  obtain ⟨-, hlogs⟩ := logs_conclude ha clock op o t
  refine ⟨fun before hbefore => ?_, hlogs.capacity, hlogs.issued⟩
  have hblock := hlogs.events before hbefore
  rwa [← List.append_nil (Run.events ..)] at hblock

/-- The run that a call came to, if it was accepted. -/
def Call.run? (c : Call) (result : Except AssessmentError Verdict) : Option Run :=
  match c.argument, result with
  | .operand o, .ok v => some ⟨c.clock, c.operation, o, v⟩
  | _, _ => none

/-- A call that is refused has no run, and one that is accepted is the assessment of a run. -/
theorem call_cases (a : Assessor) (t : Trail) (c : Call) :
    (c.run? (a.call t c).1 = none ∧ (a.call t c).2.2 = t) ∨
      ∃ o, let r : Run := ⟨c.clock, c.operation, o, (a.conclude c.clock c.operation o t).1⟩
        c.run? (a.call t c).1 = some r ∧
          (a.call t c).2.2 = (a.conclude c.clock c.operation o t).2.2 := by
  unfold call Assessor.evaluate
  cases hx : c.operation.accept c.argument with
  | error e =>
    left
    unfold Call.run?
    cases c.argument <;> exact ⟨rfl, rfl⟩
  | ok o =>
    right
    refine ⟨o, ?_, rfl⟩
    unfold Call.run?
    rw [(Operation.accept_eq_ok_iff.mp hx).1]
    rfl

/-! ## Calls with a printer -/

section Calls

variable {ε : Type} (p : Printer ε)

/-- What a call comes to with a printer, and the assessor and the trail after it. -/
def callBy (a : Assessor) (t : Trail) (c : Call) :
    Except (Breakdown ε) Verdict × Assessor × Trail :=
  a.evaluateBy p c.clock c.operation c.argument t

/-- The assessor and the trail after calls, one after the other. -/
def afterBy (a : Assessor) (t : Trail) : List Call → Assessor × Trail
  | [] => (a, t)
  | c :: rest => (a.callBy p t c).2.1.afterBy (a.callBy p t c).2.2 rest

/-- The calls with what they come to, in order. -/
def answersBy (a : Assessor) (t : Trail) :
    List Call → List (Call × Except (Breakdown ε) Verdict)
  | [] => []
  | c :: rest => (c, (a.callBy p t c).1) :: (a.callBy p t c).2.1.answersBy (a.callBy p t c).2.2 rest

/-- The run that a call begins, if it is accepted. -/
def begun? (a : Assessor) (c : Call) : Option Run :=
  (c.operation.accept c.argument).toOption.map fun o => a.runOf c.clock c.operation o

/-- The runs that calls begin, in order. -/
def begunBy (a : Assessor) (t : Trail) : List Call → List Run
  | [] => []
  | c :: rest =>
    (a.begun? c).toList ++ (a.callBy p t c).2.1.begunBy (a.callBy p t c).2.2 rest

/-- What the calls that were accepted came to, in order. -/
def acceptedResults (answers : List (Call × Except (Breakdown ε) Verdict)) :
    List (Except (Breakdown ε) Verdict) :=
  (answers.filter fun e => (e.1.operation.accept e.1.argument).toOption.isSome).map Prod.snd

variable {p} {a : Assessor}

/-- A call that is refused leaves everything as it is, and one that is accepted begins a run : it
is answered as that run, and leaves what that run leaves. -/
theorem callBy_cases (ha : a.stages.map (·.rank) = expectedRanks) (t : Trail) (c : Call) :
    (∃ e, c.operation.accept c.argument = .error e ∧ a.begun? c = none ∧
      a.callBy p t c = (.error (.assessment e), a, t)) ∨
    ∃ o b t', c.operation.accept c.argument = .ok o ∧ b.stages = a.stages ∧
      (let r := a.runOf c.clock c.operation o
      let names := a.stages.map (·.name)
      a.begun? c = some r ∧ Trail.Begins p names t t' [r] ∧ a.callBy p t c =
        ((r.answer p t.threshold names (.issued (t.issued + 1))).mapError .log, b, t')) := by
  unfold begun? callBy evaluateBy
  cases hx : c.operation.accept c.argument with
  | error e => exact Or.inl ⟨e, rfl, rfl, rfl⟩
  | ok o =>
    obtain ⟨hanswer, hlogs⟩ := assess_eq_answer p ha c.clock c.operation o t
    refine Or.inr ⟨o, _, _, rfl, stages_assess p a c.clock c.operation o t, rfl, ?_,
      by rw [← hanswer]⟩
    refine ⟨fun before hbefore => ?_, hlogs.capacity, hlogs.threshold, hlogs.issued⟩
    have hblock := hlogs.events before hbefore
    rwa [← List.append_nil (Run.block ..)] at hblock

/-- Calls are answered as the runs that they begin, and leave what these runs leave. -/
theorem begins_afterBy (ha : a.stages.map (·.rank) = expectedRanks) (t : Trail)
    (calls : List Call) :
    let names := a.stages.map (·.name)
    Trail.Begins p names t (a.afterBy p t calls).2 (a.begunBy p t calls) ∧
      acceptedResults (a.answersBy p t calls) =
        (Run.answersBy p t.threshold names (t.issued + 1) (a.begunBy p t calls)).map
          (·.mapError .log) := by
  induction calls generalizing a t with
  | nil => exact ⟨.refl p _ t, rfl⟩
  | cons c calls ih =>
    rw [afterBy, answersBy, begunBy]
    rcases callBy_cases (p := p) ha t c with
      ⟨e, hx, hbegun, hcall⟩ | ⟨o, b, t', hx, hstages, hbegun, hbegins, hcall⟩
    · rw [hcall, hbegun, acceptedResults, List.filter_cons_of_neg (by simp [hx, Except.toOption])]
      exact ih ha t
    · obtain ⟨hrest, hresults⟩ := ih (a := b) (hstages ▸ ha) t'
      rw [hstages] at hrest hresults
      rw [hcall, hbegun, acceptedResults, List.filter_cons_of_pos (by simp [hx, Except.toOption]),
        List.map_cons, ← acceptedResults, hresults, hbegins.threshold, hbegins.issued]
      exact ⟨hbegins.trans hrest, rfl⟩

/-- A run that is rejected is so by the stage that its verdict names. -/
theorem stopsAfter_of_mem_begunBy (ha : a.stages.map (·.rank) = expectedRanks) (t : Trail)
    (calls : List Call) {r : Run} (hr : r ∈ a.begunBy p t calls) :
    ∃ opening, r.verdict.StopsAfter a.stages opening := by
  induction calls generalizing a t with
  | nil => cases hr
  | cons c calls ih =>
    rw [begunBy] at hr
    rcases callBy_cases (p := p) ha t c with
      ⟨e, -, hbegun, hcall⟩ | ⟨o, b, t', -, hstages, hbegun, -, hcall⟩
    · rw [hbegun, hcall] at hr
      exact ih ha t hr
    · rw [hbegun, hcall] at hr
      rcases List.mem_append.mp hr with hr | hr
      · obtain rfl := Option.some.inj (Option.mem_toList.mp hr)
        exact a.exists_stopsAfter_runOf c.clock c.operation o
      · have hrest := ih (hstages ▸ ha) t' hr
        rwa [hstages] at hrest

end Calls

theorem ofStages_eq_ok_iff {stages : List Stage} {injector : Injector} {a : Assessor} :
    ofStages stages injector = .ok a ↔
      stages.map (·.rank) = expectedRanks ∧ ⟨stages, injector⟩ = a := by
  unfold ofStages
  dsimp only
  split_ifs with h
  · rw [Except.ok.injEq, and_iff_right h]
  · simp [h]

/-- Stages that are made permissive keep their ranks. -/
theorem ofStages_bypass (ranks : List Nat) (rule : Option TerminalRule) (injector : Injector) :
    ofStages (bypass ranks (stageTable rule)) injector =
      .ok ⟨bypass ranks (stageTable rule), injector⟩ := by
  refine ofStages_eq_ok_iff.mpr ⟨?_, rfl⟩
  have hranks : (bypass ranks (stageTable rule)).map (·.rank) = (stageTable rule).map (·.rank) := by
    rw [bypass, List.map_map]
    rfl
  rw [hranks]
  rfl

/-- An empty trail holds, after any calls of an assessor with any stages and any printer, the last
events of what the runs leave that the accepted calls begin. A run whose lines are printed answers
with its verdict and leaves its whole block. One with a line that reaches the threshold and is not
printed answers with the reason, and leaves its block up to the event of this line. The stages are
ranked from 1 to 9, and each rejection names one of them. What is stored of an event has its data
unchanged, and two events are stored under the same name exactly if they are of one run, if no two
serial numbers are written alike. -/
theorem events_afterBy {ε : Type} (p : Printer ε) {stages : List Stage} {injector : Injector}
    {a : Assessor} (ha : ofStages stages injector = .ok a) {t : Trail} (ht : t.events = [])
    (calls : List Call) :
    let names := stages.map (·.name)
    let runs := a.begunBy p t calls
    let blocks := Run.blocksBy p t.threshold names (t.issued + 1) runs
    let results := Run.answersBy p t.threshold names (t.issued + 1) runs
    (a.afterBy p t calls).2.events = Trail.window t.capacity blocks.flatten ∧
      acceptedResults (a.answersBy p t calls) = results.map (·.mapError .log) ∧
      (∀ (i : Nat) r, runs[i]? = some r → ∃ result block,
        results[i]? = some result ∧ blocks[i]? = some block ∧
          r.Ends p t.threshold names (.issued (t.issued + 1 + i)) result block) ∧
      stages.map (·.rank) = List.range' 1 9 ∧
      (∀ r ∈ runs, ∀ x, r.verdict = .rejected x →
        ∃ s ∈ stages, x.stageRank = s.rank ∧ x.stageName = s.name) ∧
      ∀ ids : CorrelationNames, (∀ m n, ids (.issued m) = ids (.issued n) → m = n) →
        (∀ block ∈ blocks, ∀ e ∈ block, e.fields ids = e.envelope ids ++ e.data) ∧
        ∀ (i j : Nat) block block', blocks[i]? = some block → blocks[j]? = some block' →
          ∀ e ∈ block, ∀ e' ∈ block',
            (Fields.get? (e.fields ids) "correlation_id" =
              Fields.get? (e'.fields ids) "correlation_id" ↔ i = j) := by
  obtain ⟨hranks, rfl⟩ := ofStages_eq_ok_iff.mp ha
  intro names runs blocks results
  obtain ⟨hbegins, hresults⟩ := begins_afterBy (p := p) (a := ⟨stages, injector⟩) hranks t calls
  refine ⟨?_, hresults, fun i r hr => ?_, hranks, fun r hr x hx => ?_, fun ids hids => ⟨?_, ?_⟩⟩
  · have hempty : t.events = Trail.window t.capacity [] := by rw [ht, Trail.window_nil]
    exact hbegins.events [] hempty
  · have hnumbered : (runs.zipIdx (t.issued + 1))[i]? = some (r, t.issued + 1 + i) := by
      rw [List.getElem?_zipIdx, hr, Option.map_some]
    refine ⟨_, _, ?_, ?_, r.ends names _⟩
    · exact (List.getElem?_map ..).trans (congrArg _ hnumbered)
    · exact (List.getElem?_map ..).trans (congrArg _ hnumbered)
  · obtain ⟨opening, hstops⟩ := stopsAfter_of_mem_begunBy hranks t calls hr
    exact (hx ▸ hstops).exists_stage
  · intro block hblock e he
    exact Run.fields_of_mem_blocksBy hblock he ids
  · intro i j block block' hi hj e he e' he'
    rw [Run.fields_of_mem_blocksBy (List.mem_of_getElem? hi) he,
      Run.fields_of_mem_blocksBy (List.mem_of_getElem? hj) he', e.get?_envelope_append,
      e'.get?_envelope_append, Run.correlation_of_mem_blocksBy hi he,
      Run.correlation_of_mem_blocksBy hj he', Option.some.injEq]
    refine ⟨fun h => ?_, fun h => by rw [h]⟩
    have hserial := hids _ _ h
    omega

/-- A trail for 13 events, with lines in JSON, is given three runs and a call that is refused. The
first stage being permissive, the second one rejects the id 0. An id of 5001 digits cannot be
written, and its run breaks off at the start. Of the first run the end is kept, of the second one
its only event, and the third one is kept whole. -/
theorem events_afterBy_of_three_runs :
    let stages := bypass [1] (stageTable (some (recommendationRule {})))
    let injector : Injector := ⟨.null, Double.zero, .cycle Double.zero [], 0⟩
    let clock : Clock := ⟨⟨⟨2024, 2, 29⟩, 0, 0, 0, 0, none⟩, Double.zero⟩
    let p := LineFormat.json.printer
    let t : Trail := { capacity := some 13 }
    let invalid : Run := ⟨clock, .lookupById, .entity (some 0) .lookup,
      .rejected ⟨2, "price", .validation, "invalid id for price analysis"⟩⟩
    let long : Run := ⟨clock, .lookupById, .entity (some (Nat.pow 10 5000)) .lookup, .proceed⟩
    let penny : Run := ⟨clock, .lookupById, .entity (some 999) .lookup,
      .rejected ⟨9, "recommendation", .domain, "penny stock not recommended"⟩⟩
    let calls : List Call := [⟨clock, .lookupById, .operand invalid.operand⟩,
      ⟨clock, .lookupById, .bare .null⟩, ⟨clock, .lookupById, .operand long.operand⟩,
      ⟨clock, .lookupById, .operand penny.operand⟩]
    ∃ a, ofStages stages injector = .ok a ∧ t.events = [] ∧
      acceptedResults (a.answersBy p t calls) =
        [.ok invalid.verdict, .error (.log .unwritableInteger), .ok penny.verdict] ∧
      (a.afterBy p t calls).2.events = invalid.endEvent (.issued 1) ::
        long.startEvent (.issued 2) :: penny.events (stages.map (·.name)) (.issued 3) := by
  intro stages injector clock p t invalid long penny calls
  let a : Assessor := ⟨stages, injector⟩
  let names := stages.map (·.name)
  have ha : ofStages stages injector = .ok a := ofStages_bypass [1] _ injector
  obtain ⟨hevents, hresults, -⟩ := events_afterBy p ha (t := t) rfl calls
  have hruns : a.begunBy p t calls = [invalid, long, penny] := by
    have hverdicts : (a.begunBy p t calls).map (·.verdict) =
        [invalid.verdict, long.verdict, penny.verdict] := by decide +kernel
    obtain ⟨b, c, hbegun⟩ : ∃ b c, a.begunBy p t calls = [a.runOf clock .lookupById invalid.operand,
        runOf b clock .lookupById long.operand, runOf c clock .lookupById penny.operand] :=
      ⟨_, _, rfl⟩
    rw [hbegun] at hverdicts ⊢
    simp only [List.map_cons, List.cons.injEq] at hverdicts
    obtain ⟨hinvalid, hlong, hpenny, -⟩ := hverdicts
    rw [runOf_eq hinvalid, runOf_eq hlong, runOf_eq hpenny]
  have hinvalid : p.firstFault? 20 (invalid.leveledEvents names (.issued 1)) = none := by
    decide +kernel
  have hlong : p.fault? 20 (.info, long.startEvent (.issued 2)) = some .unwritableInteger := by
    decide +kernel
  have hpenny : p.firstFault? 20 (penny.leveledEvents names (.issued 3)) = none := by
    decide +kernel
  obtain ⟨hanswer, hblock⟩ := Run.answer_of_fault_start names hlong
  have hnone {r : Run} {id : CorrelationId}
      (h : p.firstFault? 20 (r.leveledEvents names id) = none) :
      r.answer p 20 names id = .ok r.verdict := congrArg r.verdict.orReason h
  have hanswers : Run.answersBy p 20 names 1 [invalid, long, penny] =
      [.ok invalid.verdict, .error .unwritableInteger, .ok penny.verdict] := by
    rw [← hnone hinvalid, ← hnone hpenny, ← hanswer]
    rfl
  have hblocks : Run.blocksBy p 20 names 1 [invalid, long, penny] =
      [invalid.events names (.issued 1), [long.startEvent (.issued 2)],
        penny.events names (.issued 3)] := by
    rw [← (Run.block_of_answer_eq_ok (hnone hinvalid)).2,
      ← (Run.block_of_answer_eq_ok (hnone hpenny)).2, ← hblock]
    rfl
  have hthreshold : t.threshold = 20 := rfl
  have hserial : t.issued + 1 = 1 := rfl
  rw [hruns, hthreshold, hserial] at hresults hevents
  rw [hanswers] at hresults
  rw [hblocks] at hevents
  exact ⟨a, ha, rfl, hresults, hevents⟩

/-- A run about an id of 5001 digits breaks off when the line of its start is put into JSON.
Whatever verdict is thought of as its result, a trail without a capacity does not hold its block. -/
theorem events_afterBy_of_long_id :
    let stages := stageTable (some (recommendationRule {}))
    let injector : Injector := ⟨.null, Double.zero, .cycle Double.zero [], 0⟩
    let clock : Clock := ⟨⟨⟨2024, 2, 29⟩, 0, 0, 0, 0, none⟩, Double.zero⟩
    let p := LineFormat.json.printer
    let t : Trail := { capacity := none }
    let o : Operand := .entity (some (Nat.pow 10 5000)) .lookup
    let calls : List Call := [⟨clock, .lookupById, .operand o⟩]
    ∃ a, ofStages stages injector = .ok a ∧ t.events = [] ∧
      Operation.accept .lookupById (.operand o) = .ok o ∧
      acceptedResults (a.answersBy p t calls) = [.error (.log .unwritableInteger)] ∧
      ∀ v, (a.afterBy p t calls).2.events ≠
        Trail.window t.capacity
          (Run.blocks (stages.map (·.name)) 1 [⟨clock, .lookupById, o, v⟩]).flatten := by
  intro stages injector clock p t o calls
  let a : Assessor := ⟨stages, injector⟩
  let r := a.runOf clock .lookupById o
  let names := stages.map (·.name)
  have ha : ofStages stages injector = .ok a := rfl
  obtain ⟨hbegins, hresults⟩ := begins_afterBy (p := p) (a := a) rfl t calls
  have hlong : p.fault? 20 (.info, r.startEvent (.issued 1)) = some .unwritableInteger := by
    decide +kernel
  obtain ⟨hanswer, hblock⟩ := Run.answer_of_fault_start names hlong
  have hanswers : Run.answersBy p 20 names 1 [r] = [.error .unwritableInteger] := by
    rw [← hanswer]
    rfl
  have hblocks : Run.blocksBy p 20 names 1 [r] = [[r.startEvent (.issued 1)]] := by
    rw [← hblock]
    rfl
  have hruns : a.begunBy p t calls = [r] := rfl
  have hthreshold : t.threshold = 20 := rfl
  have hserial : t.issued + 1 = 1 := rfl
  have hevents := hbegins.events [] rfl
  rw [hruns, hthreshold, hserial] at hresults hevents
  rw [hanswers] at hresults
  rw [hblocks] at hevents
  refine ⟨a, ha, rfl, rfl, hresults, fun v h => ?_⟩
  -- The block would have the event of the end besides that of the start.
  have hlength := congrArg List.length (hevents.symm.trans h)
  simp [t, Trail.window, Run.blocks, Run.events] at hlength

end Assessor

end StockRegister
