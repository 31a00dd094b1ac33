import StockRegister.Proofs.Counting
import StockRegister.Proofs.TrailCalls

/-!
# Metrics of runs

A run is kept in three metrics (`RunMetric`) : it is counted, it is counted again if it was
rejected, and its duration is kept. `RunMetric.concerns` says which runs a metric is about, and
`RunMetric.entry` is what it keeps of one of them.

Calls of an assessor may alternate with clearing the trail (`Assessor.Move`). `Assessor.ran` are
the runs that the calls came to, each with its name, and with a mark wherever everything was
forgotten. A move adds the entries of its run to what the metrics keep
(`Assessor.measured_move`), and so each metric keeps the window of the entries of its own runs
since the last mark (`Assessor.measured_trailAfterMoves`). The value of an entry of a counter being
one, its total is the sum of so many ones as there are entries with the tags in question
(`RunMetric.foldlM_entry`). `Assessor.totals_trailAfterMoves` puts this together.
-/

namespace StockRegister

/-! ## The table of metrics -/

namespace Trail

/-- What a table of metrics has under a name. -/
def kept (table : List (Key × List Metric)) (name : Key) : Option (List Metric) :=
  (table.find? (·.1.finds name)).map Prod.snd

theorem kept_cons (k : Key) (entries : List Metric) (table : List (Key × List Metric))
    (name : Key) :
    kept ((k, entries) :: table) name = if k.finds name then some entries else kept table name := by
  unfold kept
  rw [List.find?_cons]
  cases k.finds name <;> rfl

theorem kept_putMetric (name other : Text) (entries : List Metric)
    (table : List (Key × List Metric)) :
    kept (putMetric name entries table) other =
      if name = other then some entries else kept table other := by
  induction table with
  | nil =>
    rw [putMetric, kept_cons, Key.finds_text]
    simp only [beq_iff_eq]
  | cons e table ih =>
    obtain ⟨k, old⟩ := e
    rw [putMetric, kept_cons k old table]
    by_cases hname : k.finds name
    · rw [if_pos hname, kept_cons]
      by_cases h : name = other
      · rw [if_pos h, ← h, if_pos hname]
      · have hother : ¬k.finds other := by
          intro hother
          simp only [Key.finds, Bool.and_eq_true] at hname hother
          have hsame := Key.same_trans (Key.same_comm k name ▸ hname.1) hother.1
          rw [Key.same_text, beq_iff_eq] at hsame
          exact h hsame
        rw [if_neg hother, if_neg hother, if_neg h]
    · rw [if_neg hname, kept_cons, ih]
      by_cases hother : k.finds other
      · have h : name ≠ other := fun h => hname (h ▸ hother)
        rw [if_pos hother, if_pos hother, if_neg h]
      · rw [if_neg hother, if_neg hother]

/-- A value is kept under its own name alone. -/
theorem metric_measure (t : Trail) (clock : Clock) (name other : Text) (kind value tags : Value) :
    (t.measure clock name kind value tags).metric other =
      if name = other then push t.capacity (t.metric name) ⟨value, tags, kind, clock.now, t.current⟩
      else t.metric other := by
  change (kept (putMetric name _ t.metrics) other).getD [] = _
  rw [kept_putMetric]
  split_ifs
  · rfl
  · rfl

/-- Logging a notice leaves the metrics alone. -/
theorem metrics_note {ε : Type} (t : Trail) (p : Printer ε) (clock : Clock) (n : Notice) :
    (t.note p clock n).1.metrics = t.metrics := by
  rw [note]
  cases t.noticeLine clock n with
  | none => rfl
  | some l =>
    rw [print]
    cases p .method l <;> rfl

theorem metrics_noteEach {ε : Type} (t : Trail) (p : Printer ε) (clock : Clock)
    (ns : List Notice) : (t.noteEach p clock ns).1.metrics = t.metrics := by
  induction ns generalizing t with
  | nil => rfl
  | cons n ns ih =>
    have hnote := t.metrics_note p clock n
    rw [noteEach]
    generalize t.note p clock n = result at hnote ⊢
    obtain ⟨t', _ | error⟩ := result
    · exact (ih t').trans hnote
    · exact hnote

end Trail

/-! ## What the metrics keep of a run -/

/-- Tags of texts as an object. -/
def texts (tags : List (Text × Text)) : Fields := tags.map fun f => (.text f.1, .text f.2)

/-- The metrics of runs. -/
inductive RunMetric where
  | runs
  | rejections
  | durations
deriving DecidableEq

namespace RunMetric

/-- The name of a metric. -/
def name : RunMetric → String
  | runs => "pipeline_runs_total"
  | rejections => "pipeline_rejections_total"
  | durations => "pipeline_duration_seconds"

/-- Whether a metric keeps something of a run : one of them is about rejections only. -/
def concerns (m : RunMetric) (r : Run) : Bool :=
  match m, r.verdict with
  | rejections, .proceed => false
  | _, _ => true

/-- The tags of a run : the kind of the operation, and for a rejection what failed and where. -/
def tags (m : RunMetric) (r : Run) : List (Text × Text) :=
  match m, r.verdict with
  | rejections, .rejected x =>
    [("operation_kind", r.operation.name), ("failure_kind", x.failure.name),
      ("stage", x.stageName)]
  | _, _ => [("operation_kind", r.operation.name)]

/-- The value that is kept of a run : its duration, or a one. -/
def value (m : RunMetric) (r : Run) : Value :=
  match m with
  | durations => .float r.clock.elapsed
  | _ => .float Double.one

/-- The kind of a metric. -/
def kind : RunMetric → String
  | durations => "histogram"
  | _ => "counter"

/-- What a metric keeps of a run, under the name of the run. -/
def entry (m : RunMetric) (id : CorrelationId) (r : Run) : Metric :=
  ⟨m.value r, .object (texts (m.tags r)), .text m.kind, r.clock.now, some id⟩

/-- What a metric keeps of named runs, in order. -/
def entries (m : RunMetric) (runs : List (CorrelationId × Run)) : List Metric :=
  (runs.filter fun r => m.concerns r.2).map fun r => m.entry r.1 r.2

theorem entries_append (m : RunMetric) (runs runs' : List (CorrelationId × Run)) :
    m.entries (runs ++ runs') = m.entries runs ++ m.entries runs' := by
  rw [entries, List.filter_append, List.map_append, entries, entries]

theorem entries_singleton (m : RunMetric) (id : CorrelationId) (r : Run) :
    m.entries [(id, r)] = if m.concerns r then [m.entry id r] else [] := by
  rw [entries, List.filter_singleton]
  cases m.concerns r <;> rfl

/-- Keep the entry of a run in a metric. -/
def measure (m : RunMetric) (r : Run) (t : Trail) : Trail :=
  t.measure r.clock m.name (.text m.kind) (m.value r) (.object (texts (m.tags r)))

/-- An entry is kept under the name of the run, in its own metric alone. -/
theorem metric_measure (m k : RunMetric) (r : Run) {t : Trail} {id : CorrelationId}
    (ht : t.current = some id) :
    (m.measure r t).metric k.name =
      if m = k then Trail.push t.capacity (t.metric k.name) (k.entry id r)
      else t.metric k.name := by
  have hname : (m.name : Text) = k.name ↔ m = k := by
    cases m <;> cases k <;> decide
  rw [measure, Trail.metric_measure, ht]
  simp only [hname]
  split_ifs with h
  · rw [h, entry]
  · rfl

end RunMetric

/-- The entries of a run are kept in the metrics that it concerns. -/
theorem measureRun_eq (r : Run) (t : Trail) :
    measureRun r.clock r.operation r.verdict t =
      RunMetric.measure .durations r
        (if RunMetric.rejections.concerns r then
          RunMetric.measure .rejections r (RunMetric.measure .runs r t)
        else RunMetric.measure .runs r t) := by
  obtain ⟨clock, op, o, v⟩ := r
  cases v <;> rfl

/-- What a trail keeps of the runs since all was forgotten : in each metric the window of the
entries that the metric has of them. -/
def Trail.Measured (t : Trail) (ran : List (Option (CorrelationId × Run))) : Prop :=
  ∀ m : RunMetric, t.metric m.name = Trail.window t.capacity (m.entries (Trail.sinceClear ran))

theorem Trail.Measured.of_eq {t u : Trail} {ran : List (Option (CorrelationId × Run))}
    (h : t.Measured ran) (hmetrics : u.metrics = t.metrics) (hcapacity : u.capacity = t.capacity) :
    u.Measured ran := by
  intro m
  rw [hcapacity, ← h m, metric, hmetrics, metric]

/-- A run whose metrics are kept is measured. -/
theorem Trail.Measured.measureRun {t : Trail} {id : CorrelationId}
    {ran : List (Option (CorrelationId × Run))} (h : t.Measured ran) (ht : t.current = some id)
    (r : Run) :
    (measureRun r.clock r.operation r.verdict t).Measured (ran ++ [some (id, r)]) := by
  intro m
  have hcapacity := (logs_measureRun r.clock r.operation r.verdict t).capacity
  have hnamed {u : Trail} (k : RunMetric) (hu : u.current = some id) :
      (k.measure r u).current = some id := hu
  have hmetric : (StockRegister.measureRun r.clock r.operation r.verdict t).metric m.name =
      if m.concerns r then Trail.push t.capacity (t.metric m.name) (m.entry id r)
      else t.metric m.name := by
    rw [measureRun_eq]
    cases hrejected : RunMetric.rejections.concerns r with
    | true =>
      rw [if_pos rfl, RunMetric.metric_measure _ _ _ (hnamed _ (hnamed _ ht)),
        RunMetric.metric_measure _ _ _ (hnamed _ ht), RunMetric.metric_measure _ _ _ ht]
      cases m with
      | rejections => rw [hrejected]; rfl
      | _ => rfl
    | false =>
      rw [if_neg Bool.false_ne_true, RunMetric.metric_measure _ _ _ (hnamed _ ht),
        RunMetric.metric_measure _ _ _ ht]
      cases m with
      | rejections => rw [hrejected]; rfl
      | _ => rfl
  rw [hmetric, hcapacity, Trail.sinceClear_append_some, RunMetric.entries_append,
    RunMetric.entries_singleton, h m]
  split_ifs
  · exact Trail.push_window ..
  · rw [List.append_nil]

/-! ## Moves -/

namespace Assessor

/-- A move : a call, or all that was kept is forgotten. -/
inductive Move where
  | call (c : Call)
  | clear

/-- The assessor and the trail after a move. -/
def move (a : Assessor) (t : Trail) : Move → Assessor × Trail
  | .call c => (a.call t c).2
  | .clear => (a, t.clear)

/-- The trail after moves, one after the other. -/
def trailAfterMoves (a : Assessor) (t : Trail) : List Move → Trail
  | [] => t
  | m :: moves => (a.move t m).1.trailAfterMoves (a.move t m).2 moves

/-- The run that a move came to, under the name that it was given, or a mark that all was
forgotten. -/
def marks (a : Assessor) (t : Trail) : Move → List (Option (CorrelationId × Run))
  | .call c => ((c.run? (a.call t c).1).map fun r => some (.issued (t.issued + 1), r)).toList
  | .clear => [none]

/-- The runs that moves came to, in order, with `none` wherever all was forgotten. -/
def ran (a : Assessor) (t : Trail) : List Move → List (Option (CorrelationId × Run))
  | [] => []
  | m :: moves => a.marks t m ++ (a.move t m).1.ran (a.move t m).2 moves

section Moves

variable {t : Trail} {before : List (Option (CorrelationId × Run))}

/-- An assessment is measured as the run that it is, under the next serial number. -/
theorem measured_conclude (a : Assessor) (h : t.Measured before) (clock : Clock) (op : Operation)
    (o : Operand) :
    (a.conclude clock op o t).2.2.capacity = t.capacity ∧
      (a.conclude clock op o t).2.2.Measured (before ++
        [some (.issued (t.issued + 1), ⟨clock, op, o, (a.conclude clock op o t).1⟩)]) := by
  obtain ⟨-, hconclude⟩ := a.conclude_eq clock op o t
  let sure : Printer Empty := Printer.sure
  let notices := op.startNotice o :: (course o a.stages a.injector).2.2
  let r : Run := ⟨clock, op, o, (course o a.stages a.injector).1⟩
  let u := (t.issueCorrelation.noteEach sure clock notices).1
  obtain ⟨hlogs, -⟩ := t.issueCorrelation.logs_noteEach sure clock notices
  have hmetrics : u.metrics = t.metrics := t.issueCorrelation.metrics_noteEach sure clock notices
  have hcapacity : u.capacity = t.capacity := hlogs.capacity
  have hmeasured := (h.of_eq hmetrics hcapacity).measureRun hlogs.current r
  have hlogged := (logs_measureRun clock op r.verdict u).trans
    (Trail.logs_note sure clock _ (op.endNotice clock r.verdict))
  rw [hconclude]
  refine ⟨hlogged.capacity.trans hcapacity, ?_⟩
  exact hmeasured.of_eq (Trail.metrics_note ..) (Trail.logs_note ..).capacity

/-- A move adds its run to those that are measured, or none is measured any more. -/
theorem measured_move (a : Assessor) (h : t.Measured before) (m : Move) :
    (a.move t m).2.capacity = t.capacity ∧ (a.move t m).2.Measured (before ++ a.marks t m) := by
  cases m with
  | clear =>
    refine ⟨rfl, fun m => ?_⟩
    rw [marks, Trail.sinceClear_append_none]
    exact (Trail.window_nil _).symm
  | call c =>
    rw [move, marks]
    rcases a.call_cases t c with ⟨hrun, htrail⟩ | ⟨o, hrun, htrail⟩
    · rw [hrun, htrail, Option.map_none, Option.toList_none, List.append_nil]
      exact ⟨rfl, h⟩
    · rw [hrun, htrail]
      exact a.measured_conclude h c.clock c.operation o

/-- Moves add their runs to those that are measured, as far as they are not forgotten. -/
theorem measured_trailAfterMoves (a : Assessor) (h : t.Measured before) (moves : List Move) :
    (a.trailAfterMoves t moves).capacity = t.capacity ∧
      (a.trailAfterMoves t moves).Measured (before ++ a.ran t moves) := by
  induction moves generalizing a t before with
  | nil =>
    rw [ran, List.append_nil]
    exact ⟨rfl, h⟩
  | cons m moves ih =>
    obtain ⟨hcapacity, hmove⟩ := a.measured_move h m
    obtain ⟨hcapacity', hrest⟩ := ih (a.move t m).1 hmove
    rw [ran, ← List.append_assoc]
    exact ⟨hcapacity'.trans hcapacity, hrest⟩

end Moves

end Assessor

/-! ## Totals -/

namespace Trail

theorem window_map {α β : Type} (capacity : Option Nat) (f : α → β) (xs : List α) :
    window capacity (xs.map f) = (window capacity xs).map f := by
  cases capacity with
  | none => rfl
  | some n => simp only [window, lastItems, List.length_map, List.map_drop]

/-- A tag is found under its key, if no two tags have one key. -/
theorem same_getD_texts {tags : List (Text × Text)} (h : (tags.map Prod.fst).Nodup)
    (key value : Text) :
    ((Fields.get? (texts tags) key).getD .null).same (.text value) =
      tags.contains (key, value) := by
  induction tags with
  | nil => rfl
  | cons tag tags ih =>
    obtain ⟨k, v⟩ := tag
    rw [List.map_cons, List.nodup_cons] at h
    rw [texts, List.map_cons, Fields.get?_cons, Key.same_text, List.contains_cons]
    by_cases hk : k = key
    · have hnot : tags.contains (key, value) = false := by
        rw [List.contains_eq_mem, decide_eq_false_iff_not]
        exact fun hmem => h.1 (List.mem_map.mpr ⟨_, hmem, hk.symm⟩)
      rw [hnot, Bool.or_false, if_pos (beq_iff_eq.mpr hk), Option.getD_some, hk]
      change (v == value) = ((key, value) == (key, v))
      rw [Bool.eq_iff_iff, beq_iff_eq, beq_iff_eq, Prod.mk.injEq, and_iff_right rfl, eq_comm]
    · have hne : ((key, value) == (k, v)) = false := by
        rw [beq_eq_false_iff_ne]
        exact fun h' => hk (Prod.mk.inj h').1.symm
      rw [if_neg (by rwa [beq_iff_eq]), hne, Bool.false_or]
      exact ih h.2

/-- A filter is met by the tags that contain all of it. -/
theorem matchesTags_texts {tags : List (Text × Text)} (h : (tags.map Prod.fst).Nodup)
    (filter : List (Text × Text)) :
    matchesTags (texts filter) (.object (texts tags)) = .ok (filter.all tags.contains) := by
  simp only [matchesTags, texts, List.all_map]
  congr 2
  funext f
  exact same_getD_texts h f.1 f.2

/-- The sum of so many ones, starting from the whole number zero. -/
def ones (n : Nat) : Amount := if n = 0 then .whole 0 else .real (Double.ofCount n)

theorem addValue_ones (n : Nat) : addValue (ones n) (.float Double.one) = .ok (ones (n + 1)) := by
  have hadd : (ones n).add? (.real Double.one) =
      some (.real ((Double.ofCount n).add Double.one)) := by
    cases n with
    | zero =>
      have hzero : (Amount.whole 0).toDouble? = some (Double.ofCount 0) := by decide +kernel
      simp only [ones, if_true, Amount.add?, hzero]
      rfl
    | succ n => rfl
  simp only [addValue, Value.toAmount?, hadd, Double.ofCount_add_one]
  rfl

end Trail

namespace RunMetric

theorem nodup_tags (m : RunMetric) (r : Run) : ((m.tags r).map Prod.fst).Nodup := by
  have hone : [("operation_kind" : Text)].Nodup := List.nodup_singleton _
  have hthree : [("operation_kind" : Text), "failure_kind", "stage"].Nodup := by decide
  obtain ⟨clock, op, o, v⟩ := r
  cases v with
  | proceed => cases m <;> exact hone
  | rejected x =>
    cases m with
    | rejections => exact hthree
    | _ => exact hone

/-- An entry of a counter adds a one if its tags meet the filter. -/
theorem addMetric_entry {m : RunMetric} (hm : m ≠ .durations) (filter : List (Text × Text))
    (id : CorrelationId) (r : Run) (n : Nat) :
    Trail.addMetric (texts filter) (Trail.ones n) (m.entry id r) =
      .ok (Trail.ones (if filter.all (m.tags r).contains then n + 1 else n)) := by
  have hvalue : (m.entry id r).value = .float Double.one := by
    cases m with
    | durations => contradiction
    | _ => rfl
  have hmatches : Trail.matchesTags (texts filter) (m.entry id r).tags =
      .ok (filter.all (m.tags r).contains) :=
    Trail.matchesTags_texts (m.nodup_tags r) filter
  rw [Trail.addMetric, hmatches, hvalue]
  cases filter.all (m.tags r).contains with
  | true => exact Trail.addValue_ones n
  | false => rfl

/-- The entries of a counter add up to a one for each that meets the filter. -/
theorem foldlM_entry {m : RunMetric} (hm : m ≠ .durations) (filter : List (Text × Text))
    (runs : List (CorrelationId × Run)) (n : Nat) :
    (runs.map fun r => m.entry r.1 r.2).foldlM (Trail.addMetric (texts filter)) (Trail.ones n) =
      .ok (Trail.ones (n + runs.countP fun r => filter.all (m.tags r.2).contains)) := by
  induction runs generalizing n with
  | nil => rfl
  | cons r runs ih =>
    rw [List.map_cons, List.foldlM_cons, addMetric_entry hm, List.countP_cons]
    refine (ih _).trans ?_
    congr 2
    split_ifs
    · omega
    · omega

end RunMetric

namespace Assessor

/-- Let calls of an assessor alternate with clearing a trail that keeps no metrics. Then each metric
of runs holds the last entries of the runs that concern it, out of those since the trail was
cleared, and a filter of texts counts those of them whose tags it is part of. The keys that the
question itself uses cannot be asked for. -/
theorem totals_trailAfterMoves (a : Assessor) {t : Trail} (ht : t.metrics = [])
    (moves : List Move) :
    let u := a.trailAfterMoves t moves
    let runs := Trail.sinceClear (a.ran t moves)
    let window (m : RunMetric) := Trail.window t.capacity (runs.filter fun r => m.concerns r.2)
    (∀ m : RunMetric, u.metric m.name = (window m).map fun r => m.entry r.1 r.2) ∧
      ∀ m : RunMetric, m ≠ .durations → ∀ filter : List (Text × Text),
        u.totalGiven (.text m.name) (.object (texts filter)) =
          if Trail.reserves ["self", "name"] (texts filter) then .error .reservedKey
          else .ok (Trail.ones
            ((window m).countP fun r => filter.all (m.tags r.2).contains)) := by
  intro u runs window
  have hstart : t.Measured [] := by
    intro m
    rw [Trail.metric, ht]
    exact (Trail.window_nil _).symm
  obtain ⟨hcapacity, hmeasured⟩ := a.measured_trailAfterMoves hstart moves
  have hmetric (m : RunMetric) : u.metric m.name = (window m).map fun r => m.entry r.1 r.2 := by
    rw [hmeasured m, hcapacity, RunMetric.entries, Trail.window_map]
    rfl
  refine ⟨hmetric, fun m hm filter => ?_⟩
  have htotal : u.total m.name (texts filter) = .ok (Trail.ones
      ((window m).countP fun r => filter.all (m.tags r.2).contains)) := by
    rw [Trail.total, hmetric]
    refine (RunMetric.foldlM_entry hm filter (window m) 0).trans ?_
    rw [Nat.zero_add]
  have hobject : (Value.object (texts filter)).orEmptyObject = .object (texts filter) := by
    cases filter <;> rfl
  rw [Trail.totalGiven, hobject]
  simp only [Value.toKey?, htotal]

/-- A trail for two entries of each metric is cleared after a first run and then given three : the
id 0 is rejected by the second stage, as the first one is permissive, the id 999 by the last one,
and the id 5 by none. The counter of runs has forgotten the rejection of the id 0, and that of
rejections has not. -/
theorem totals_trailAfterMoves_of_four_runs :
    let a : Assessor := ⟨bypass [1] (stageTable (some (recommendationRule {}))),
      ⟨.null, Double.zero, .cycle Double.zero [], 0⟩⟩
    let clock : Clock := ⟨⟨⟨2024, 2, 29⟩, 0, 0, 0, 0, none⟩, Double.zero⟩
    let lookup (id : Int) : Move :=
      .call ⟨clock, .lookupById, .operand (.entity (some id) .lookup)⟩
    let t : Trail := { capacity := some 2 }
    let moves : List Move := [lookup 5, .clear, lookup 0, lookup 999, lookup 5]
    let total (m : RunMetric) (filter : List (Text × Text)) :=
      (a.trailAfterMoves t moves).totalGiven (.text m.name) (.object (texts filter))
    t.metrics = [] ∧
      (Trail.sinceClear (a.ran t moves)).map (fun r => r.2.passedCount) = [1, 8, 9] ∧
      total .runs [("operation_kind", "lookup_by_id")] = .ok (.real (Double.ofCount 2)) ∧
      total .rejections [("stage", "price")] = .ok (.real (Double.ofCount 1)) ∧
      total .rejections [("name", "price")] = .error .reservedKey := by
  intro a clock lookup t moves total
  obtain ⟨-, htotals⟩ := a.totals_trailAfterMoves (t := t) rfl moves
  refine ⟨rfl, by decide +kernel, ?_, ?_, ?_⟩
  · exact (htotals .runs nofun _).trans (by decide +kernel)
  · exact (htotals .rejections nofun _).trans (by decide +kernel)
  · exact (htotals .rejections nofun _).trans (by decide +kernel)

end Assessor

end StockRegister
