import Mathlib.Data.List.DropRight
import Mathlib.Data.List.ReduceOption
import StockRegister.Proofs.Merging
import StockRegister.Proofs.RunEvents

/-!
# Calls of the trail

A trail is called from outside (`Trail.Call`) to name the runs, to log events, to keep metrics, to
forget everything and to tell what it holds. `Trail.perform` is one call, `Trail.after` the trail
after calls, and `Trail.trace` tells what each of them is answered and what it leaves.

A method of the logger asks the trail for the threshold and the name of the run only
(`Trail.submit_eq`), and printing changes nothing but the lines (`Trail.deliver_eq`). So logging an
event is keeping it and then printing it (`Trail.logBy_eq`). That fails if the event is refused or
if the line cannot be printed (`Trail.overlay`). Whether it is refused does not depend on the
threshold (`Trail.refusal?_submitted`), if the data hand over no name that a method of the logger
keeps for itself (`Call.IsOrdinary`). Which lines are handed to the printer does, but a line that a
higher threshold lets through is the same under a lower one (`Trail.handed?_submitted`).

Hence the threshold and the printer have no influence on events and metrics
(`Trail.perform_releveled`), nor on any answer but that a line could not be printed
(`Trail.answer_releveled`), and the capacity has none on what is printed (`Trail.perform_rekept`).
What is kept at any time is the window of the events logged since the last time that all was
forgotten (`Trail.sinceClear`). `Trail.answers_and_lines_apart` puts these together for any calls.
-/

namespace StockRegister

/-! ## Keys of payloads -/

namespace Fields

theorem has_cons (k l : Key) (v : Value) (fields : Fields) :
    Fields.has ((k, v) :: fields) l = (k.same l || fields.has l) := by
  rw [has, get?_cons]
  cases hsame : k.same l with
  | true => rw [if_pos rfl, Bool.true_or, Option.isSome_some]
  | false => rw [if_neg Bool.false_ne_true, Bool.false_or, has]

theorem has_putAll (fields more : Fields) (l : Key) :
    (fields.putAll more).has l = (fields.has l || more.has l) := by
  induction more generalizing fields with
  | nil => exact (Bool.or_false _).symm
  | cons f more ih =>
    obtain ⟨k, v⟩ := f
    have hput : fields.putAll ((k, v) :: more) = (fields.put k v).putAll more := rfl
    rw [hput, ih, has_put, has_cons, Bool.or_comm (k.same l), Bool.or_assoc]

theorem has_of_has_without {fields : Fields} {k l : Key} (h : (fields.without k).has l) :
    fields.has l := by
  simp only [has, get?, without, Option.isSome_map, List.find?_isSome, List.mem_filter] at *
  obtain ⟨f, ⟨hf, -⟩, hl⟩ := h
  exact ⟨f, hf, hl⟩

end Fields

/-- A key that is neither in the data of an event nor one of an event as such is not in its
payload. -/
theorem Event.payload_lacks (e : Event) {t : Text} (htype : t ≠ "event_type")
    (hmoment : t ≠ "recorded_at") (h : e.data.has t = false) : Fields.has e.payload t = false := by
  refine eq_false_of_ne_true fun hhas => Bool.false_ne_true (h.symm.trans ?_)
  have hput := Fields.has_of_has_without hhas
  rw [Fields.has_putAll] at hput
  simpa [Fields.has_cons, Key.same_text, Ne.symm htype, Ne.symm hmoment, Fields.has, Fields.get?]
    using hput

namespace Trail

/-! ## Printing -/

/-- A line that is handed to the printer, with the part of it that takes the line. -/
def Delivery.handed? : Delivery → Option (LogLine × PrinterPart)
  | .nothing => none
  | .line l part => some (l, part)

/-- Why the part of the printer refuses a line. -/
def Delivery.refusal? : Delivery → Option TrailError
  | .nothing => none
  | .line _ part => part.refusal?

/-- The lines that are printed of what is handed to the printer. -/
def Delivery.printed (p : Printer TrailError) : Delivery → List LogLine
  | .line l .method => if (p .method l).isSome then [] else [l]
  | _ => []

/-- Why the printer does not print what is handed to it. -/
def reason? (p : Printer TrailError) (handed : Option (LogLine × PrinterPart)) :
    Option TrailError :=
  handed.bind fun l => p l.2 l.1

/-- What a method of the logger makes of an event under a threshold and the name of a run. -/
def submitted (threshold : Int) (current : Option CorrelationId) (clock : Clock) (m : LogMethod)
    (type : Value) (payload : Fields) : Except TrailError Delivery :=
  ({ threshold := threshold, current := current } : Trail).submit clock m type payload

/-- A trail with lines appended. -/
def withLines (t : Trail) (more : List LogLine) : Trail := { t with lines := t.lines ++ more }

theorem withLines_nil (t : Trail) : t.withLines [] = t := by
  rw [withLines, List.append_nil]

section Printing

variable (t : Trail) (p : Printer TrailError) (clock : Clock)

/-- A method of the logger asks the trail for the threshold and for the name of the run only. -/
theorem submit_eq (m : LogMethod) (type : Value) (payload : Fields) :
    t.submit clock m type payload = submitted t.threshold t.current clock m type payload :=
  rfl

/-- Printing changes nothing but the lines, and fails for the reasons of the printer first. -/
theorem deliver_eq (d : Delivery) :
    t.deliver p d = (t.withLines (d.printed p), (reason? p d.handed?).or d.refusal?) := by
  cases d with
  | nothing => exact congrArg (·, none) t.withLines_nil.symm
  | line l part =>
    cases part with
    | method =>
      simp only [deliver, print, Delivery.printed, Delivery.handed?, reason?, Option.bind_some,
        Delivery.refusal?, PrinterPart.refusal?]
      cases p .method l with
      | none => rfl
      | some error => exact congrArg (·, some error) t.withLines_nil.symm
    | _ => exact congrArg (·, _) t.withLines_nil.symm

/-- What a call hands to the printer, if a method of the logger takes its event. -/
def handed? (r : Except TrailError Delivery) : Option (LogLine × PrinterPart) :=
  r.toOption.bind Delivery.handed?

/-- Why logging an event fails, apart from what the printer cannot print. -/
def refusal? : Except TrailError Delivery → Option TrailError
  | .ok d => d.refusal?
  | .error error => some error

/-- Logging an event is keeping it and then printing it. -/
theorem logBy_eq (m : Except TrailError LogMethod) (type : Value) (data : Fields) :
    let e : Event := ⟨type, clock.now, t.current, data⟩
    let r := m.bind fun m => submitted t.threshold t.current clock m type e.payload
    t.logBy p clock m type data =
      ((t.record e).withLines (r.toOption.elim [] fun d => d.printed p),
        (reason? p (handed? r)).or (refusal? r)) := by
  intro e r
  have hsubmit : (m.bind fun m => (t.record e).submit clock m type e.payload) = r :=
    congrArg m.bind (funext fun m => (t.record e).submit_eq clock m type e.payload)
  unfold logBy
  simp only [e] at hsubmit
  simp only [hsubmit]
  cases r with
  | error error => exact congrArg (·, some error) (t.record e).withLines_nil.symm
  | ok d => exact (t.record e).deliver_eq p d

end Printing

section Thresholds

variable (n n' : Int) (current : Option CorrelationId) (clock : Clock)

/-- A payload without the name of a method is refused under no threshold. -/
theorem refusal?_payloadLine (level : LogLevel) (name : Value) {payload : Fields}
    (h : payload.has "method_name" = false) :
    refusal? (({ threshold := n, current := current } : Trail).payloadLine clock level name
      payload) = none := by
  unfold payloadLine
  cases ({ threshold := n, current := current } : Trail).lineAt clock level name payload with
  | none => rfl
  | some l =>
    rw [h]
    rfl

/-- What becomes of an event whose type is taken for its severity does not depend on the threshold,
if the type is none or the payload has no event. -/
theorem submitted_leveled (prints : Bool) (type : Value) {payload : Fields}
    (hevent : prints = true → payload.has "event" = false ∨ type.toAmount? = none) :
    submitted n current clock (.leveled prints) type payload =
      submitted n' current clock (.leveled prints) type payload := by
  unfold submitted submit
  cases hget : payload.get? "event" with
  | none => rfl
  | some name =>
    dsimp only
    split_ifs with hkeys hprints
    · rfl
    · rcases hevent hprints with hnone | hnone
      · rw [Fields.has, hget] at hnone
        cases hnone
      · unfold leveledLine
        rw [hnone]
    · rfl

/-- Whether an event is refused does not depend on the threshold, if the payload has no name of a
method, and no event beside a type that is a severity. -/
theorem refusal?_submitted (m : LogMethod) (type : Value) {payload : Fields}
    (hname : payload.has "method_name" = false)
    (hevent : m = .leveled true → payload.has "event" = false ∨ type.toAmount? = none) :
    refusal? (submitted n current clock m type payload) =
      refusal? (submitted n' current clock m type payload) := by
  cases m with
  | line level =>
    unfold submitted submit
    dsimp only
    split_ifs
    · rfl
    · rw [refusal?_payloadLine _ _ _ _ _ hname, refusal?_payloadLine _ _ _ _ _ hname]
  | failure =>
    have hput : Fields.has (payload.put "exc_info" (.bool true)) "method_name" = false := by
      rw [Fields.has_put, hname, Bool.or_false]
      decide
    unfold submitted submit
    dsimp only
    split_ifs
    · rfl
    · rw [refusal?_payloadLine _ _ _ _ _ hname, refusal?_payloadLine _ _ _ _ _ hname]
    · rw [refusal?_payloadLine _ _ _ _ _ hput, refusal?_payloadLine _ _ _ _ _ hput]
  | leveled prints =>
    exact congrArg refusal? (submitted_leveled n n' current clock prints type
      fun h => hevent (congrArg _ h))
  | silent => rfl
  | noEvent => rfl
  | forwarding => rfl

variable {n n'}

/-- A line with a payload that a higher threshold lets through is the same under a lower one. -/
theorem handed?_payloadLine (h : n ≤ n') (level : LogLevel) (name : Value) (payload : Fields) :
    let handed (n : Int) := handed? (({ threshold := n, current := current } : Trail).payloadLine
      clock level name payload)
    handed n' = none ∨ handed n' = handed n := by
  simp only [payloadLine, lineAt]
  by_cases hreached : n' ≤ level.severity
  · rw [if_pos hreached, if_pos (Int.le_trans h hreached)]
    exact Or.inr rfl
  · rw [if_neg hreached]
    exact Or.inl rfl

/-- A line that a higher threshold lets through is the same under a lower one, if there is no event
beside a type that is a severity. -/
theorem handed?_submitted (h : n ≤ n') (m : LogMethod) (type : Value) {payload : Fields}
    (hevent : m = .leveled true → payload.has "event" = false ∨ type.toAmount? = none) :
    handed? (submitted n' current clock m type payload) = none ∨
      handed? (submitted n' current clock m type payload) =
        handed? (submitted n current clock m type payload) := by
  cases m with
  | line level =>
    unfold submitted submit
    dsimp only
    split_ifs
    · exact Or.inl rfl
    · exact handed?_payloadLine current clock h level type payload
  | failure =>
    unfold submitted submit
    dsimp only
    split_ifs
    · exact Or.inl rfl
    · exact handed?_payloadLine current clock h .error type payload
    · exact handed?_payloadLine current clock h .error type _
  | leveled prints =>
    exact Or.inr (congrArg handed? (submitted_leveled n' n current clock prints type
      fun h => hevent (congrArg _ h)))
  | silent => exact Or.inr rfl
  | noEvent => exact Or.inr rfl
  | forwarding => exact Or.inr rfl

end Thresholds

/-! ## Calls -/

/-- What a trail is called for, with values as they come from outside. -/
inductive Call where
  | setCorrelation (id : Value)
  | issueCorrelation
  | correlation
  | log (type data level : Value)
  | logStart (operation operand : Value)
  | logPassed (stage rank : Value)
  | logRejected (stage rank failure message : Value)
  | logEnd (operation outcome duration : Value)
  | measure (name kind value tags : Value)
  | time (name duration tags : Value)
  | count (name value tags : Value)
  | clear
  | events (type : Value)
  | metrics
  | total (name filter : Value)
  | context

/-- What a call is answered. -/
inductive Answer where
  | done
  | correlation (id : Option CorrelationId)
  | events (events : List Event)
  | metrics (metrics : List (Key × List Metric))
  | total (sum : Amount)
  | context (id : Option CorrelationId) (serviceName : Value) (now : Moment)

/-- The answer to a call that fails if there is a reason. -/
def Answer.doneOr : Option TrailError → Except TrailError Answer
  | none => .ok .done
  | some error => .error error

/-- The answer to a call that logs an event : the event is kept even when logging fails. -/
def noted (r : Trail × Option TrailError) : Trail × Except TrailError Answer :=
  (r.1, Answer.doneOr r.2)

/-- The answer to a call that changes the trail, or else leaves it alone. -/
def changed (t : Trail) : Except TrailError Trail → Trail × Except TrailError Answer
  | .ok t => (t, .ok .done)
  | .error error => (t, .error error)

section Performing

variable (p : Printer TrailError)

/-- One call : the trail after it, and what it is answered. -/
def perform (t : Trail) (clock : Clock) : Call → Trail × Except TrailError Answer
  | .setCorrelation id => (t.setCorrelation (.given id), .ok .done)
  | .issueCorrelation => (t.issueCorrelation, .ok (.correlation t.issueCorrelation.current))
  | .correlation => (t, .ok (.correlation t.current))
  | .log type data level => noted (t.logGiven p clock type data level)
  | .logStart operation operand => noted (t.logStart p clock operation operand)
  | .logPassed stage rank => noted (t.log p clock (.passed stage rank))
  | .logRejected stage rank failure message =>
    noted (t.log p clock (.rejected stage rank failure message))
  | .logEnd operation outcome duration => noted (t.log p clock (.ended operation outcome duration))
  | .measure name kind value tags => t.changed (t.measureGiven clock name kind value tags)
  | .time name duration tags => t.changed (t.time clock name duration tags)
  | .count name value tags => t.changed (t.count clock name value tags)
  | .clear => (t.clear, .ok .done)
  | .events type => (t, .ok (.events (t.eventsOf type)))
  | .metrics => (t, .ok (.metrics t.metrics))
  | .total name filter => (t, (t.totalGiven name filter).map .total)
  | .context => (t, .ok (.context t.current t.serviceName clock.now))

/-- The trail after calls, one after the other. -/
def after (t : Trail) : List (Clock × Call) → Trail
  | [] => t
  | (clock, c) :: calls => (t.perform p clock c).1.after calls

/-- What calls are answered, with the trail that each of them leaves. -/
def trace (t : Trail) : List (Clock × Call) → List (Except TrailError Answer × Trail)
  | [] => []
  | (clock, c) :: calls =>
    ((t.perform p clock c).2, (t.perform p clock c).1) :: (t.perform p clock c).1.trace calls

end Performing

/-- The type and the data of the event that a call logs; the level is not among them. -/
def Call.eventData? : Call → Option (Value × Fields)
  | .log type data _ =>
    match data.orEmptyObject with
    | .object fields => some (type, fields)
    | _ => none
  | .logStart operation (.object fields) =>
    some (.text "pipeline_start", (Notice.started operation fields).data)
  | .logPassed stage rank => some (.text "stage_passed", (Notice.passed stage rank).data)
  | .logRejected stage rank failure message =>
    some (.text "stage_rejected", (Notice.rejected stage rank failure message).data)
  | .logEnd operation outcome duration =>
    some (.text "pipeline_end", (Notice.ended operation outcome duration).data)
  | _ => none

/-- The method of the logger that the event of a call is handed to. -/
def Call.method : Call → Except TrailError LogMethod
  | .log _ _ level => methodOf level
  | .logPassed stage rank => .ok (.line (Notice.passed stage rank).level)
  | .logRejected stage rank failure message =>
    .ok (.line (Notice.rejected stage rank failure message).level)
  | _ => .ok (.line .info)

/-- What a method of the logger makes of the event of a call. -/
def Call.submitted (clock : Clock) (threshold : Int) (current : Option CorrelationId) (c : Call) :
    Except TrailError Delivery :=
  match c.eventData? with
  | none => .ok .nothing
  | some (type, data) =>
    c.method.bind fun m => Trail.submitted threshold current clock m type
      (Event.payload ⟨type, clock.now, current, data⟩)

/-- The lines that calls hand to the printer, as far as they hand any. -/
def handed (p : Printer TrailError) (t : Trail) :
    List (Clock × Call) → List (Option (LogLine × PrinterPart))
  | [] => []
  | (clock, c) :: calls =>
    handed? (c.submitted clock t.threshold t.current) :: handed p (t.perform p clock c).1 calls

/-- What a call is answered if the printer cannot print the line that it hands over. -/
def overlay (p : Printer TrailError) (answer : Except TrailError Answer)
    (handed : Option (LogLine × PrinterPart)) : Except TrailError Answer :=
  match reason? p handed with
  | none => answer
  | some error => .error error

/-- A call hands over no name that a method of the logger keeps for itself : no name of a method,
and no event beside a type that is a severity to the method that takes one. -/
def Call.IsOrdinary (c : Call) : Prop :=
  ∀ type data, c.eventData? = some (type, data) → data.has "method_name" = false ∧
    (c.method = .ok (.leveled true) → data.has "event" = false ∨ type.toAmount? = none)

section Logging

variable (t : Trail) (p : Printer TrailError) (clock : Clock)

/-- A call that logs an event keeps it and prints it. -/
theorem perform_of_entry {c : Call} {type : Value} {data : Fields}
    (h : c.eventData? = some (type, data)) :
    t.perform p clock c = noted (t.logBy p clock c.method type data) := by
  cases c with
  | log type' data' level =>
    simp only [Call.eventData?] at h
    split at h
    · rename_i hdata
      cases h
      change noted (t.logGiven p clock type data' level) = _
      rw [logGiven, hdata]
      rfl
    · cases h
  | logStart operation operand =>
    cases operand with
    | object fields =>
      cases h
      rfl
    | _ => cases h
  | logPassed stage rank =>
    cases h
    rfl
  | logRejected stage rank failure message =>
    cases h
    rfl
  | logEnd operation outcome duration =>
    cases h
    rfl
  | _ => cases h

/-- A call that logs an event fails for the reasons of the printer first. -/
theorem answer_of_entry {c : Call} {type : Value} {data : Fields}
    (h : c.eventData? = some (type, data)) :
    let r := c.submitted clock t.threshold t.current
    (t.perform p clock c).2 = overlay p (Answer.doneOr (refusal? r)) (handed? r) := by
  intro r
  have hr : r = c.method.bind fun m => Trail.submitted t.threshold t.current clock m type
      (Event.payload ⟨type, clock.now, t.current, data⟩) := by
    simp only [r, Call.submitted, h]
  rw [t.perform_of_entry p clock h, logBy_eq, ← hr, noted, overlay]
  cases reason? p (handed? r) with
  | none => rfl
  | some error => rfl

theorem overlay_sure (answer : Except TrailError Answer)
    (handed : Option (LogLine × PrinterPart)) : overlay Printer.sure answer handed = answer := by
  cases handed <;> rfl

/-- What is not an object is no data, and nothing is logged. -/
theorem perform_log_of_no_entry {type data level : Value}
    (h : (Call.log type data level).eventData? = none) :
    t.perform p clock (.log type data level) = (t, .error .dataNotObject) := by
  have hlog : t.logGiven p clock type data level = (t, some .dataNotObject) := by
    simp only [Call.eventData?] at h
    unfold logGiven
    cases hdata : data.orEmptyObject with
    | object fields =>
      rw [hdata] at h
      cases h
    | _ => rfl
  exact congrArg noted hlog

@[inherit_doc perform_log_of_no_entry]
theorem perform_logStart_of_no_entry {operation operand : Value}
    (h : (Call.logStart operation operand).eventData? = none) :
    t.perform p clock (.logStart operation operand) = (t, .error .dataNotObject) := by
  cases operand with
  | object fields => cases h
  | _ => rfl

end Logging

/-- A trail with another threshold and other lines. -/
def releveled (t : Trail) (n : Int) (lines : List LogLine) : Trail :=
  { t with threshold := n, lines := lines }

/-- What a call does to every trail alike, whatever the printer is. -/
inductive Call.Does (clock : Clock) : Call → Prop
  | setCorrelation (id : Value) : Does clock (.setCorrelation id)
  | issueCorrelation : Does clock .issueCorrelation
  | clear : Does clock .clear
  | logs {c : Call} {type : Value} {data : Fields} : c.eventData? = some (type, data) →
      (∀ (p : Printer TrailError) (t : Trail),
        t.perform p clock c = noted (t.logBy p clock c.method type data)) → Does clock c
  | measures {c : Call} (name : Key) (kind value tags : Value) : c.eventData? = none → c ≠ .clear →
      (∀ (p : Printer TrailError) (t : Trail),
        t.perform p clock c = (t.measure clock name kind value tags, .ok .done)) → Does clock c
  | fails {c : Call} (error : TrailError) : c.eventData? = none → c ≠ .clear →
      (∀ (p : Printer TrailError) (t : Trail), t.perform p clock c = (t, .error error)) →
      Does clock c
  | tells {c : Call} (answer : Trail → Except TrailError Answer) : c.eventData? = none →
      c ≠ .clear →
      (∀ (t : Trail) (n : Int) (lines : List LogLine),
        answer (t.releveled n lines) = answer t) →
      (∀ (p : Printer TrailError) (t : Trail), t.perform p clock c = (t, answer t)) → Does clock c

/-- Each call logs an event, keeps a value, fails or tells something, or else it names the runs or
forgets everything. -/
theorem Call.does (clock : Clock) (c : Call) : c.Does clock := by
  have hmeasure {c : Call} {name kind value tags : Value} (hentry : c.eventData? = none)
      (hclear : c ≠ .clear)
      (h : ∀ (p : Printer TrailError) (t : Trail),
        t.perform p clock c = t.changed (t.measureGiven clock name kind value tags)) :
      c.Does clock := by
    unfold measureGiven at h
    cases hname : name.toKey? with
    | none =>
      simp only [hname] at h
      exact .fails _ hentry hclear h
    | some key =>
      simp only [hname] at h
      exact .measures key _ _ _ hentry hclear h
  cases hentry : c.eventData? with
  | some entry => exact .logs hentry fun p t => t.perform_of_entry p clock hentry
  | none =>
    cases c with
    | setCorrelation id => exact .setCorrelation id
    | issueCorrelation => exact .issueCorrelation
    | clear => exact .clear
    | log type data level =>
      exact .fails _ hentry nofun fun p t => t.perform_log_of_no_entry p clock hentry
    | logStart operation operand =>
      exact .fails _ hentry nofun fun p t => t.perform_logStart_of_no_entry p clock hentry
    | measure name kind value tags => exact hmeasure hentry nofun fun p t => rfl
    | time name duration tags => exact hmeasure hentry nofun fun p t => rfl
    | count name value tags =>
      cases hvalue : countValue value with
      | error error =>
        refine .fails error hentry nofun fun p t => ?_
        change t.changed (t.count clock name value tags) = _
        rw [Trail.count, hvalue]
        rfl
      | ok x =>
        have hcount (t : Trail) : t.count clock name value tags =
            t.measureGiven clock name (.text "counter") (.float x) tags := by
          rw [Trail.count, hvalue]
          rfl
        exact hmeasure hentry nofun fun p t => congrArg t.changed (hcount t)
    | correlation => exact .tells _ hentry nofun (fun _ _ _ => rfl) fun p t => rfl
    | events type => exact .tells _ hentry nofun (fun _ _ _ => rfl) fun p t => rfl
    | metrics => exact .tells _ hentry nofun (fun _ _ _ => rfl) fun p t => rfl
    | total name filter => exact .tells _ hentry nofun (fun _ _ _ => rfl) fun p t => rfl
    | context => exact .tells _ hentry nofun (fun _ _ _ => rfl) fun p t => rfl
    | logPassed | logRejected | logEnd => cases hentry

/-! ## Thresholds -/

section Releveled

variable (t : Trail) (n : Int) (lines : List LogLine) (p q : Printer TrailError) (clock : Clock)

/-- Whatever the threshold and the printer are, a call leaves the same but for the lines. -/
theorem perform_releveled (c : Call) : ∃ lines',
    ((t.releveled n lines).perform q clock c).1 = (t.perform p clock c).1.releveled n lines' := by
  cases c.does clock with
  | logs hentry h =>
    rw [h, h, logBy_eq, logBy_eq]
    exact ⟨_, rfl⟩
  | measures name kind value tags hentry hclear h =>
    rw [h, h]
    exact ⟨lines, rfl⟩
  | fails error hentry hclear h =>
    rw [h, h]
    exact ⟨lines, rfl⟩
  | tells answer hentry hclear hanswer h =>
    rw [h, h]
    exact ⟨lines, rfl⟩
  | _ => exact ⟨lines, rfl⟩

end Releveled

section Ordinary

variable {c : Call} (clock : Clock) (current : Option CorrelationId)

/-- What an ordinary call hands over has no name of a method in it, and no event beside a type that
is a severity. -/
theorem Call.IsOrdinary.payload (hc : c.IsOrdinary) {type : Value} {data : Fields}
    (hentry : c.eventData? = some (type, data)) :
    let payload := Event.payload ⟨type, clock.now, current, data⟩
    payload.has "method_name" = false ∧
      ∀ m, c.method = .ok m → m = .leveled true →
        payload.has "event" = false ∨ type.toAmount? = none := by
  intro payload
  let e : Event := ⟨type, clock.now, current, data⟩
  obtain ⟨hname, hevent⟩ := hc _ _ hentry
  refine ⟨e.payload_lacks (by decide) (by decide) hname, fun m hmethod hm => ?_⟩
  exact (hevent (hm ▸ hmethod)).imp_left (e.payload_lacks (by decide) (by decide))

/-- Whether an ordinary call is refused does not depend on the threshold. -/
theorem Call.IsOrdinary.refusal?_eq (hc : c.IsOrdinary) (n n' : Int) :
    refusal? (c.submitted clock n current) = refusal? (c.submitted clock n' current) := by
  unfold Call.submitted
  cases hentry : c.eventData? with
  | none => rfl
  | some entry =>
    obtain ⟨hname, hevent⟩ := hc.payload clock current hentry
    cases hmethod : c.method with
    | error error => rfl
    | ok m => exact refusal?_submitted n n' current clock m _ hname (hevent m hmethod)

/-- What an ordinary call hands over under a higher threshold is the same under a lower one. -/
theorem Call.IsOrdinary.handed?_eq (hc : c.IsOrdinary) {n n' : Int} (h : n ≤ n') :
    handed? (c.submitted clock n' current) = none ∨
      handed? (c.submitted clock n' current) = handed? (c.submitted clock n current) := by
  unfold Call.submitted
  cases hentry : c.eventData? with
  | none => exact Or.inl rfl
  | some entry =>
    obtain ⟨-, hevent⟩ := hc.payload clock current hentry
    cases hmethod : c.method with
    | error error => exact Or.inl rfl
    | ok m => exact handed?_submitted current clock h m _ (hevent m hmethod)

end Ordinary

/-- An ordinary call is answered as if every line were printed, unless the line that it hands over
under the threshold cannot be. -/
theorem answer_releveled (t : Trail) (n : Int) (lines : List LogLine) (p : Printer TrailError)
    (clock : Clock) {c : Call} (hc : c.IsOrdinary) :
    ((t.releveled n lines).perform p clock c).2 =
      overlay p (t.perform Printer.sure clock c).2
        (handed? (c.submitted clock n t.current)) := by
  have hnothing (h : c.eventData? = none) (answer : Except TrailError Answer) :
      overlay p answer (handed? (c.submitted clock n t.current)) = answer := by
    rw [Call.submitted, h]
    rfl
  cases c.does clock with
  | logs hentry h =>
    rw [answer_of_entry _ _ _ hentry, answer_of_entry _ _ _ hentry, overlay_sure,
      hc.refusal?_eq clock t.current t.threshold n]
    rfl
  | measures name kind value tags hentry hclear h => rw [hnothing hentry, h, h]
  | fails error hentry hclear h => rw [hnothing hentry, h, h]
  | tells answer hentry hclear hanswer h => rw [hnothing hentry, h, h, hanswer]
  | _ => exact (hnothing rfl _).symm

section Traces

variable (t : Trail) (p : Printer TrailError)

/-- Whatever the threshold and the printer are, calls leave the same events and metrics. -/
theorem trace_releveled (q : Printer TrailError) (n : Int) (lines : List LogLine)
    (calls : List (Clock × Call)) :
    ((t.releveled n lines).trace q calls).map (fun s => (s.2.events, s.2.metrics)) =
      (t.trace p calls).map fun s => (s.2.events, s.2.metrics) := by
  induction calls generalizing t lines with
  | nil => rfl
  | cons call calls ih =>
    obtain ⟨clock, c⟩ := call
    obtain ⟨lines', hstep⟩ := t.perform_releveled n lines p q clock c
    have hrest := ih (t.perform p clock c).1 lines'
    simp only [trace, List.map_cons, hstep, hrest]
    rfl

/-- Ordinary calls are answered as if every line were printed, except for those that hand over a
line under the threshold that cannot be. -/
theorem answers_releveled (n : Int) (lines : List LogLine) {calls : List (Clock × Call)}
    (hcalls : ∀ c ∈ calls, c.2.IsOrdinary) :
    ((t.releveled n lines).trace p calls).map Prod.fst =
      List.zipWith (overlay p) ((t.trace Printer.sure calls).map Prod.fst)
        ((t.releveled n lines).handed p calls) := by
  induction calls generalizing t lines with
  | nil => rfl
  | cons call calls ih =>
    obtain ⟨clock, c⟩ := call
    obtain ⟨lines', hstep⟩ := t.perform_releveled n lines Printer.sure p clock c
    have hrest := ih (t.perform Printer.sure clock c).1 lines' fun c hc =>
      hcalls c (List.mem_cons_of_mem _ hc)
    simp only [trace, handed, List.map_cons, List.zipWith_cons_cons, hstep, hrest]
    rw [t.answer_releveled n lines p clock (hcalls _ List.mem_cons_self)]
    rfl

/-- Under a higher threshold calls hand over some of the lines that they hand over under a lower
one. -/
theorem handed_releveled {n n' : Int} (h : n ≤ n') (lines lines' : List LogLine)
    {calls : List (Clock × Call)} (hcalls : ∀ c ∈ calls, c.2.IsOrdinary) :
    List.Forall₂ (fun higher lower => higher = none ∨ higher = lower)
      ((t.releveled n' lines').handed p calls) ((t.releveled n lines).handed p calls) := by
  induction calls generalizing t lines lines' with
  | nil => exact .nil
  | cons call calls ih =>
    obtain ⟨clock, c⟩ := call
    obtain ⟨_, hlower⟩ := t.perform_releveled n lines p p clock c
    obtain ⟨_, hhigher⟩ := t.perform_releveled n' lines' p p clock c
    rw [handed, handed, hlower, hhigher]
    exact .cons ((hcalls _ List.mem_cons_self).handed?_eq clock t.current h)
      (ih _ _ _ fun c hc => hcalls c (List.mem_cons_of_mem _ hc))

end Traces

/-! ## Capacities -/

/-- A trail with another capacity, and with other events and metrics. -/
def rekept (t : Trail) (capacity : Option Nat) (events : List Event)
    (metrics : List (Key × List Metric)) : Trail :=
  { t with capacity := capacity, events := events, metrics := metrics }

section Rekept

variable (t : Trail) (p : Printer TrailError) (capacity : Option Nat) (events : List Event)
  (metrics : List (Key × List Metric))

/-- Whatever is kept, a call leaves the same names and lines. -/
theorem perform_rekept (clock : Clock) (c : Call) :
    ∃ events' metrics', ((t.rekept capacity events metrics).perform p clock c).1 =
      (t.perform p clock c).1.rekept capacity events' metrics' := by
  cases c.does clock with
  | logs hentry h =>
    rw [h, h, logBy_eq, logBy_eq]
    exact ⟨_, metrics, rfl⟩
  | measures name kind value tags hentry hclear h =>
    rw [h, h]
    exact ⟨events, _, rfl⟩
  | fails error hentry hclear h =>
    rw [h, h]
    exact ⟨events, metrics, rfl⟩
  | tells answer hentry hclear hanswer h =>
    rw [h, h]
    exact ⟨events, metrics, rfl⟩
  | clear => exact ⟨[], [], rfl⟩
  | _ => exact ⟨events, metrics, rfl⟩

/-- Whatever is kept, calls print the same lines. -/
theorem trace_rekept (calls : List (Clock × Call)) :
    ((t.rekept capacity events metrics).trace p calls).map (fun s => s.2.lines) =
      (t.trace p calls).map fun s => s.2.lines := by
  induction calls generalizing t events metrics with
  | nil => rfl
  | cons call calls ih =>
    obtain ⟨clock, c⟩ := call
    obtain ⟨events', metrics', hstep⟩ := t.perform_rekept p capacity events metrics clock c
    simp only [trace, List.map_cons, hstep, ih (t.perform p clock c).1 events' metrics']
    rfl

end Rekept

/-! ## Windows -/

/-- What was kept since the last time that everything was forgotten, which is marked by `none`. -/
def sinceClear {α : Type} (xs : List (Option α)) : List α :=
  (xs.rtakeWhile Option.isSome).reduceOption

theorem sinceClear_append_none {α : Type} (xs : List (Option α)) :
    sinceClear (xs ++ [none]) = [] := by
  rw [sinceClear, List.rtakeWhile_concat]
  rfl

theorem sinceClear_append_some {α : Type} (xs : List (Option α)) (x : α) :
    sinceClear (xs ++ [some x]) = sinceClear xs ++ [x] := by
  have hsome : (some x).isSome = true := rfl
  rw [sinceClear, List.rtakeWhile_concat, if_pos hsome, List.reduceOption_append, sinceClear]
  rfl

/-- The event that a call logs under the name of the run, or a mark that it forgets everything. -/
def Call.marks (clock : Clock) (current : Option CorrelationId) (c : Call) : List (Option Event) :=
  match c with
  | .clear => [none]
  | c => (c.eventData?.map fun entry => some ⟨entry.1, clock.now, current, entry.2⟩).toList

/-- The events that calls log, in order, and `none` wherever everything is forgotten. -/
def logged (p : Printer TrailError) (t : Trail) : List (Clock × Call) → List (Option Event)
  | [] => []
  | (clock, c) :: calls => c.marks clock t.current ++ logged p (t.perform p clock c).1 calls

/-- What calls log does not depend on the threshold and on the printer. -/
theorem logged_releveled (t : Trail) (p q : Printer TrailError) (n : Int) (lines : List LogLine)
    (calls : List (Clock × Call)) : (t.releveled n lines).logged q calls = t.logged p calls := by
  induction calls generalizing t lines with
  | nil => rfl
  | cons call calls ih =>
    obtain ⟨clock, c⟩ := call
    obtain ⟨lines', hstep⟩ := t.perform_releveled n lines p q clock c
    rw [logged, logged, hstep, ih]
    rfl

theorem Call.marks_of_no_entry {c : Call} (hentry : c.eventData? = none) (hclear : c ≠ .clear)
    (clock : Clock) (current : Option CorrelationId) : c.marks clock current = [] := by
  unfold marks
  split
  · contradiction
  · rw [hentry]
    rfl

theorem Call.marks_of_entry {c : Call} {type : Value} {data : Fields}
    (hentry : c.eventData? = some (type, data)) (clock : Clock) (current : Option CorrelationId) :
    c.marks clock current = [some ⟨type, clock.now, current, data⟩] := by
  unfold marks
  split
  · cases hentry
  · rw [hentry]
    rfl

/-- A call adds the event that it logs to those that are kept, or forgets them all. -/
theorem events_perform {t : Trail} (p : Printer TrailError) (clock : Clock) (c : Call)
    {before : List (Option Event)}
    (ht : t.events = window t.capacity (sinceClear before)) :
    (t.perform p clock c).1.capacity = t.capacity ∧ (t.perform p clock c).1.events =
      window t.capacity (sinceClear (before ++ c.marks clock t.current)) := by
  cases c.does clock with
  | logs hentry h =>
    rw [h, logBy_eq, Call.marks_of_entry hentry, sinceClear_append_some, ← push_window, ← ht]
    exact ⟨rfl, rfl⟩
  | measures name kind value tags hentry hclear h =>
    rw [h, Call.marks_of_no_entry hentry hclear, List.append_nil]
    exact ⟨rfl, ht⟩
  | fails error hentry hclear h =>
    rw [h, Call.marks_of_no_entry hentry hclear, List.append_nil]
    exact ⟨rfl, ht⟩
  | tells answer hentry hclear hanswer h =>
    rw [h, Call.marks_of_no_entry hentry hclear, List.append_nil]
    exact ⟨rfl, ht⟩
  | clear =>
    rw [Call.marks, sinceClear_append_none, window_nil]
    exact ⟨rfl, rfl⟩
  | setCorrelation id =>
    have hmarks : (Call.setCorrelation id).marks clock t.current = [] := rfl
    rw [hmarks, List.append_nil]
    exact ⟨rfl, ht⟩
  | issueCorrelation =>
    have hmarks : Call.issueCorrelation.marks clock t.current = [] := rfl
    rw [hmarks, List.append_nil]
    exact ⟨rfl, ht⟩

/-- What is kept is the window of the events logged since everything was forgotten. -/
theorem events_after {t : Trail} (p : Printer TrailError) (calls : List (Clock × Call))
    {before : List (Option Event)}
    (ht : t.events = window t.capacity (sinceClear before)) :
    (t.after p calls).events = window t.capacity (sinceClear (before ++ t.logged p calls)) := by
  induction calls generalizing t before with
  | nil => rw [after, logged, List.append_nil, ht]
  | cons call calls ih =>
    obtain ⟨clock, c⟩ := call
    obtain ⟨hcapacity, hevents⟩ := events_perform p clock c ht
    rw [← hcapacity] at hevents
    rw [after, logged, ih hevents, hcapacity, List.append_assoc]

/-- Two trails that differ in the threshold keep the same events and metrics, even with different
printers. They answer ordinary calls alike, as if every line were printed, unless a line that
reaches the threshold cannot be printed : a trail with a higher threshold hands over some of the
lines that one with a lower threshold does. Two trails that differ in the capacity print the same
lines. All this is so after every call. Every event that is logged is kept, whether logging it fails
or not, so that a trail without events holds the last events logged since it was cleared. -/
theorem answers_and_lines_apart (p : Printer TrailError) (t : Trail)
    (calls : List (Clock × Call)) :
    (∀ (n : Int) (q : Printer TrailError),
      (({ t with threshold := n } : Trail).trace q calls).map
          (fun s => (s.2.events, s.2.metrics)) =
        (t.trace p calls).map fun s => (s.2.events, s.2.metrics)) ∧
    ((∀ c ∈ calls, c.2.IsOrdinary) →
      (∀ n : Int, (({ t with threshold := n } : Trail).trace p calls).map Prod.fst =
        List.zipWith (overlay p) ((t.trace Printer.sure calls).map Prod.fst)
          (({ t with threshold := n } : Trail).handed p calls)) ∧
      ∀ n n' : Int, n ≤ n' →
        List.Forall₂ (fun higher lower => higher = none ∨ higher = lower)
          (({ t with threshold := n' } : Trail).handed p calls)
          (({ t with threshold := n } : Trail).handed p calls)) ∧
    (∀ capacity : Option Nat,
      (({ t with capacity := capacity } : Trail).trace p calls).map (fun s => s.2.lines) =
        (t.trace p calls).map fun s => s.2.lines) ∧
    (∀ (u : Trail) (clock : Clock) (type data level : Value) (fields : Fields),
      data.orEmptyObject = .object fields →
      (u.perform p clock (.log type data level)).1.events =
        push u.capacity u.events ⟨type, clock.now, u.current, fields⟩) ∧
    (t.events = [] →
      (t.after p calls).events = window t.capacity (sinceClear (t.logged p calls))) := by
  refine ⟨fun n q => t.trace_releveled p q n t.lines calls, fun hcalls => ⟨fun n => ?_,
    fun n n' h => ?_⟩, fun capacity => t.trace_rekept p capacity t.events t.metrics calls, ?_,
    fun ht => ?_⟩
  · exact t.answers_releveled p n t.lines hcalls
  · exact t.handed_releveled p h t.lines t.lines hcalls
  · intro u clock type data level fields hdata
    have hentry : (Call.log type data level).eventData? = some (type, fields) := by
      simp only [Call.eventData?, hdata]
    rw [u.perform_of_entry p clock hentry, logBy_eq]
    rfl
  · exact @events_after t p calls [] (by rw [ht]; exact (window_nil _).symm)

/-- A trail for two events is cleared after a first event; of the three that follow the first one
fails, and the other two are kept. Under the lowest threshold the same calls fail, and besides them
the last one, whose line has an integer of 5001 digits in it. -/
theorem answers_and_lines_apart_of_failed_event :
    let clock : Clock := ⟨⟨⟨2024, 2, 29⟩, 0, 0, 0, 0, none⟩, Double.zero⟩
    let p := LineFormat.json.printer
    let t : Trail := { capacity := some 2 }
    let failed : Call := .log (.text "b") (.object [("event", .int 1)]) (.text "debug")
    let unknown : Call := .log (.text "c") .null (.text "loud")
    let below : Call := .log (.text "d") (.object [("key", .int (Nat.pow 10 5000))]) (.text "debug")
    let calls : List (Clock × Call) :=
      [(clock, .log (.text "a") .null (.text "info")), (clock, .clear), (clock, failed),
        (clock, unknown), (clock, below)]
    (∀ c ∈ calls, c.2.IsOrdinary) ∧ t.events = [] ∧
      (t.trace p calls).map (fun s => s.1.toOption.isSome) = [true, true, false, true, true] ∧
      (({ t with threshold := 0 } : Trail).trace p calls).map (fun s => s.1.toOption.isSome) =
        [true, true, false, true, false] ∧
      (({ t with threshold := 0 } : Trail).trace p calls).map (fun s => s.2.events) =
        (t.trace p calls).map (fun s => s.2.events) ∧
      (t.after p calls).events =
        [⟨.text "c", clock.now, none, []⟩,
          ⟨.text "d", clock.now, none, [("key", .int (Nat.pow 10 5000))]⟩] := by
  intro clock p t failed unknown below calls
  have hcalls : ∀ c ∈ calls, c.2.IsOrdinary := by
    intro c hc type data hentry
    simp only [calls, List.mem_cons, List.not_mem_nil, or_false] at hc
    rcases hc with rfl | rfl | rfl | rfl | rfl <;> cases hentry <;>
      exact ⟨rfl, fun h => by cases h⟩
  obtain ⟨hthresholds, hordinary, -, -, hevents⟩ := answers_and_lines_apart p t calls
  obtain ⟨hanswers, -⟩ := hordinary hcalls
  have hkept := congrArg (List.map Prod.fst) (hthresholds 0 p)
  rw [List.map_map, List.map_map] at hkept
  have hlowest := congrArg (List.map fun answer => answer.toOption.isSome) (hanswers 0)
  rw [List.map_map] at hlowest
  have hlogged := t.logged_releveled p Printer.sure t.threshold t.lines calls
  refine ⟨hcalls, rfl, by decide +kernel, hlowest.trans (by decide +kernel), hkept, ?_⟩
  rw [hevents rfl, ← hlogged]
  rfl

/-- At the console a stack is shown below its line, and one that is a number cannot be shown. An
event with such a stack in its data fails under the threshold of a trail as it starts, and does not
under a higher one. -/
theorem answers_apart_of_numeric_stack :
    let clock : Clock := ⟨⟨⟨2024, 2, 29⟩, 0, 0, 0, 0, none⟩, Double.zero⟩
    let p := LineFormat.console.printer
    let t : Trail := {}
    let c : Call := .log (.text "e") (.object [("stack", .int 5)]) (.text "info")
    c.IsOrdinary ∧ (t.perform p clock c).2 = .error .attachmentNotText ∧
      (({ t with threshold := 50 } : Trail).perform p clock c).2 = .ok .done := by
  intro clock p t c
  refine ⟨fun type data hentry => ?_, ?_, ?_⟩
  · cases hentry
    exact ⟨rfl, fun h => by cases h⟩
  · have hentry : c.eventData? = some (Value.text "e", ([("stack", .int 5)] : Fields)) := rfl
    have hreason : reason? p (handed? (c.submitted clock t.threshold t.current)) =
        some .attachmentNotText := by decide +kernel
    rw [t.answer_of_entry p clock hentry, overlay, hreason]
  · rfl

end Trail

end StockRegister
