import StockRegister.Audit.Level

/-!
# Audit entries

An `Event` is one thing that was logged, a `Metric` one measured value, and a `LogLine` what
is printed of an event. All of them name the run they belong to by a `CorrelationId`, which
was either given from outside or issued by the trail, in which case it is a serial number.
A `Notice` is an event that a run logs of itself, not yet named.
Types, tags and names that are given from outside are kept as they are, whatever they are.
A `Clock` is what the outside world tells about time: the moment at which a request is
served and the time that its assessment takes.
-/

namespace StockRegister

/-- The name of a run. -/
inductive CorrelationId where
  | given (v : Value)
  | issued (serial : Nat)

/-- The moment at which a request is served, and the time that its assessment takes. -/
structure Clock where
  now : Moment
  elapsed : Double

/-- One logged event. -/
structure Event where
  type : Value
  recordedAt : Moment
  correlation : Option CorrelationId
  data : Fields

/-- One measured value. -/
structure Metric where
  value : Value
  tags : Value
  kind : Value
  recordedAt : Moment
  correlation : Option CorrelationId

/-- One printed line: what the event holds, the bound run, the level and the moment. -/
structure LogLine where
  name : Value
  level : Text
  payload : Fields
  correlation : Option CorrelationId
  recordedAt : Moment

/-- How the name of a run is written. -/
abbrev CorrelationNames := CorrelationId → Value

/-- An optional name of a run as a value. -/
def correlationValue (names : CorrelationNames) : Option CorrelationId → Value
  | none => .null
  | some id => names id

namespace Event

/-- The keys of an event as they are stored; its data may replace them. -/
def fields (names : CorrelationNames) (e : Event) : Fields :=
  Fields.putAll
    [("event_type", e.type), ("recorded_at", .text e.recordedAt.isoText),
      ("correlation_id", correlationValue names e.correlation)] e.data

/-- The type under which an event is found: its data may replace it. -/
def storedType (e : Event) : Value := (Fields.get? e.data "event_type").getD e.type

/-- What a log line takes from an event: all but the name of the run. -/
def payload (e : Event) : Fields :=
  (Fields.putAll [("event_type", e.type), ("recorded_at", .text e.recordedAt.isoText)]
    e.data).without "correlation_id"

end Event

/-! ## Notices -/

/-- What a run logs of itself: the type and the data of an event, and its level. -/
structure Notice where
  type : String
  data : Fields
  level : LogLevel

namespace Notice

/-- A run starts. -/
def started (operation : Value) (operand : Fields) : Notice :=
  ⟨"pipeline_start", Fields.putAll [("operation_kind", operation)] operand, .info⟩

/-- A stage lets a run pass. -/
def passed (stage rank : Value) : Notice :=
  ⟨"stage_passed", [("stage_name", stage), ("stage_rank", rank)], .debug⟩

/-- A stage rejects a run; a random rejection is no reason to warn. -/
def rejected (stage rank failure message : Value) : Notice :=
  ⟨"stage_rejected",
    [("stage_name", stage), ("stage_rank", rank), ("failure_kind", failure), ("message", message)],
    if failure.toText? = some ("transient_rejection" : Text) then .info else .warning⟩

/-- A run ends. -/
def ended (operation outcome duration : Value) : Notice :=
  ⟨"pipeline_end",
    [("operation_kind", operation), ("outcome", outcome), ("duration_seconds", duration)], .info⟩

/-- The event of a notice, under the name of a run. -/
def event (n : Notice) (clock : Clock) (correlation : Option CorrelationId) : Event :=
  ⟨.text n.type, clock.now, correlation, n.data⟩

end Notice

/-! ## Written forms -/

/-- A metric as an object. -/
def Metric.fields (names : CorrelationNames) (m : Metric) : Fields :=
  [("timestamp", .text m.recordedAt.isoText), ("value", m.value), ("tags", m.tags),
    ("type", m.kind), ("correlation_id", correlationValue names m.correlation)]

/-- A log line as an object. The level and the moment replace what the event holds under
their names, and a request for a stack trace is not shown. A line without a name has none. -/
def LogLine.fields (names : CorrelationNames) (l : LogLine) : Fields :=
  let bound : Fields := match l.correlation with
    | none => []
    | some id => [("correlation_id", names id)]
  let named : Fields := match l.name with
    | .null => []
    | name => [("event", name)]
  Fields.putAll (Fields.putAll bound (l.payload.without "stack_info"))
    (("level", .text l.level) :: ("timestamp", .text l.recordedAt.isoText) :: named)

end StockRegister
