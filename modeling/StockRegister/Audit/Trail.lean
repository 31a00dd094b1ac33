import StockRegister.Audit.Printer

/-!
# The audit trail

A `Trail` keeps the events and metrics of the runs and the log lines that were printed. It
keeps at most `capacity` events, and as many values of each metric, the oldest being dropped
first (`Trail.push`). Every event is kept, whatever its level; a line is printed only if the
level reaches the threshold.

Logging an event keeps it (`Trail.record`) and then hands it to a method of the logger
(`Trail.submit`), with its data by name. A name that the method itself uses cannot be handed
over, and a line that the printer cannot print is not printed: then logging fails, after the
event is kept.

What a run logs of itself is a `Notice`. `Trail.note` keeps its event and prints its line.
-/

namespace StockRegister

/-- The events, metrics and printed lines of the runs so far. -/
structure Trail where
  serviceName : Value := .text "stock_inventory"
  threshold : Int := 20
  capacity : Option Nat := some 10000
  events : List Event := []
  metrics : List (Key × List Metric) := []
  lines : List LogLine := []
  current : Option CorrelationId := none
  issued : Nat := 0

namespace Trail

/-! ## Windows -/

/-- The last `n` items of a list. -/
def lastItems {α : Type} (n : Nat) (xs : List α) : List α := xs.drop (xs.length - n)

/-- A list with one item more, cut down to its last items if there is a capacity. -/
def push {α : Type} (capacity : Option Nat) (xs : List α) (x : α) : List α :=
  match capacity with
  | none => xs ++ [x]
  | some n => lastItems n (xs ++ [x])

/-- The capacity that a value stands for: null is none, and an integer of 64 bits is one if it
is not below zero. -/
def readCapacity : Value → Except TrailError (Option Nat)
  | .null => .ok none
  | .bool b => .ok (some (if b then 1 else 0))
  | .int n =>
    if n < -(Int.pow 2 63) || Int.pow 2 63 ≤ n then .error .capacityTooLarge
    else if n < 0 then .error .negativeCapacity
    else .ok (some n.toNat)
  | _ => .error .unusableCapacity

/-- The threshold that a value stands for: a severity or the name of one. -/
def readThreshold : Value → Except TrailError Int
  | .text t =>
    let word := t.chars?.map fun cs => String.ofList (lowerAscii cs)
    match word.bind fun w => thresholdNames.lookup w with
    | some n => .ok n
    | none => .error .unknownLevel
  | v =>
    match v.toKey? with
    | none => .error .unusableLevel
    | some _ =>
      match v.numericInt? with
      | some n => if thresholds.contains n then .ok n else .error .unknownLevel
      | none => .error .unknownLevel

/-! ## Runs -/

/-- Name the runs from here on. -/
def setCorrelation (t : Trail) (id : CorrelationId) : Trail := { t with current := some id }

/-- Name the runs from here on by a name that was not issued before. -/
def issueCorrelation (t : Trail) : Trail :=
  { t with current := some (.issued (t.issued + 1)), issued := t.issued + 1 }

/-! ## Lines -/

/-- The line that is printed at a level, if the level reaches the threshold. -/
def lineAt (t : Trail) (clock : Clock) (level : LogLevel) (name : Value) (payload : Fields) :
    Option LogLine :=
  if t.threshold ≤ level.severity then
    some ⟨name, level.lineName, payload, t.current, clock.now⟩
  else none

/-- Print a line if there is one. If the printer cannot print it the reason is given. -/
def print {ε : Type} (t : Trail) (p : Printer ε) : Option LogLine → Trail × Option ε
  | none => (t, none)
  | some line =>
    match p .method line with
    | none => ({ t with lines := t.lines ++ [line] }, none)
    | some error => (t, some error)

/-- Print a line that every printer can print. -/
def tell (t : Trail) (clock : Clock) (level : LogLevel) (name : Value) (payload : Fields) :
    Trail :=
  (t.print (Printer.sure : Printer Empty) (t.lineAt clock level name payload)).1

/-- What a method of the logger makes of an event. -/
inductive Delivery where
  /-- Nothing is to be put into text. -/
  | nothing
  /-- A line is put into text and handed to a part of the printer. -/
  | line (l : LogLine) (part : PrinterPart)

/-- A line with a payload in which no key is reserved. -/
def payloadLine (t : Trail) (clock : Clock) (level : LogLevel) (name : Value)
    (payload : Fields) : Except TrailError Delivery :=
  match t.lineAt clock level name payload with
  | none => .ok .nothing
  | some l => if payload.has "method_name" then .error .reservedKey else .ok (.line l .method)

/-- A line whose level is given by its severity. -/
def leveledLine (t : Trail) (clock : Clock) (severity name : Value) (payload : Fields) :
    Except TrailError Delivery :=
  match severity.toAmount? with
  | none => .error .unusableLevel
  | some n =>
    if n.below t.threshold then .ok .nothing
    else
      match severity.numericInt?.bind LogLevel.ofSeverity? with
      | some level => t.payloadLine clock level name payload
      | none => .error .unknownLevel

/-- A line that is handed to the part of the printer that the type of its event names, whatever
the threshold is. The line has the name that its payload gives. -/
def forwardedLine (t : Trail) (clock : Clock) (type : Value) (payload : Fields) :
    Except TrailError Delivery :=
  match type.toText? with
  | none => .error .unfitPrinterPart
  | some part =>
    let line : LogLine :=
      ⟨(payload.get? "event").getD .null, PrinterPart.levelName part, payload.without "event",
        t.current, clock.now⟩
    .ok (.line line ((PrinterPart.ofName? part).getD .lookup))

/-- Whether a payload has one of some keys. -/
def reserves (keys : List String) (payload : Fields) : Bool :=
  keys.any fun (k : String) => payload.has k

/-- What a method of the logger makes of an event of a type. -/
def submit (t : Trail) (clock : Clock) (m : LogMethod) (type : Value) (payload : Fields) :
    Except TrailError Delivery :=
  match m with
  | .line level =>
    if reserves ["self", "event"] payload then .error .reservedKey
    else t.payloadLine clock level type payload
  | .failure =>
    if reserves ["self", "event"] payload then .error .reservedKey
    else
      t.payloadLine clock .error type
        (if payload.has "exc_info" then payload else payload.put "exc_info" (.bool true))
  | .silent => if reserves ["self", "event"] payload then .error .reservedKey else .ok .nothing
  | .leveled prints =>
    match payload.get? "event" with
    | none => .error .noEventMethod
    | some name =>
      if reserves ["self", "level"] payload then .error .reservedKey
      else if prints then t.leveledLine clock type name (payload.without "event")
      else .ok .nothing
  | .noEvent => .error .noEventMethod
  | .forwarding =>
    if reserves ["self", "method_name"] payload then .error .reservedKey
    else t.forwardedLine clock type payload

/-- Print what a method of the logger made of an event. A line is put into text before its part
of the printer is looked for. -/
def deliver (t : Trail) (p : Printer TrailError) : Delivery → Trail × Option TrailError
  | .nothing => (t, none)
  | .line l .method => t.print p l
  | .line l part => (t, (p part l).or part.refusal?)

/-! ## Events -/

/-- Keep an event. -/
def record (t : Trail) (e : Event) : Trail := { t with events := push t.capacity t.events e }

/-- Keep an event and hand it to a method of the logger. -/
def logBy (t : Trail) (p : Printer TrailError) (clock : Clock) (m : Except TrailError LogMethod)
    (type : Value) (data : Fields) : Trail × Option TrailError :=
  let e : Event := ⟨type, clock.now, t.current, data⟩
  let t := t.record e
  match m.bind fun m => t.submit clock m type e.payload with
  | .ok delivery => t.deliver p delivery
  | .error error => (t, some error)

/-- The method that a level names. -/
def methodOf : Value → Except TrailError LogMethod
  | .text name => .ok (.ofName name)
  | _ => .error .levelNotText

/-- Log an event as it is given from outside; data that count as absent are an empty object. -/
def logGiven (t : Trail) (p : Printer TrailError) (clock : Clock) (type data level : Value) :
    Trail × Option TrailError :=
  match data.orEmptyObject with
  | .object fields => t.logBy p clock (methodOf level) type fields
  | _ => (t, some .dataNotObject)

/-- The events, or those of one type. -/
def eventsOf (t : Trail) : Value → List Event
  | .null => t.events
  | type => t.events.filter fun e => e.storedType.same type

/-! ## Notices -/

/-- Log a notice as an event is logged from outside. -/
def log (t : Trail) (p : Printer TrailError) (clock : Clock) (n : Notice) :
    Trail × Option TrailError :=
  t.logBy p clock (.ok (.line n.level)) (.text n.type) n.data

/-- Log the start of a run as it is given from outside. -/
def logStart (t : Trail) (p : Printer TrailError) (clock : Clock) (operation operand : Value) :
    Trail × Option TrailError :=
  match operand with
  | .object fields => t.log p clock (.started operation fields)
  | _ => (t, some .dataNotObject)

/-- Keep the event of a notice. -/
def keep (t : Trail) (clock : Clock) (n : Notice) : Trail :=
  t.record (n.event clock t.current)

/-- The line of a notice, if its level reaches the threshold. -/
def noticeLine (t : Trail) (clock : Clock) (n : Notice) : Option LogLine :=
  t.lineAt clock n.level (.text n.type) (n.event clock t.current).payload

/-- Log a notice in which no name is reserved: keep its event, and then print its line. -/
def note {ε : Type} (t : Trail) (p : Printer ε) (clock : Clock) (n : Notice) :
    Trail × Option ε :=
  (t.keep clock n).print p (t.noticeLine clock n)

/-! ## Metrics -/

/-- The values kept for a metric. -/
def metric (t : Trail) (name : Key) : List Metric :=
  ((t.metrics.find? (·.1.finds name)).map Prod.snd).getD []

/-- A metric written into the table: in its old place, or at the end if it is new. -/
def putMetric (name : Key) (entries : List Metric) :
    List (Key × List Metric) → List (Key × List Metric)
  | [] => [(name, entries)]
  | (k, old) :: rest =>
    if k.finds name then (k, entries) :: rest else (k, old) :: putMetric name entries rest

/-- Keep a value of a metric. -/
def measure (t : Trail) (clock : Clock) (name : Key) (kind : Value) (value tags : Value) :
    Trail :=
  let m : Metric := ⟨value, tags, kind, clock.now, t.current⟩
  { t with metrics := putMetric name (push t.capacity (t.metric name) m) t.metrics }

/-- Keep a value of a metric as it is given from outside; tags that count as absent are an
empty object. -/
def measureGiven (t : Trail) (clock : Clock) (name kind value tags : Value) :
    Except TrailError Trail :=
  match name.toKey? with
  | some key => .ok (t.measure clock key kind value tags.orEmptyObject)
  | none => .error .unusableName

/-- The number that a count is kept as. -/
def countValue : Value → Except TrailError Double
  | .text s =>
    match s.chars?.bind typedNumber with
    | some x => .ok x
    | none => .error .unreadableCount
  | v =>
    match v.toAmount? with
    | some n =>
      match n.toDouble? with
      | some x => .ok x
      | none => .error .countTooLarge
    | none => .error .notCountable

/-- Keep a count. -/
def count (t : Trail) (clock : Clock) (name value tags : Value) : Except TrailError Trail := do
  t.measureGiven clock name (.text "counter") (.float (← countValue value)) tags

/-- Keep a duration. -/
def time (t : Trail) (clock : Clock) (name duration tags : Value) : Except TrailError Trail :=
  t.measureGiven clock name (.text "histogram") duration tags

/-- Whether the tags of a value meet a filter; a tag that is not there counts as null. -/
def matchesTags (filter : Fields) : Value → Except TrailError Bool
  | .object tags => .ok (filter.all fun f => ((Fields.get? tags f.1).getD .null).same f.2)
  | _ => if filter.isEmpty then .ok true else .error .tagsNotObject

/-- A sum with one value more. -/
def addValue (sum : Amount) (v : Value) : Except TrailError Amount :=
  match v.toAmount? with
  | none => .error .notAddable
  | some n =>
    match sum.add? n with
    | some sum => .ok sum
    | none => .error .sumTooLarge

/-- A sum with the value of one metric more, if its tags meet a filter. -/
def addMetric (filter : Fields) (sum : Amount) (m : Metric) : Except TrailError Amount := do
  if ← matchesTags filter m.tags then addValue sum m.value else return sum

/-- The sum of the values of a metric whose tags meet a filter, from left to right, starting
from the whole number zero. -/
def total (t : Trail) (name : Key) (filter : Fields) : Except TrailError Amount :=
  (t.metric name).foldlM (addMetric filter) (.whole 0)

/-- The sum of the values of a metric as it is asked for from outside: the name is handed over
with the filter by name. -/
def totalGiven (t : Trail) (name filter : Value) : Except TrailError Amount :=
  match filter.orEmptyObject, name.toKey? with
  | .object fields, some key =>
    if reserves ["self", "name"] fields then .error .reservedKey else t.total key fields
  | .object fields, none =>
    if reserves ["self", "name"] fields then .error .reservedKey else .error .unusableName
  | _, _ => .error .dataNotObject

/-- Forget all events and metrics. -/
def clear (t : Trail) : Trail := { t with events := [], metrics := [] }

end Trail

end StockRegister
