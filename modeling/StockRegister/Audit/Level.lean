import StockRegister.Settings
import StockRegister.Number.Numeral

/-!
# Levels and methods of the log

An event is logged by the method of the logger that its level names, in any case. A
`LogMethod` says what that method does: it prints a line at a level, takes the event and
prints nothing, or takes no event at all. A name that is none of a method counts as the level
of information. One method hands the line on to the part of the printer that the event names
(`PrinterPart`).

The threshold of a log is one of the severities in `thresholds`, or the name of one.
-/

namespace StockRegister

/-- The name of a level in a log line. -/
def LogLevel.lineName : LogLevel → String
  | .debug => "debug"
  | .info => "info"
  | .warning => "warning"
  | .error => "error"
  | .critical => "critical"

/-- All levels. -/
def LogLevel.all : List LogLevel := [.debug, .info, .warning, .error, .critical]

/-- The level of a severity. -/
def LogLevel.ofSeverity? (severity : Int) : Option LogLevel :=
  LogLevel.all.find? (·.severity == severity)

/-- What a method of the logger does with an event. -/
inductive LogMethod where
  /-- It prints a line at a level. -/
  | line (level : LogLevel)
  /-- It prints a line at the level of errors and marks it as a failure. -/
  | failure
  /-- It takes the event and prints nothing. -/
  | silent
  /-- It takes a severity in place of the event, and may print a line at it. -/
  | leveled (prints : Bool)
  /-- It takes no event. -/
  | noEvent
  /-- It passes the event on to a method of the printer, of which the event is the name. -/
  | forwarding
deriving DecidableEq

namespace LogMethod

/-- The levels with all names of their methods. -/
def levelNames : List (String × LogLevel) :=
  [("debug", .debug), ("info", .info), ("msg", .info), ("warning", .warning), ("warn", .warning),
    ("error", .error), ("critical", .critical), ("fatal", .critical)]

/-- The names of methods and attributes that take no event. -/
def otherNames : List String :=
  ["bind", "new", "unbind", "try_unbind", "is_enabled_for", "get_effective_level", "_logger",
    "_context", "_processors", "_wrapper_class", "_context_class", "_initial_values",
    "_cache_logger_on_first_use", "_logger_factory_args", "_process_event", "__annotations__",
    "__class__", "__delattr__", "__dict__", "__dir__", "__doc__", "__eq__", "__format__",
    "__ge__", "__getattr__", "__getattribute__", "__getstate__", "__gt__", "__hash__",
    "__init__", "__init_subclass__", "__le__", "__lt__", "__module__", "__ne__", "__new__",
    "__reduce__", "__reduce_ex__", "__repr__", "__setattr__", "__setstate__", "__sizeof__",
    "__str__", "__subclasshook__", "__weakref__"]

/-- All methods by their names. -/
def named : List (String × LogMethod) :=
  levelNames.map (fun l => (l.1, line l.2)) ++
    levelNames.map (fun l => ("a" ++ l.1, silent)) ++
    [("exception", failure), ("aexception", silent), ("log", leveled true),
      ("alog", leveled false), ("_proxy_to_logger", forwarding)] ++
    otherNames.map fun name => (name, noEvent)

/-- A letter in lower case, if that is an ASCII letter. The sign of the unit kelvin has such a
letter too. -/
def lowerLetter (c : Char) : Char := if c == '\u212a' then 'k' else c.toLower

/-- The method of a name in any case. -/
def ofName (name : Text) : LogMethod :=
  match name.chars?.bind fun cs => named.lookup (String.ofList (cs.map lowerLetter)) with
  | some m => m
  | none => line .info

end LogMethod

/-! ## Parts of the printer -/

/-- What becomes of a line that is handed to a part of the printer. -/
inductive PrinterPart where
  /-- The line is printed. -/
  | method
  /-- The line is taken and not printed. -/
  | sink
  /-- The part takes no line. -/
  | unfit
  /-- The part looks for a part of its own by the line, and finds none. -/
  | lookup
  /-- The part would copy the printer. -/
  | copier
deriving DecidableEq

namespace PrinterPart

/-- The names of the parts that print a line. -/
def methodNames : List String :=
  ["msg", "log", "debug", "info", "warn", "warning", "fatal", "failure", "err", "error",
    "critical", "exception"]

/-- The names of the parts that take a line and do not print it. -/
def sinkNames : List String :=
  ["__eq__", "__ge__", "__gt__", "__le__", "__lt__", "__ne__", "__setstate__",
    "__subclasshook__"]

/-- The names of the parts that take no line. -/
def unfitNames : List String :=
  ["_file", "_lock", "__class__", "__dict__", "__dir__", "__doc__", "__format__",
    "__getstate__", "__hash__", "__init__", "__init_subclass__", "__module__", "__new__",
    "__reduce__", "__reduce_ex__", "__repr__", "__setattr__", "__sizeof__", "__str__",
    "__weakref__"]

/-- All parts by their names. -/
def named : List (String × PrinterPart) :=
  methodNames.map (fun name => (name, method)) ++ sinkNames.map (fun name => (name, sink)) ++
    unfitNames.map (fun name => (name, unfit)) ++
    [("__getattribute__", lookup), ("__delattr__", lookup), ("__deepcopy__", copier)]

/-- The part of a name. -/
def ofName? (name : Text) : Option PrinterPart := name.toString?.bind fun s => named.lookup s

/-- The level of a line that is handed to the part of a name. -/
def levelName (name : Text) : Text :=
  if name = ("warn" : Text) then LogLevel.warning.lineName
  else if name = ("exception" : Text) then LogLevel.error.lineName
  else name

end PrinterPart

/-- The severities that may be the threshold of a log. -/
def thresholds : List Int := [0, 10, 20, 30, 40, 50]

/-- The names of thresholds. -/
def thresholdNames : List (String × Int) :=
  [("notset", 0), ("debug", 10), ("info", 20), ("warn", 30), ("warning", 30), ("error", 40),
    ("exception", 40), ("critical", 50)]

end StockRegister
