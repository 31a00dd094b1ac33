import StockRegister.Audit.Entry

/-!
# Printers

A `Printer` puts lines of the log into text and hands them to a part of it, which may write them.
With some lines it cannot do so, and then it gives the reason, of whatever type its reasons are: a
printer without reasons (`Printer Empty`) prints every line.

`LineFormat.printer` is the printer of one of the two formats that lines are printed in, with
reasons among the errors of the trail. In both formats an integer that has too many digits cannot
be written. JSON has no form for some keys inside of a value, while a line for the console can hold
no half of a character, and what it shows below the line must be a text.
-/

namespace StockRegister

/-- Why an entry cannot be made or read. -/
inductive TrailError where
  | reservedKey
  | dataNotObject
  | levelNotText
  | noEventMethod
  | noPrinterPart
  | unfitPrinterPart
  | uncopyablePrinter
  | unusableLevel
  | unknownLevel
  | unusableName
  | notCountable
  | unreadableCount
  | countTooLarge
  | tagsNotObject
  | notAddable
  | sumTooLarge
  | negativeCapacity
  | capacityTooLarge
  | unusableCapacity
  /-- A line has an integer in it that has too many digits to be written. -/
  | unwritableInteger
  /-- A line has a value in it that contains itself. -/
  | endlessValue
  /-- An object inside of a line has a key that JSON has no form for. -/
  | unwritableKey
  /-- What is to be shown below a line is no text. -/
  | attachmentNotText
  /-- A line has half of a character in it. -/
  | unwritableText
deriving DecidableEq

/-- Why a part does not take a line, if it does not. -/
def PrinterPart.refusal? : PrinterPart → Option TrailError
  | method | sink => none
  | unfit => some .unfitPrinterPart
  | lookup => some .noPrinterPart
  | copier => some .uncopyablePrinter

/-- What prints lines: it gives the reason if it cannot put a line into text, or the part that it is
handed to cannot write it. -/
abbrev Printer (ε : Type) := PrinterPart → LogLine → Option ε

/-- The printer that prints every line, whatever reasons others may have. -/
def Printer.sure {ε : Type} : Printer ε := fun _ _ => none

/-- How lines are put into text. -/
inductive LineFormat where
  /-- Each line is an object in JSON. -/
  | json
  /-- Each line is laid out for a reader at the console. -/
  | console
deriving DecidableEq

namespace LineFormat

/-- Why an integer cannot be written. -/
def integerFault? (n : Int) : Option TrailError :=
  if integerIsWritable n then none else some .unwritableInteger

/-- Why a key inside of a value cannot be written. -/
def keyFault? (f : LineFormat) : Key → Option TrailError
  | .int n => integerFault? n
  | .bytes _ | .date _ | .moment _ =>
    match f with
    | json => some .unwritableKey
    | console => none
  | _ => none

mutual

/-- Why a value cannot be written. A set is written as at the console in both formats. -/
def fault? (f : LineFormat) : Value → Option TrailError
  | .int n => integerFault? n
  | .list items => itemsFault? f items
  | .pair v w => (fault? f v).or (fault? f w)
  | .set keys => keys.findSome? console.keyFault?
  | .object fields => fieldsFault? f fields
  | .endless =>
    match f with
    | json => some .endlessValue
    | console => none
  | _ => none

/-- Why the items of a list cannot be written. -/
def itemsFault? (f : LineFormat) : List Value → Option TrailError
  | [] => none
  | v :: vs => (fault? f v).or (itemsFault? f vs)

/-- Why the fields of an object cannot be written. -/
def fieldsFault? (f : LineFormat) : List (Key × Value) → Option TrailError
  | [] => none
  | (k, v) :: rest => ((f.keyFault? k).or (fault? f v)).or (fieldsFault? f rest)

end

/-! ## The console -/

/-- What is shown below a line at the console, and the request for it. -/
def attachmentKeys : List String := ["stack", "exception", "exc_info"]

/-- Why what is shown below a line cannot be shown. What an exception left is not shown if the
exception itself is asked for. -/
def attachmentFault? (fields : Fields) : Option TrailError :=
  let fits (key : String) : Bool := match fields.get? key with
    | none | some .null | some (.text _) => true
    | _ => false
  let asked : Bool := !((fields.get? "exc_info").getD .null).isEmpty
  if fits "stack" && (asked || fits "exception") then none else some .attachmentNotText

/-- Whether a text is written without quotes: it is the name of the line or has no character that
asks for them. -/
def isBare (key : Key) (t : Text) : Bool :=
  key.same "event" || t.points.all fun n => !(" \t=\r\n\"'".toList.map Char.toNat).contains n

/-- Why the texts of a line cannot be written. Within quotes half of a character is escaped. -/
def textFault? (fields : Fields) : Option TrailError :=
  let fits (f : Key × Value) : Bool := match f.2 with
    | .text t => t.toString?.isSome || !isBare f.1 t
    | _ => true
  if fields.all fits then none else some .unwritableText

/-! ## Lines -/

/-- Why the fields of a line cannot be put into text. -/
def lineFault? : LineFormat → Fields → Option TrailError
  | json, fields => fieldsFault? json fields
  | console, fields =>
    let shown : Fields := attachmentKeys.foldl (fun acc (k : String) => acc.without k) fields
    (fieldsFault? console shown).or (attachmentFault? fields)

/-- Why the text of a line cannot be written. In JSON all texts are escaped. -/
def writingFault? : LineFormat → Fields → Option TrailError
  | json, _ => none
  | console, fields => textFault? fields

/-- The names of runs as far as it matters whether they can be written: those that are issued
can be. -/
def runNames : CorrelationNames
  | .given v => v
  | .issued _ => .text ""

/-- The printer of a format. Only one of its parts writes the text of a line. -/
def printer (f : LineFormat) : Printer TrailError := fun part line =>
  let fields := line.fields runNames
  match part with
  | .method => (f.lineFault? fields).or (f.writingFault? fields)
  | _ => f.lineFault? fields

end LineFormat

end StockRegister
