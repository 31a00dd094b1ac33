import StockRegister.Assessment.Run
import StockRegister.Store

/-!
# The desk

The `Desk` serves requests to the register. Every request is assessed first (`Desk.guard`),
and only if it may proceed does it touch the store. A request fails with a `DeskError`: it
was rejected, there is no such record, or its operand could not be made.

A raw id is assessed as the integer it stands for, but a record is found only under an id
that equals it as a number (`Value.recordKey`).

The log of a desk goes to a printer that prints every line. What becomes of a run whose line
cannot be printed is a matter of the assessment alone (`Assessor.assess`): nothing has been stored
by then.
-/

namespace StockRegister

open Schema

/-- Why a request fails. -/
inductive DeskError where
  | rejected (r : Rejection)
  | noId (id : Value)
  | noSymbol (symbol : Value)
  | invalid (e : ModelError)
  | refused (e : AssessmentError)
  | figure (e : FigureError)
  | unusableKey

/-- A value as it stands in a message; an integer that has too many digits cannot. -/
def Value.display? : Value → Option Text
  | .null => some "None"
  | .bool true => some "True"
  | .bool false => some "False"
  | .int n => if integerIsWritable n then some (toString n) else none
  | .float x => some (x.text .report)
  | .text t => some t
  | .date d => some d.isoText
  | .moment m => some m.isoText
  | _ => some ""

/-- The key under which a raw id finds a record: none if it is no number, and an error if it
has parts. -/
def Value.recordKey (id : Value) : Except DeskError (Option Int) :=
  match id.toKey? with
  | some _ => .ok id.numericInt?
  | none => .error .unusableKey

/-- The records of a raw sector; a value that is neither null nor a text is no sector. -/
def Store.sectorRecords (s : Store) (sector : Value) : List Stock :=
  match sector with
  | .null => s.findBySector none
  | .text name => s.findBySector (some name)
  | _ => []

/-- The records that have a raw keyword, which must be a text unless there are no records. -/
def Store.keywordRecords (s : Store) (keyword : Value) : Except DeskError (List Stock) :=
  match keyword with
  | .text part => .ok (s.search part)
  | _ => if s.entries.isEmpty then .ok [] else .error .unusableKey

/-- The wording of an error that has one of its own. An error about an id that cannot stand in a
message has none: whoever puts it into words fails on the id instead. -/
def DeskError.message? : DeskError → Option Text
  | rejected r => some r.message
  | noId id => id.display?.map (Text.ofString "No stock with id " ++ ·)
  | noSymbol symbol => symbol.display?.map (Text.ofString "No stock with symbol " ++ ·)
  | refused e => some e.message
  | _ => none

/-- The register as it is served: the store, what assesses requests, the audit trail, and the
length of top lists. -/
structure Desk where
  store : Store
  assessor : Assessor
  trail : Trail
  topCount : Int

namespace Desk

/-- Assess a request about an operand. -/
def guardOperand (d : Desk) (clock : Clock) (op : Operation) (o : Operand) :
    Desk × Except DeskError Unit :=
  match d.assessor.evaluate clock op (.operand o) d.trail with
  | .error e => (d, .error (.refused e))
  | .ok (verdict, assessor, trail) =>
    let d := { d with assessor := assessor, trail := trail }
    match verdict with
    | .proceed => (d, .ok ())
    | .rejected r => (d, .error (.rejected r))

/-- Assess a request about a raw value, of which the operand is made first. -/
def guard (d : Desk) (clock : Clock) (op : Operation) (v : Value) : Desk × Except DeskError Unit :=
  match Operand.ofValue op v with
  | .bad problems => (d, .error (.invalid ⟨op.operandShape.1.title, problems⟩))
  | .ok o => d.guardOperand clock op o

/-- Go on with a request that may proceed. -/
def continueWith {α : Type} (guarded : Desk × Except DeskError Unit)
    (action : Desk → Desk × Except DeskError α) : Desk × Except DeskError α :=
  match guarded with
  | (d, .error e) => (d, .error e)
  | (d, .ok ()) => action d

/-- Answer a request from the store without changing it. -/
def answer {α : Type} (result : Store → Except DeskError α) (d : Desk) :
    Desk × Except DeskError α :=
  (d, result d.store)

/-! ## Reading -/

/-- A read of the whole collection. -/
def readAll {α : Type} (d : Desk) (clock : Clock) (result : Store → Except DeskError α) :
    Desk × Except DeskError α :=
  continueWith (d.guard clock .bulkLookup .null) (answer result)

/-- All records. -/
def listStocks (d : Desk) (clock : Clock) : Desk × Except DeskError (List Stock) :=
  d.readAll clock fun s => .ok s.toList

/-- The records of a sector. -/
def listBySector (d : Desk) (clock : Clock) (sector : Value) :
    Desk × Except DeskError (List Stock) :=
  d.readAll clock fun s => .ok (s.sectorRecords sector)

/-- The records that have a keyword. -/
def search (d : Desk) (clock : Clock) (keyword : Value) : Desk × Except DeskError (List Stock) :=
  d.readAll clock fun s => s.keywordRecords keyword

/-- The records with the highest change rates. -/
def topGainers (d : Desk) (clock : Clock) : Desk × Except DeskError (List Stock) :=
  d.readAll clock fun s => (s.topGainers d.topCount).mapError .figure

/-- The records with the largest market capitalisations. -/
def topByMarketCap (d : Desk) (clock : Clock) : Desk × Except DeskError (List Stock) :=
  d.readAll clock fun s => .ok (s.topByMarketCap d.topCount)

/-- The record under an id. -/
def getStock (d : Desk) (clock : Clock) (id : Value) : Desk × Except DeskError Stock :=
  continueWith (d.guard clock .lookupById id) <| answer fun s => do
    match (← id.recordKey).bind s.get? with
    | some stock => pure stock
    | none => throw (.noId id)

/-- The first record with a symbol. -/
def getStockBySymbol (d : Desk) (clock : Clock) (symbol : Value) :
    Desk × Except DeskError Stock :=
  continueWith (d.guard clock .lookupBySymbol symbol) <| answer fun s =>
    match symbol.toText?.bind s.findBySymbol with
    | some stock => .ok stock
    | none => .error (.noSymbol symbol)

/-! ## Writing -/

/-- Put a changed store in place of the old one, or fail without a change. -/
def commit {α : Type} (d : Desk) : Except DeskError (α × Store) → Desk × Except DeskError α
  | .error e => (d, .error e)
  | .ok (a, s) => ({ d with store := s }, .ok a)

/-- Add a record. -/
def createStock (d : Desk) (clock : Clock) (request : Option StockDetails) :
    Desk × Except DeskError Stock :=
  continueWith (d.guardOperand clock .create (.creation request)) fun d =>
    d.commit <|
      match request with
      | none => .error .unusableKey
      | some details =>
        match d.store.add clock.now details with
        | .ok result => .ok result
        | .error e => .error (.invalid e)

/-- Change the record under an id by a function of the store. -/
def changeStock {α : Type} (d : Desk) (clock : Clock) (op : Operation) (id : Value)
    (change : Store → Int → Option (α × Store)) : Desk × Except DeskError α :=
  continueWith (d.guard clock op id) fun d =>
    d.commit <| do
      match (← id.recordKey).bind (change d.store) with
      | some result => pure result
      | none => throw (.noId id)

/-- Give a record the details that a request names. -/
def updateStock (d : Desk) (clock : Clock) (id : Value) (details : StockDetails) :
    Desk × Except DeskError Stock :=
  d.changeStock clock .update id fun s key => s.update clock.now key details

/-- Give a record a new price. -/
def updateStockPrice (d : Desk) (clock : Clock) (id : Value) (p : PriceUpdate) :
    Desk × Except DeskError Stock :=
  d.changeStock clock .priceUpdate id fun s key =>
    s.updatePrice clock.now key (.float p.newPrice) (.ofInt? p.volume)

/-- Take a record out of the register. -/
def deleteStock (d : Desk) (clock : Clock) (id : Value) : Desk × Except DeskError Unit :=
  d.changeStock clock .delete id fun s key => (s.remove key).map fun s => ((), s)

end Desk

end StockRegister
