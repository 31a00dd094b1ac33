import StockRegister.Schema.Field

/-!
# Stock records and requests

A `Stock` is one record of the register. `StockDetails` are the fields that a request to
create or to change a record may give, each of them optional, and `PriceUpdate` is a request
to set the current price. Every field may be spelled in words joined by underscores or by
capitals, the latter being preferred. The prices and the volume of a record are what they were
set to, which is null or a number wherever requests are checked.

`Stock.ofDetails` makes a record of the details of a request, which must name a symbol and
a company. `Stock.revised` and `Stock.repriced` are the two ways in which a record changes.
-/

namespace StockRegister

open Schema

/-- One record of the register. -/
structure Stock where
  id : Int
  symbol : Text
  companyName : Text
  currentPrice : Value
  previousPrice : Value
  volume : Value
  marketCap : Option Double
  sector : Option Text
  createdAt : Moment
  updatedAt : Option Moment

/-- The fields that a request to create or to change a record may give. -/
structure StockDetails where
  symbol : Option Text
  companyName : Option Text
  currentPrice : Option Double
  previousPrice : Option Double
  volume : Option Int
  marketCap : Option Double
  sector : Option Text
deriving DecidableEq

/-- A request to set the current price of a record. -/
structure PriceUpdate where
  newPrice : Double
  volume : Option Int
deriving DecidableEq

/-- Why a figure cannot be computed. -/
inductive FigureError where
  | notNumber
  | tooLarge
deriving DecidableEq

/-! ## Fields and their spellings -/

namespace Stock

/-- The number of a record, given when it is stored. -/
def idField : Field := .plain "id"

/-- The symbol that a record is found by besides its id. -/
def symbolField : Field := .plain "symbol"

/-- The name of the company. -/
def companyNameField : Field := .spelled "company_name" "companyName"

/-- The price as it was set last. -/
def currentPriceField : Field := .spelled "current_price" "currentPrice"

/-- The price before that, from which the change of the price is reckoned. -/
def previousPriceField : Field := .spelled "previous_price" "previousPrice"

/-- The number of shares traded. -/
def volumeField : Field := .plain "volume"

/-- The value of the company, by which top lists are ranked. -/
def marketCapField : Field := .spelled "market_cap" "marketCap"

/-- The sector of the company. -/
def sectorField : Field := .plain "sector"

/-- The moment at which a record was stored. -/
def createdAtField : Field := .spelled "created_at" "createdAt"

/-- The moment at which a record was changed last, if it was. -/
def updatedAtField : Field := .spelled "updated_at" "updatedAt"

/-- The new price of a price update may also be given as the current price. -/
def newPriceField : Field := ⟨"new_price", "newPrice", ["new_price", "currentPrice"]⟩

end Stock

open Stock in
/-- The details in an object. -/
def StockDetails.readFields (fields : Fields) : Checked StockDetails :=
  StockDetails.mk
    <$> symbolField.orElse none (readOptional readText) fields
    <*> companyNameField.orElse none (readOptional readText) fields
    <*> currentPriceField.orElse none (readOptional readPrice) fields
    <*> previousPriceField.orElse none (readOptional readPrice) fields
    <*> volumeField.orElse none (readOptional (readIntFrom 0)) fields
    <*> marketCapField.orElse none (readOptional readPrice) fields
    <*> sectorField.orElse none (readOptional readText) fields

/-- Details as the fields of an object. -/
def StockDetails.entries (d : StockDetails) : List (Field × Value) :=
  [(Stock.symbolField, .ofText? d.symbol),
    (Stock.companyNameField, .ofText? d.companyName),
    (Stock.currentPriceField, .ofDouble? d.currentPrice),
    (Stock.previousPriceField, .ofDouble? d.previousPrice),
    (Stock.volumeField, .ofInt? d.volume),
    (Stock.marketCapField, .ofDouble? d.marketCap),
    (Stock.sectorField, .ofText? d.sector)]

open Stock in
/-- The price update in an object. -/
def PriceUpdate.readFields (fields : Fields) : Checked PriceUpdate :=
  PriceUpdate.mk
    <$> newPriceField.required (fun v => (readNumber v).bind (numberAbove 0)) fields
    <*> volumeField.orElse none (readOptional (readIntFrom 0)) fields

/-- A price update as the fields of an object. -/
def PriceUpdate.entries (p : PriceUpdate) : List (Field × Value) :=
  [(Stock.newPriceField, .float p.newPrice), (Stock.volumeField, .ofInt? p.volume)]

namespace Stock

/-- The record in an object. -/
def readFields (fields : Fields) : Checked Stock :=
  Stock.mk
    <$> idField.required (readIntFrom 1) fields
    <*> symbolField.required readText fields
    <*> companyNameField.required readText fields
    <*> (.ofDouble? <$> currentPriceField.orElse none (readOptional readPrice) fields)
    <*> (.ofDouble? <$> previousPriceField.orElse none (readOptional readPrice) fields)
    <*> (.ofInt? <$> volumeField.orElse none (readOptional (readIntFrom 0)) fields)
    <*> marketCapField.orElse none (readOptional readPrice) fields
    <*> sectorField.orElse none (readOptional readText) fields
    <*> createdAtField.required readMoment fields
    <*> updatedAtField.orElse none (readOptional readMoment) fields

/-- An optional moment as a value. -/
def momentValue : Option Moment → Value
  | none => .null
  | some m => .moment m

/-- A record as the fields of an object. -/
def entries (s : Stock) : List (Field × Value) :=
  [(idField, .int s.id),
    (symbolField, .text s.symbol),
    (companyNameField, .text s.companyName),
    (currentPriceField, s.currentPrice),
    (previousPriceField, s.previousPrice),
    (volumeField, s.volume),
    (marketCapField, .ofDouble? s.marketCap),
    (sectorField, .ofText? s.sector),
    (createdAtField, .moment s.createdAt),
    (updatedAtField, momentValue s.updatedAt)]

/-! ## Derived figures -/

/-- The change from one number to another relative to the first, which is not zero. -/
def relativeChange (previous current : Amount) : Except FigureError Double :=
  match (current.sub? previous).bind (·.div? previous) with
  | some rate => .ok rate
  | none => .error .tooLarge

/-- The change from the previous to the current price relative to the previous one, if both
are known and the previous one is not zero. -/
def changeRate (s : Stock) : Except FigureError (Option Double) :=
  match s.currentPrice with
  | .null => .ok none
  | current =>
    if s.previousPrice.isEmpty then .ok none
    else
      match s.previousPrice.toAmount?, current.toAmount? with
      | some previous, some current => some <$> relativeChange previous current
      | _, _ => .error .notNumber

/-! ## Changes -/

/-- The new record of the given id with the details of a request, which must name a symbol
and a company. -/
def ofDetails (id : Int) (now : Moment) (d : StockDetails) : Checked Stock :=
  Stock.mk
    <$> pure id
    <*> (readText (.ofText? d.symbol)).under (.name symbolField.name)
    <*> (readText (.ofText? d.companyName)).under (.name companyNameField.name)
    <*> pure (.ofDouble? d.currentPrice)
    <*> pure (.ofDouble? d.previousPrice)
    <*> pure (.ofInt? d.volume)
    <*> pure d.marketCap
    <*> pure d.sector
    <*> pure now
    <*> pure none

/-- The record with the details that a request gives in place of its own. -/
def revised (s : Stock) (now : Moment) (d : StockDetails) : Stock :=
  { s with
    symbol := d.symbol.getD s.symbol
    companyName := d.companyName.getD s.companyName
    currentPrice := (d.currentPrice.map .float).getD s.currentPrice
    previousPrice := (d.previousPrice.map .float).getD s.previousPrice
    volume := (d.volume.map .int).getD s.volume
    marketCap := d.marketCap.or s.marketCap
    sector := d.sector.or s.sector
    updatedAt := some now }

/-- The record with a new current price, the old one being kept as the previous price, and
with a new volume unless it is null. Neither is checked. -/
def repriced (s : Stock) (now : Moment) (price volume : Value) : Stock :=
  { s with
    currentPrice := price
    previousPrice := s.currentPrice
    volume := match volume with
      | .null => s.volume
      | v => v
    updatedAt := some now }

end Stock

end StockRegister
