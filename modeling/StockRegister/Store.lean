import StockRegister.Operand
import StockRegister.Store.Ranking

/-!
# The store of records

A `Store` holds records under their ids, in the order in which they were added, and the id
that the next record will get. `Store.toList` is the list of records, and all reads are
stated of it. An id is never given out twice: `Store.add` raises the next id by one, and
nothing lowers it.
-/

namespace StockRegister

open Schema

/-- Records under their ids, in the order of their adding. -/
structure Store where
  entries : List (Int × Stock) := []
  nextId : Int := 1

/-- What a value lacks to be a record of a model. -/
structure ModelError where
  title : String
  problems : List Problem
deriving DecidableEq

/-- A record to start with: an object still to be read, or details already read. -/
inductive SeedRecord where
  | raw (v : Value)
  | details (d : StockDetails)

/-- The details of a record to start with. -/
def SeedRecord.read : SeedRecord → Except ModelError StockDetails
  | details d => .ok d
  | raw v =>
    match Operand.readDetails v with
    | .ok d => .ok d
    | .bad problems => .error ⟨Operand.detailsTitle, problems⟩

namespace Store

/-- The store without records. -/
def empty : Store := {}

/-- All records in the order of their adding. -/
def toList (s : Store) : List Stock := s.entries.map Prod.snd

/-- The number of records. -/
def size (s : Store) : Nat := s.entries.length

/-- The record under an id. -/
def get? (s : Store) (id : Int) : Option Stock := s.entries.lookup id

/-- A record written into entries: in its old place, or at the end if its id is new. -/
def putEntry (id : Int) (stock : Stock) : List (Int × Stock) → List (Int × Stock)
  | [] => [(id, stock)]
  | (k, old) :: rest =>
    if k = id then (k, stock) :: rest else (k, old) :: putEntry id stock rest

/-! ## Writing -/

/-- Add a record with the details of a request. A record that cannot be made leaves the store
as it is. -/
def add (s : Store) (now : Moment) (d : StockDetails) : Except ModelError (Stock × Store) :=
  match Stock.ofDetails s.nextId now d with
  | .ok stock => .ok (stock, ⟨putEntry stock.id stock s.entries, s.nextId + 1⟩)
  | .bad problems => .error ⟨"Stock", problems⟩

/-- Add records one after the other up to the first that cannot be added; those before it
stay in the store. -/
def seed (now : Moment) : List SeedRecord → Store → Store × Except ModelError (List Stock)
  | [], s => (s, .ok [])
  | r :: rest, s =>
    match r.read with
    | .error e => (s, .error e)
    | .ok d =>
      match s.add now d with
      | .error e => (s, .error e)
      | .ok (stock, s) =>
        match seed now rest s with
        | (s, .ok stocks) => (s, .ok (stock :: stocks))
        | (s, .error e) => (s, .error e)

/-- Change the record under an id, if there is one. -/
def modify (s : Store) (id : Int) (f : Stock → Stock) : Option (Stock × Store) :=
  (s.get? id).map fun stock => (f stock, { s with entries := putEntry id (f stock) s.entries })

/-- Give a record the details that a request names. -/
def update (s : Store) (now : Moment) (id : Int) (d : StockDetails) : Option (Stock × Store) :=
  s.modify id (·.revised now d)

/-- Give a record a new price, and a new volume unless that is null. -/
def updatePrice (s : Store) (now : Moment) (id : Int) (price volume : Value) :
    Option (Stock × Store) :=
  s.modify id (·.repriced now price volume)

/-- Take the record under an id out of the store, if there is one. -/
def remove (s : Store) (id : Int) : Option Store :=
  (s.get? id).map fun _ => { s with entries := s.entries.filter (·.1 != id) }

/-! ## Reading -/

/-- The first record with a symbol. -/
def findBySymbol (s : Store) (symbol : Text) : Option Stock :=
  s.toList.find? (·.symbol == symbol)

/-- The records of a sector, or those without one. -/
def findBySector (s : Store) (sector : Option Text) : List Stock :=
  s.toList.filter (·.sector == sector)

/-- The records whose company name or symbol has a keyword as a part. -/
def search (s : Store) (keyword : Text) : List Stock :=
  s.toList.filter fun stock => stock.companyName.contains keyword || stock.symbol.contains keyword

/-- The records with the highest change rates. -/
def topGainers (s : Store) (limit : Int) : Except FigureError (List Stock) :=
  (rankByFigure Stock.changeRate s.toList).map (upTo limit)

/-- The records with the largest market capitalisations. -/
def topByMarketCap (s : Store) (limit : Int) : List Stock :=
  upTo limit (rankBy Stock.marketCap s.toList)

end Store

end StockRegister
