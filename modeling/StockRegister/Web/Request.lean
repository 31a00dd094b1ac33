import StockRegister.Json.Encoding
import StockRegister.Json.Read
import StockRegister.Stock
import StockRegister.Web.Route
import StockRegister.Web.Url

/-!
# Requests

A `Request` is what a client sends: a method, a path and a query as they are written, the host
that they are sent to, and perhaps a body with its media type. `Endpoint.read` makes of it the
`Call` that an endpoint answers. A body is read first, if the endpoint has one, and must be JSON
text of a media type for JSON; a body of another type holds nothing that could be used. Then the
problems of the path, the query and the body are collected in this order.
-/

namespace StockRegister.Web

open Schema

/-- What a client sends. -/
structure Request where
  method : String
  path : String
  query : String := ""
  host : String := "localhost"
  body : Option String := none
  mediaType : Option String := none

/-- The path of a request as it is meant. -/
def Request.target (r : Request) : List Char := decodePercent r.path.toList

/-- What an endpoint is asked to do. -/
inductive Call where
  | page (p : Page)
  | health
  | readiness
  | listStocks
  | search (keyword : String)
  | topGainers
  | topByMarketCap
  | stockBySymbol (symbol : String)
  | stocksOfSector (sector : String)
  | createStock (request : Option StockDetails)
  | stock (id : Int)
  | updateStock (id : Int) (details : StockDetails)
  | updatePrice (id : Int) (update : PriceUpdate)
  | deleteStock (id : Int)

/-- Why a request makes no call: it has problems, or its body cannot be parsed at all. -/
inductive Refusal where
  | invalid (problems : List Problem)
  | unparsable

/-! ## Bodies -/

/-- What the body of a request holds. -/
inductive Body where
  | absent
  | json (v : Value)
  | unknown

/-- Whether a media type is one for JSON text; its parameters do not count. -/
def isJsonType (mediaType : String) : Bool :=
  let name := Text.strip Text.isBlankChar (Text.cutAtFirst ';' mediaType.toList).1
  match Text.pieces '/' (lowerAscii name) with
  | [main, sub] =>
    main == "application".toList && (sub == "json".toList || "+json".toList.isSuffixOf sub)
  | _ => false

/-- The body of a request. -/
def Request.readBody (r : Request) : Except Refusal Body :=
  match r.body with
  | none => .ok .absent
  | some text =>
    if text.isEmpty then .ok .absent
    else if !(r.mediaType.any isJsonType) then .ok .unknown
    else
      match Json.decode (text.toList.flatMap utf8Bytes) with
      | none => .error .unparsable
      | some t =>
        match Json.read t with
        | .ok v => .ok (.json v)
        | .error (.syntaxAt n) => .error (.invalid [⟨.brokenJson, [.name "body", .position n]⟩])
        | .error .numberTooLong => .error .unparsable
        | .error .tooDeep => .error .unparsable

namespace Body

/-- A body that must be an object. -/
def readObject {α : Type} (read : Fields → Checked α) : Body → Checked α
  | .absent => Checked.bad [⟨.missing, [.name "body"]⟩]
  | .json (.object fields) => (read fields).under (.name "body")
  | _ => Checked.bad [⟨.notFieldSource, [.name "body"]⟩]

/-- A body that may be absent or null. -/
def readOptional {α : Type} (read : Fields → Checked α) : Body → Checked (Option α)
  | .absent => .ok none
  | .json .null => .ok none
  | body => some <$> body.readObject read

end Body

/-! ## Calls -/

/-- The id in a path. -/
def readPathId (id : String) : Checked Int :=
  ((readInt (.text id)).under (.name "stock_id")).under (.name "path")

/-- A value that a query must have. -/
def readQueryValue (query name : String) : Checked String :=
  match queryValue query name with
  | some s => .ok s
  | none => Checked.bad [⟨.missing, [.name "query", .name name]⟩]

/-- The result of a check as a call. -/
def callOf : Checked Call → Except Refusal Call
  | .ok c => .ok c
  | .bad problems => .error (.invalid problems)

/-- The call that a request makes at an endpoint. -/
def Endpoint.read (e : Endpoint) (r : Request) : Except Refusal Call :=
  match e with
  | .page p => .ok (.page p)
  | .health => .ok .health
  | .readiness => .ok .readiness
  | .listStocks => .ok .listStocks
  | .search => callOf (Call.search <$> readQueryValue r.query "keyword")
  | .topGainers => .ok .topGainers
  | .topByMarketCap => .ok .topByMarketCap
  | .stockBySymbol symbol => .ok (.stockBySymbol symbol)
  | .stocksOfSector sector => .ok (.stocksOfSector sector)
  | .createStock => do
    let body ← r.readBody
    callOf (Call.createStock <$> body.readOptional StockDetails.readFields)
  | .stock id => callOf (Call.stock <$> readPathId id)
  | .updateStock id => do
    let body ← r.readBody
    callOf (Call.updateStock <$> readPathId id <*> body.readObject StockDetails.readFields)
  | .updatePrice id => do
    let body ← r.readBody
    callOf (Call.updatePrice <$> readPathId id <*> body.readObject PriceUpdate.readFields)
  | .deleteStock id => callOf (Call.deleteStock <$> readPathId id)

end StockRegister.Web
