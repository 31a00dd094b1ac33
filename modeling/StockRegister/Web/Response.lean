import StockRegister.Desk
import StockRegister.Web.Request

/-!
# Responses

A `Response` has a status, a body, and perhaps the address that the client should go to
instead. Records are written under their preferred names. A number that is not finite has no
form in JSON text and is null; a text with half of a character has none either, and then the
response is not sent (`Response.isWritable`). An error says what kind it is, what went wrong,
and which stage rejected the request if one did.
-/

namespace StockRegister.Web

open Schema

/-- What a client gets; without a body there is null in its place. A page that describes the
interface is named only: what stands on it is no matter of the register. -/
structure Response where
  status : Nat
  body : Value := .null
  location : Option String := none
  page : Option Page := none

/-- A value as it can be written in JSON text. -/
def jsonNumber : Value → Value
  | .float x => if x.isFinite then .float x else .null
  | v => v

/-- A record as an object. -/
def stockBody (s : Stock) : Value :=
  writeModel .preferred (s.entries.map fun e => (e.1, jsonNumber e.2))

/-- The body of an error. -/
def errorBody (code : String) (message : Text) (stage : Option Rejection) : Value :=
  .object [("error", .object [("code", .text code), ("message", .text message),
    ("stage_rank", .ofInt? (stage.map fun r => (r.stageRank : Int))),
    ("stage_name", .ofText? (stage.map (·.stageName)))])]

/-- The status of a failure. -/
def failureStatus : FailureKind → Nat
  | .validation => 400
  | .domain => 422
  | .transient => 503

namespace Response

/-- Whether a response can be sent: its body is written in UTF-8, in which half of a character
has no form. -/
def isWritable (r : Response) : Bool := r.body.isWritable

/-- A response that holds a record. -/
def ofStock (status : Nat) (s : Stock) : Response := { status := status, body := stockBody s }

/-- A response that holds records. -/
def ofStocks (stocks : List Stock) : Response :=
  { status := 200, body := .list (stocks.map stockBody) }

/-- A response that says in one sentence why there is no other. -/
def detail (status : Nat) (text : String) : Response :=
  { status := status, body := .object [("detail", .text text)] }

/-- The response to a request without an endpoint. -/
def notFound : Response := detail 404 "Not Found"

/-- The response to a request with a method that the path does not have. -/
def wrongMethod : Response := detail 405 "Method Not Allowed"

/-- The response that sends a client to another path of a host, with the same query. -/
def elsewhere (host : String) (path : List Char) (query : String) : Response :=
  let query := if query.isEmpty then [] else '?' :: query.toList
  let address := "http://".toList ++ host.toList ++ path ++ query
  { status := 307, location := some (String.ofList (quoteAddress address)) }

/-- The response that shows a page. -/
def ofPage (p : Page) : Response := { status := 200, page := some p }

/-- The response to a request that makes no call. -/
def ofRefusal : Refusal → Response
  | .invalid problems =>
    { status := 400
      body := errorBody FailureKind.validation.name ("; ".intercalate (problems.map Problem.text))
        none }
  | .unparsable => detail 400 "There was an error parsing the body"

/-- The response to a request that fails. -/
def ofError (e : DeskError) : Response :=
  match e with
  | .rejected r =>
    { status := failureStatus r.failure, body := errorBody r.failure.name r.message (some r) }
  | .noId _ | .noSymbol _ =>
    match e.message? with
    | some message => { status := 404, body := errorBody "not_found" message none }
    | none => { status := 500 }
  | .invalid _ | .refused _ | .figure _ | .unusableKey => { status := 500 }

end Response

end StockRegister.Web
