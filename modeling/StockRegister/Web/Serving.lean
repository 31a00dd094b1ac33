import StockRegister.Web.Response

/-!
# Serving requests

`Desk.serve` answers one request: the route is found by the decoded path, the request is read
as a call, and the call is performed at the desk. A request that is not routed or not read
never reaches the desk. The name of a run is bound only while its call is performed, so that
the log line about a rejected request names none.

`Desk.serveAll` answers requests from the start of the interface to its end, which are
logged.
-/

namespace StockRegister

open Web

namespace Desk

/-- The response to a call, given its result. -/
def reply {α : Type} (write : α → Response) (result : Desk × Except DeskError α) :
    Desk × Except DeskError Response :=
  (result.1, result.2.map write)

/-- Perform a call. -/
def perform (d : Desk) (clock : Clock) (c : Call) : Desk × Except DeskError Response :=
  match c with
  | .page p => (d, .ok (.ofPage p))
  | .health => (d, .ok { status := 200, body := .object [("status", .text "healthy")] })
  | .readiness =>
    (d, .ok { status := 200, body := .object [("status", .text "ready"),
      ("stages", .int d.assessor.stages.length), ("stocks", .int d.store.size)] })
  | .listStocks => reply .ofStocks (d.listStocks clock)
  | .search keyword => reply .ofStocks (d.search clock (.text keyword))
  | .topGainers => reply .ofStocks (d.topGainers clock)
  | .topByMarketCap => reply .ofStocks (d.topByMarketCap clock)
  | .stockBySymbol symbol => reply (.ofStock 200) (d.getStockBySymbol clock (.text symbol))
  | .stocksOfSector sector => reply .ofStocks (d.listBySector clock (.text sector))
  | .createStock request => reply (.ofStock 201) (d.createStock clock request)
  | .stock id => reply (.ofStock 200) (d.getStock clock (.int id))
  | .updateStock id details => reply (.ofStock 200) (d.updateStock clock (.int id) details)
  | .updatePrice id update => reply (.ofStock 200) (d.updateStockPrice clock (.int id) update)
  | .deleteStock id =>
    reply (fun _ => { status := 204 }) (d.deleteStock clock (.int id))

/-- Log that a request was rejected. -/
def logRejection (d : Desk) (clock : Clock) (path : List Char) (r : Rejection) : Desk :=
  { d with
    trail := d.trail.tell clock .info (.text "request_rejected")
      [("path", .text (String.ofList (namedPath path))),
        ("status_code", .int (failureStatus r.failure)),
        ("failure_kind", .text r.failure.name), ("stage_rank", .int r.stageRank)] }

/-- No run is named any more. -/
def unbound (d : Desk) : Desk := { d with trail := { d.trail with current := none } }

/-- Answer a call that was made on a path. -/
def answerCall (d : Desk) (clock : Clock) (path : List Char) (c : Call) : Desk × Response :=
  match d.perform clock c with
  | (d, .ok response) => (d.unbound, response)
  | (d, .error (.rejected r)) =>
    (d.unbound.logRejection clock path r, .ofError (.rejected r))
  | (d, .error e) => (d.unbound, .ofError e)

/-- Answer a request. -/
def serve (d : Desk) (clock : Clock) (r : Request) : Desk × Response :=
  match Routing.find r.method r.target with
  | .nowhere => (d, .notFound)
  | .wrongMethod => (d, .wrongMethod)
  | .elsewhere path => (d, .elsewhere r.host path r.query)
  | .to endpoint =>
    match endpoint.read r with
    | .error refusal => (d, .ofRefusal refusal)
    | .ok call => d.answerCall clock r.target call

/-- Answer requests one after the other. -/
def serveEach (clock : Clock) : List Request → Desk → Desk × List Response
  | [], d => (d, [])
  | r :: rest, d =>
    let (d, response) := d.serve clock r
    let (d, responses) := serveEach clock rest d
    (d, response :: responses)

/-- Answer requests from the start of the interface to its end. -/
def serveAll (d : Desk) (clock : Clock) (requests : List Request) : Desk × List Response :=
  let d := { d with
    trail := d.trail.tell clock .info (.text "api_starting") [("stocks", .int d.store.size)] }
  let (d, responses) := serveEach clock requests d
  ({ d with trail := d.trail.tell clock .info (.text "api_stopping") [] }, responses)

end Desk

end StockRegister
