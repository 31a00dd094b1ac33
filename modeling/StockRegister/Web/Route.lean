import StockRegister.Text.Pieces

/-!
# Routes

A `Route` says which `Endpoint` answers a method on the paths of a pattern. A pattern is a
list of segments, which are fixed or a parameter; a parameter takes any text that is not
empty. A line break may follow the last segment if it is fixed.

`Routing.find` takes the first route that has both the pattern and the method of a request.
If there are only routes with the pattern, the method is wrong; if there is none, a path with
slashes at its end is sent to the one without. The pages that describe the interface (`Page`)
come first.
-/

namespace StockRegister.Web

/-- A segment of a pattern. -/
inductive Segment where
  | fixed (s : String)
  | parameter
deriving DecidableEq

/-- A page that describes the interface: what it offers in a form for programs, two pages for
readers, and the one that a reader comes back to after signing in. -/
inductive Page where
  | schema
  | docs
  | signedIn
  | reference
deriving DecidableEq

/-- What answers a request; ids, symbols and sectors are still the texts of the path. -/
inductive Endpoint where
  | page (p : Page)
  | health
  | readiness
  | listStocks
  | search
  | topGainers
  | topByMarketCap
  | stockBySymbol (symbol : String)
  | stocksOfSector (sector : String)
  | createStock
  | stock (id : String)
  | updateStock (id : String)
  | updatePrice (id : String)
  | deleteStock (id : String)
deriving DecidableEq

/-- An endpoint for the paths of a pattern; it is given the parameter of the path. -/
structure Route where
  method : String
  pattern : List Segment
  endpoint : String → Endpoint

/-- The pattern of paths under that of the stocks. -/
def stocksPattern (rest : List Segment) : List Segment :=
  [.fixed "api", .fixed "v1", .fixed "stocks"] ++ rest

/-- The pages with their patterns. -/
def pagePatterns : List (Page × List Segment) := [
  (.schema, [.fixed "openapi.json"]),
  (.docs, [.fixed "docs"]),
  (.signedIn, [.fixed "docs", .fixed "oauth2-redirect"]),
  (.reference, [.fixed "redoc"])]

/-- The routes to the pages. -/
def pageRoutes : List Route :=
  pagePatterns.flatMap fun e =>
    [⟨"GET", e.2, fun _ => .page e.1⟩, ⟨"HEAD", e.2, fun _ => .page e.1⟩]

/-- All routes, in order of precedence. -/
def routes : List Route := pageRoutes ++ [
  ⟨"GET", [.fixed "health"], fun _ => .health⟩,
  ⟨"GET", [.fixed "health", .fixed "ready"], fun _ => .readiness⟩,
  ⟨"GET", stocksPattern [], fun _ => .listStocks⟩,
  ⟨"GET", stocksPattern [.fixed "search"], fun _ => .search⟩,
  ⟨"GET", stocksPattern [.fixed "top-gainers"], fun _ => .topGainers⟩,
  ⟨"GET", stocksPattern [.fixed "top-market-cap"], fun _ => .topByMarketCap⟩,
  ⟨"GET", stocksPattern [.fixed "symbol", .parameter], .stockBySymbol⟩,
  ⟨"GET", stocksPattern [.fixed "sector", .parameter], .stocksOfSector⟩,
  ⟨"POST", stocksPattern [], fun _ => .createStock⟩,
  ⟨"GET", stocksPattern [.parameter], .stock⟩,
  ⟨"PUT", stocksPattern [.parameter], .updateStock⟩,
  ⟨"PATCH", stocksPattern [.parameter, .fixed "price"], .updatePrice⟩,
  ⟨"DELETE", stocksPattern [.parameter], .deleteStock⟩]

/-! ## Matching -/

/-- The parameter of a path that has a pattern, or nothing in its place if there is none. -/
def matchSegments : List Segment → List (List Char) → Option (List Char)
  | [.fixed s], [p] => if p = s.toList ∨ p = s.toList ++ ['\n'] then some [] else none
  | [.parameter], [p] => if p.isEmpty then none else some p
  | .fixed s :: rest, p :: ps => if p = s.toList then matchSegments rest ps else none
  | .parameter :: rest, p :: ps =>
    if p.isEmpty then none else (matchSegments rest ps).map fun _ => p
  | _, _ => none

/-- The parameter of a path that has a pattern. -/
def matchPattern (pattern : List Segment) : List Char → Option String
  | '/' :: rest => (matchSegments pattern (Text.pieces '/' rest)).map String.ofList
  | _ => none

/-- The parameter of a path that has the pattern of a route. -/
def Route.match? (r : Route) (path : List Char) : Option String := matchPattern r.pattern path

/-- A path without the slashes at its end. -/
def withoutSlashes (path : List Char) : List Char :=
  (path.reverse.dropWhile (· == '/')).reverse

/-- Where a request goes. -/
inductive Routing where
  | to (e : Endpoint)
  | wrongMethod
  | elsewhere (path : List Char)
  | nowhere

namespace Routing

/-- Whether a path has the pattern of some route. -/
def known (path : List Char) : Bool := routes.any fun r => (r.match? path).isSome

/-- The endpoint of the first route that has the pattern and the method of a request. -/
def endpoint? (method : String) (path : List Char) : Option Endpoint :=
  routes.findSome? fun r => if r.method == method then (r.match? path).map r.endpoint else none

/-- Where a request with a method and a path goes. -/
def find (method : String) (path : List Char) : Routing :=
  match endpoint? method path with
  | some e => .to e
  | none =>
    if known path then .wrongMethod
    else if path.getLast? == some '/' && known (withoutSlashes path) then
      .elsewhere (withoutSlashes path)
    else .nowhere

end Routing

end StockRegister.Web
