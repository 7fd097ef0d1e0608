import SiteRouter.Registry

/-!
# Dispatch

A request is redirected, rendered, handed to a handler or to a fallback, or answered with "not
found". A path that starts with two slashes is redirected to the path without the first of them.
-/

namespace SiteRouter

/-- A request. -/
structure Request where
  /-- The path with the query string. -/
  url : String
  /-- The host. -/
  host : String
  /-- The method. -/
  method : String
  /-- The headers in order. -/
  headers : Mapping
  /-- The URL before the transport changed it. -/
  receivedUrl : String

namespace Request

/-- A request; one without a received URL was received under its URL. -/
def make (url host method : String) (headers : Mapping) (receivedUrl : String) : Request :=
  ⟨url, host, method, headers, if receivedUrl = "" then url else receivedUrl⟩

/-- The path without the query string. -/
def path (r : Request) : String := String.ofList (Query.cutAt '?' r.url.toList).1

/-- The value of the first header with a name in any case. -/
def headerIn (name : String) (default : Value) : Mapping → Except Fault Value
  | [] => .ok default
  | (.str key, value) :: rest =>
    if Text.lowercase key = Text.lowercase name then .ok value else headerIn name default rest
  | (.object o _, _) :: rest =>
    if o.isOctets then headerIn name default rest else .error .missingOperation
  | _ :: _ => .error .missingOperation

/-- The value of the header with a name, or the given one. -/
def header (r : Request) (name : String) (default : Value) : Except Fault Value :=
  headerIn name default r.headers

end Request

/-- A response that the dispatcher makes itself. -/
structure Response where
  /-- The status. -/
  status : Int
  /-- The body. -/
  body : String
  /-- The headers in order. -/
  headers : Mapping

namespace Response

/-- Whether the status is one of a redirect. -/
def isRedirect (r : Response) : Bool := 300 ≤ r.status && r.status < 400

/-- The target of a redirect. -/
def location (r : Response) : Value := r.headers.getD (.str "Location")

/-- A redirect to a location. -/
def redirect (location : String) (status : Int) : Response :=
  ⟨status, "", [(.str "Location", .str location)]⟩

/-- The status of a redirect that stays. -/
def permanentRedirect : Int := 308

/-- The answer where nothing serves the request. -/
def notFound : Response := ⟨404, "Not Found", []⟩

end Response

/-- What a dispatcher has to run. -/
structure Handlers where
  /-- A function that renders a page. -/
  render : Bool
  /-- A function that serves a match in place of rendering. -/
  custom : Bool
  /-- A function that serves what no route matches. -/
  fallback : Bool
deriving DecidableEq, Repr

/-- What becomes of a request. -/
inductive Dispatched where
  /-- The dispatcher answers. -/
  | response (r : Response)
  /-- The page is rendered with the query. -/
  | render (page : String) (query : Mapping)
  /-- The handler serves the match. -/
  | custom (entry : Entry) (query : Mapping) (params : List (String × String))
  /-- The fallback serves the URL. -/
  | fallback (url : ParsedUrl)

namespace Handlers

/-- Refuses a dispatcher that could not serve a match. -/
def check (h : Handlers) : Except Fault Unit :=
  if h.render || h.custom then .ok () else .error .noHandler

/-- Whether the text starts with two slashes. -/
def startsDoubled (s : String) : Bool :=
  match s.toList with
  | '/' :: '/' :: _ => true
  | _ => false

/-- What becomes of a request that is matched. -/
def serve (h : Handlers) (o : Registry.Outcome) : Dispatched :=
  match o.hit with
  | some hit =>
    if h.custom then .custom hit.entry o.query hit.params
    else .render hit.entry.route.page o.query
  | none => if h.fallback then .fallback o.url else .response .notFound

/-- What becomes of a request. -/
def dispatch (h : Handlers) (g : Registry) (r : Request) : Dispatched :=
  if startsDoubled r.receivedUrl then
    .response (.redirect (String.ofList (r.receivedUrl.toList.drop 1))
      Response.permanentRedirect)
  else h.serve (g.resolve r.url (some r.host))

/-- The fault of the report that closes a dispatch, if it has one. The report shows the name of the
route that was served, or else its pattern. -/
def closingFault? (g : Registry) (r : Request) : Option Fault :=
  if startsDoubled r.receivedUrl then none
  else
    (g.resolve r.url (some r.host)).hit.bind fun hit =>
      let route := hit.entry.route
      if (route.name.orElse (.str route.pattern)).isWritable then none else some .wrongValue

end Handlers

/-- What matching a request reports; a request that is redirected is not matched. -/
def Request.matchReport (r : Request) (g : Registry) : List LogEntry :=
  if Handlers.startsDoubled r.receivedUrl then [] else g.resolveReport r.url (some r.host)

end SiteRouter
