import SiteRouter.Registration
import SiteRouter.Club
import SiteRouter.Config
import SiteRouter.Url.Parsed

/-!
# The registry of routes

Routes are registered in order until the registry is frozen. A name is registered once. A URL is
answered by the first route that matches its path; a name or a path is turned into a pair of URLs.
-/

namespace SiteRouter

/-- A table of routes. -/
structure Registry where
  /-- The settings. -/
  config : Config
  /-- The domain on which club folders are stripped. -/
  appDomain : Value
  /-- The rule for club folders. -/
  folders : ClubFolders
  /-- The routes in order. -/
  routes : List Route
  /-- Whether registration is closed. -/
  frozen : Bool

/-- A route with its place in the table. -/
structure Entry where
  /-- The place, counted from 0. -/
  index : Nat
  /-- The route. -/
  route : Route

namespace Registry

/-- A registry without routes; a domain given beside the settings replaces theirs. -/
def empty [CharacterNames] (config : Config) (appDomain : Option String) : Except Fault Registry :=
  (ClubFolders.ofValue config.clubsPrefix).map fun folders =>
    { config := config
      appDomain := match appDomain with
        | some d => .str d
        | none => config.appDomain
      folders := folders
      routes := []
      frozen := false }

/-! ## Look-up by name -/

/-- The first route with a name among routes of which the first has the given place. -/
def namedFrom (name : Value) : Nat → List Route → Option Entry
  | _, [] => none
  | i, r :: rs => if r.name.same name then some ⟨i, r⟩ else namedFrom name (i + 1) rs

/-- The route with a name; what does not count as given names none. -/
def named? (g : Registry) (name : Value) : Option Entry :=
  if name.truthy then namedFrom name 0 g.routes else none

/-! ## Registration -/

/-- Registers a route. -/
def register [CharacterNames] (g : Registry) (r : Registration) :
    Except Fault (Registry × Route) :=
  if g.frozen then .error (Fault.raised (.registryFrozen (r.name.orElse r.pattern)))
  else if (g.named? r.name).isSome then .error (Fault.raised (.duplicateRoute r.name))
  else
    (r.build g.config.caseSensitive g.config.strict).map fun route =>
      ({ g with routes := g.routes ++ [route] }, route)

/-- Registers the route that arguments and keywords stand for: the table afterwards, with the route
or the fault. The report on a route comes after its registration and shows the name, so a name that
is not written is a fault of a route that is in the table already. -/
def add [CharacterNames] (g : Registry) (args : List Value) (options : Mapping) :
    Registry × Except Fault Route :=
  match (Registration.ofCall args options).bind g.register with
  | .error f => (g, .error f)
  | .ok (g', route) => (g', if route.name.isWritable then .ok route else .error .wrongValue)

/-- What registering a route reports. -/
def addReport (r : Route) : List LogEntry :=
  [⟨.debug, .registry,
    "Added route " ++ r.name.literal ++ ": " ++ r.pattern ++ " -> " ++ r.page⟩]

/-- Closes registration. -/
def freeze (g : Registry) : Registry := { g with frozen := true }

/-- What closing registration reports. -/
def freezeReport (g : Registry) : List LogEntry :=
  [⟨.info, .registry,
    "Route registry frozen with " ++ toString g.routes.length ++ " routes"⟩]

/-! ## Matching -/

/-- A host as a value; there may be none. -/
def hostValue : Option String → Value
  | some h => .str h
  | none => .null

/-- Whether club folders are stripped for a host: it is the app domain, or both are missing. -/
def strips (g : Registry) (host : Option String) : Bool := (hostValue host).same g.appDomain

/-- The path that routes are matched with. -/
def normalizePath (g : Registry) (path : String) (host : Option String) : String :=
  if g.strips host then g.folders.strip path else path

/-- A route that matches, with the parameters in the path. -/
structure Hit where
  /-- The route with its place. -/
  entry : Entry
  /-- The parameters in order. -/
  params : List (String × String)

/-- The first match among routes of which the first has the given place. -/
def firstHit (path : String) : Nat → List Route → Option Hit
  | _, [] => none
  | i, r :: rs =>
    match r.match? path with
    | some params => some ⟨⟨i, r⟩, params⟩
    | none => firstHit path (i + 1) rs

/-- Parameters as entries of a mapping. -/
def paramEntries (params : List (String × String)) : Mapping :=
  params.map fun (k, v) => (.str k, .str v)

/-- What becomes of a URL. -/
structure Outcome where
  /-- The match, if a route matches. -/
  hit : Option Hit
  /-- The query of the URL, overlaid with the parameters of the match. -/
  query : Mapping
  /-- The parts of the URL. -/
  url : ParsedUrl

/-- The parameters of the match, or none. -/
def Outcome.params (o : Outcome) : List (String × String) :=
  match o.hit with
  | some h => h.params
  | none => []

/-- Finds the first route that matches a URL. -/
def resolve (g : Registry) (url : String) (host : Option String) : Outcome :=
  let parsed := ParsedUrl.parse url
  match firstHit (g.normalizePath parsed.pathname host) 0 g.routes with
  | some h => ⟨some h, parsed.query.putAll (paramEntries h.params), parsed⟩
  | none => ⟨none, parsed.query, parsed⟩

/-- What stripping the folder of a path reports. -/
def normalizeReport (g : Registry) (path : String) (host : Option String) : List LogEntry :=
  if g.strips host then g.folders.stripReport path else []

/-- What matching a URL reports. -/
def resolveReport (g : Registry) (url : String) (host : Option String) : List LogEntry :=
  let o := g.resolve url host
  let path := o.url.pathname
  g.normalizeReport path host ++
    (if o.hit.isSome then []
    else
      [⟨.debug, .registry, "No route matches " ++ Text.quoted (g.normalizePath path host)⟩])

/-! ## URLs -/

/-- The URLs of a name or a path. -/
structure Found where
  /-- The route, if there is one. -/
  entry : Option Entry
  /-- The URLs. -/
  urls : UrlPair
  /-- Whether the route was found by its name. -/
  byName : Bool

/-- The URLs of a path: the path itself, and the reference of the route that matches it. -/
def findPath (g : Registry) (path : String) : Except Fault Found :=
  let o := g.resolve path none
  match o.hit with
  | some h => (h.entry.route.href o.query).map fun href => ⟨some h.entry, ⟨href, path⟩, false⟩
  | none => .ok ⟨none, ⟨path, path⟩, false⟩

/-- The URLs of the route with a name, or else of a path. -/
def find (g : Registry) (nameOrPath : Value) (params : Mapping) : Except Fault Found :=
  match g.named? nameOrPath with
  | some e => (e.route.urls params).map (⟨some e, ·, true⟩)
  | none =>
    match nameOrPath with
    | .str path => g.findPath path
    | v => .error v.textFault

/-- What finding URLs reports. -/
def findReport (g : Registry) (nameOrPath : Value) : List LogEntry :=
  match g.named? nameOrPath, nameOrPath with
  | none, .str path => g.resolveReport path none
  | _, _ => []

/-- The club that a value stands for. -/
def clubOf : Value → Except Fault Club
  | .tenant folder domain => .ok ⟨folder, domain⟩
  | v => v.toMapping.bind Club.ofMapping

/-- The URLs of the route with a name for a club. The public path lies in the folder of the club,
unless the club has a domain of its own. -/
def findForClub (g : Registry) (club name : Value) (params : Mapping) :
    Except Fault (Entry × UrlPair) := do
  let club ← clubOf club
  match g.named? name with
  | none => .error (Fault.raised (.routeNotFound name))
  | some e =>
    let urls ← e.route.urls params
    if club.hasOwnDomain then return (e, urls)
    else
      let folder ← club.folder.format
      return (e, { urls with publicPath := g.folders.prefixPath folder urls.publicPath })

end Registry

end SiteRouter
