import SiteRouter.Registry

/-!
# Navigation

Names and paths as calls of a client router, and as the properties of a link.
-/

namespace SiteRouter.Navigation

/-- What a client router does with a pair of URLs. -/
inductive Action where
  | push
  | replace
  | prefetch
deriving DecidableEq, Repr

/-- The name of an action. -/
def Action.name : Action → String
  | push => "push"
  | replace => "replace"
  | prefetch => "prefetch"

/-- A call of a client router. -/
structure Call where
  action : Action
  urls : UrlPair
  options : Value

/-- Parameters that may be missing, as a value. -/
def paramsValue : Option Mapping → Value
  | some m => .map m
  | none => .null

/-- Goes to the route with a name, or to a path. The parameters of a path are handed on in place of
the options. -/
def go (g : Registry) (action : Action) (nameOrPath : Value) (params : Option Mapping)
    (options : Value) : Except Fault Call :=
  (g.find nameOrPath (params.getD [])).map fun found =>
    ⟨action, found.urls, if found.byName then options else paramsValue params⟩

/-- What going somewhere reports. -/
def goReport (g : Registry) (nameOrPath : Value) (call : Call) : List LogEntry :=
  g.findReport nameOrPath ++
    [⟨.debug, .navigator,
      call.action.name ++ " " ++ call.urls.href ++ " as " ++ call.urls.publicPath⟩]

/-- Goes to the route with a name for a club. -/
def goForClub (g : Registry) (action : Action) (club name : Value) (params : Option Mapping)
    (options : Value) : Except Fault Call :=
  (g.findForClub club name (params.getD [])).map fun (_, urls) => ⟨action, urls, options⟩

/-- The name or path of a link, if it has one. -/
def linkTarget? (route path : Value) : Option Value :=
  let target := route.orElse path
  if target.truthy then some target else none

/-- The properties of a link with the URLs of its target in them. -/
def linkProps (g : Registry) (route path : Value) (params : Option Mapping) (props : Mapping) :
    Except Fault Mapping :=
  match linkTarget? route path with
  | none => .ok props
  | some target =>
    (g.find target (params.getD [])).map fun found =>
      props.putAll
        [(.str "href", .str found.urls.href), (.str "as", .str found.urls.publicPath)]

/-- What making the properties of a link reports. -/
def linkReport (g : Registry) (route path : Value) : List LogEntry :=
  match linkTarget? route path with
  | none => []
  | some target => g.findReport target

end SiteRouter.Navigation
