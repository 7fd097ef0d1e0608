import SiteRouter.Page
import SiteRouter.Pattern.Compiled
import SiteRouter.Value.Convert

/-!
# Routes

A route binds a pattern to a page. `Route.match?` reads the parameters out of a path, and
`Route.urls` writes the pair of URLs for parameters: the internal reference, which is the page with
all parameters as its query, and the public path, which is the pattern with the parameters in their
places and the rest as its query.
-/

namespace SiteRouter

/-- The two URLs of a page. -/
structure UrlPair where
  /-- The internal reference. -/
  href : String
  /-- The public path. -/
  publicPath : String
deriving DecidableEq, Repr

/-- A pattern bound to a page. -/
structure Route where
  /-- The name, or nothing. -/
  name : Value
  /-- The pattern. -/
  pattern : String
  /-- The page in its normal form. -/
  page : String
  /-- What else is known of the route. -/
  info : Mapping
  /-- Whether upper and lower case differ. -/
  sensitive : Value
  /-- Whether a slash at the end counts. -/
  strict : Value
  /-- The compiled pattern. -/
  compiled : Pattern.Compiled

namespace Route

/-- Compiles the pattern of a route. -/
def compilePattern [CharacterNames] (pattern sensitive strict : Value) :
    Except Fault Pattern.Compiled :=
  match pattern with
  | .str s =>
    if sensitive.isKey && strict.isKey then
      Pattern.compile s ⟨sensitive.truthy, strict.truthy, true⟩
    else .error .wrongKind
  | _ => .error .wrongKind

/-- The page of a route, by default its name. -/
def pageOf (name pattern page : Value) : Except Fault Value :=
  if (page.orElse name).truthy then .ok (page.orElse name)
  else .error (Fault.raised (.missingPage pattern))

/-- The pattern of a route, by default the name after a slash. -/
def patternOf (name pattern : Value) : Except Fault Value :=
  if pattern.truthy then .ok pattern else name.format.map fun text => .str ("/" ++ text)

/-- The page in its normal form. -/
def normalizePage : Value → Except Fault String
  | .str s => .ok (Page.normalize s)
  | _ => .error .wrongKind

/-- Builds a route. Without a page its name is the page, and without a pattern the name after a
slash is the pattern. -/
def build [CharacterNames] (name pattern page info sensitive strict : Value) :
    Except Fault Route := do
  let page ← pageOf name pattern page
  let pattern ← patternOf name pattern
  let page ← normalizePage page
  let info ← info.toMappingOrEmpty
  let compiled ← compilePattern pattern sensitive strict
  return ⟨name, compiled.source, page, info, sensitive, strict, compiled⟩

/-- The names of the parameters, in order. -/
def paramKeys (r : Route) : List String := r.compiled.paramKeys

/-! ## Reading paths -/

/-- The parameters that captures read: those with a name and a text. -/
def bind (captures : List Pattern.Capture) (texts : List (Option String)) :
    List (String × String) :=
  (captures.zip texts).filterMap fun (c, text?) =>
    match c.key, text? with
    | .named name, some text => some (name, Text.Percent.decode text)
    | _, _ => none

/-- The parameters in a path, if the path matches. -/
def match? (r : Route) (path : String) : Option (List (String × String)) :=
  (r.compiled.groups? path).map (bind r.compiled.captures)

/-! ## Writing URLs -/

/-- The internal reference for parameters. -/
def href (r : Route) (params : Mapping) : Except Fault String :=
  (Query.write params).map fun query => r.page ++ "?" ++ query

/-- Whether the pattern has a parameter of the key. -/
def takes (r : Route) : Value → Bool
  | .str name => r.paramKeys.contains name
  | _ => false

/-- The parameters without a place in the pattern. -/
def leftover (r : Route) (params : Mapping) : Mapping :=
  params.filter fun (k, _) => !r.takes k

/-- The public path for parameters. -/
def publicPath (r : Route) (params : Mapping) : Except Fault String := do
  let path ← r.compiled.toPath params
  let path := if path = "" then "/" else path
  if (r.leftover params).isEmpty then return path
  else
    let query ← Query.write (r.leftover params)
    return path ++ "?" ++ query

/-- Both URLs for parameters. -/
def urls (r : Route) (params : Mapping) : Except Fault UrlPair := do
  let href ← r.href params
  let shown ← r.publicPath params
  return ⟨href, shown⟩

end Route

end SiteRouter
