import SiteRouter.Route

/-!
# Registrations

A route is registered by a name, a name and a pattern, a name, a pattern and a page, or a pattern
and a page; or by fields, as a mapping or by keywords. `Registration.ofCall` brings all of these
into one form.
-/

namespace SiteRouter

/-- The shape in which a registration was given. -/
inductive RegistrationForm where
  | name
  | namePattern
  | namePatternPage
  | patternPage
  | descriptor
deriving DecidableEq, Repr

/-- A registration. -/
structure Registration where
  /-- The name, or nothing. -/
  name : Value
  /-- The pattern, or nothing. -/
  pattern : Value
  /-- The page, or nothing. -/
  page : Value
  /-- What else is known of the route. -/
  info : Value
  /-- The shape in which it was given. -/
  form : RegistrationForm

namespace Registration

/-- The names of the fields. -/
def fieldNames : List String := ["name", "pattern", "page", "meta"]

/-- The keys that are no option among the given ones. -/
def unknownKeys (options : List String) (data : Mapping) : List Value :=
  data.keys.filter fun
    | .str s => !options.contains s
    | _ => true

/-- Refuses keys that are no option among the given ones. -/
def checkKeys (options : List String) (data : Mapping) : Except Fault Unit :=
  match unknownKeys options data with
  | [] => .ok ()
  | unknown => do
    let names ← Value.sortedNames unknown
    .error (.unknownOptions names)

/-- The value, or nothing if it does not count as given. -/
def orNothing (v : Value) : Value := v.orElse .null

/-- The registration that a mapping of fields stands for. -/
def ofMapping (data : Mapping) : Except Fault Registration := do
  checkKeys fieldNames data
  let info ← (data.getD (.str "meta")).toMappingOrEmpty
  return {
    name := orNothing (data.getD (.str "name"))
    pattern := data.getD (.str "pattern")
    page := data.getD (.str "page")
    info := .map info
    form := .descriptor }

/-- The registration of positional arguments, the first of which is the given text. A text that
starts with a slash is a pattern. -/
def ofPositions (first : String) (args : List Value) (hasPattern : Bool) (info : Mapping) :
    Except Fault Registration :=
  if first.toList.head? = some '/' then
    match args with
    | [_] =>
      if hasPattern then .error (Fault.raised (.unsupportedArguments args))
      else .ok ⟨.null, .str first, .null, .map info, .patternPage⟩
    | [_, page] =>
      if hasPattern then .error (Fault.raised (.unsupportedArguments args))
      else .ok ⟨.null, .str first, page, .map info, .patternPage⟩
    | _ => .error (Fault.raised (.unsupportedArguments args))
  else
    match args with
    | [_] => .ok ⟨.str first, .null, .null, .map info, .name⟩
    | [_, pattern] => .ok ⟨.str first, pattern, .null, .map info, .namePattern⟩
    | [_, pattern, page] => .ok ⟨.str first, pattern, page, .map info, .namePatternPage⟩
    | _ => .error (Fault.raised (.unsupportedArguments args))

/-- The registration with the pattern and the page that keywords give. -/
def override (r : Registration) (options : Mapping) : Registration :=
  let pattern? := options.get? (.str "pattern")
  let page? := options.get? (.str "page")
  if pattern?.isSome || page?.isSome then
    { r with
      pattern := pattern?.getD r.pattern
      page := page?.getD r.page
      form := .descriptor }
  else r

/-- The registration of positional arguments with keywords. -/
def ofText (args : List Value) (options : Mapping) : Except Fault Registration := do
  match args with
  | .str first :: _ =>
    if 3 < args.length then .error (Fault.raised (.unsupportedArguments args))
    else
      checkKeys ["pattern", "page", "meta"] options
      let info ← (options.getD (.str "meta")).toMappingOrEmpty
      let r ← ofPositions first args (options.has (.str "pattern")) info
      let r := r.override options
      return { r with name := orNothing r.name }
  | _ => .error (Fault.raised (.unsupportedArguments args))

/-- The registration that arguments and keywords stand for. -/
def ofCall (args : List Value) (options : Mapping) : Except Fault Registration :=
  match args, options with
  | [], [] => .error .noRouteGiven
  | [], options => ofMapping options
  | [.spec name pattern page info], [] => .ok ⟨name, pattern, page, info, .descriptor⟩
  | [.map fields], [] => ofMapping fields
  | args, options => ofText args options

/-- Builds the route. -/
def build [CharacterNames] (r : Registration) (sensitive strict : Value) : Except Fault Route :=
  Route.build r.name r.pattern r.page r.info sensitive strict

end Registration

end SiteRouter
