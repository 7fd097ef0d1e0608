import SiteRouter.Pattern.Key

/-!
# Faults

Why an operation is refused: one constructor for each cause, and the wording in `Fault.message`. A
cause without a wording is a misuse that is told by its kind alone.
-/

namespace SiteRouter

/-- What is wrong with a pattern. -/
inductive PatternFault where
  /-- A parenthesis that belongs to no capture. -/
  | unbalancedParenthesis
  /-- A second parameter of one name. -/
  | duplicateParameter (name : String)
deriving DecidableEq, Repr

/-- The wording of a fault of a pattern. -/
def PatternFault.message : PatternFault → String
  | unbalancedParenthesis => "unbalanced parenthesis"
  | duplicateParameter name => "duplicate parameter \"" ++ name ++ "\""

/-- Why an operation is refused. -/
inductive Fault where
  /-- A route of that name is registered. -/
  | duplicateRoute (name : Value)
  /-- Neither a page nor a name to derive it from. -/
  | missingPage (pattern : Value)
  /-- A pattern that is no pattern. -/
  | invalidPattern (pattern : String) (reason : PatternFault)
  /-- A pattern whose sub-patterns make no expression. -/
  | invalidExpression (pattern : String)
  /-- A registration after the registry was frozen. -/
  | registryFrozen (label : Value)
  /-- A registration without arguments. -/
  | noRouteGiven
  /-- Options that a registration does not have. -/
  | unknownOptions (names : List String)
  /-- Arguments of no accepted shape. -/
  | unsupportedArguments (args : List Value)
  /-- An entry of a route document that is no registration. -/
  | unsupportedEntry (position : Nat) (kind : String)
  /-- A file of a kind that is not read. -/
  | unknownFormat (path : String)
  /-- A route document that is no mapping. -/
  | documentNotMapping (origin : String)
  /-- A route document whose routes are no list. -/
  | routesNotList (origin : String)
  /-- A required parameter without a value. -/
  | missingParameter (key : Key)
  /-- A sequence for a parameter that takes one value. -/
  | notRepeated (key : Key) (items : List Value)
  /-- An empty sequence for a parameter that needs a value. -/
  | emptySequence (key : Key)
  /-- An element of a sequence that does not fit its segment. -/
  | elementMismatch (key : Key) (pattern segment : String)
  /-- A value that does not fit its segment. -/
  | valueMismatch (key : Key) (pattern segment : String)
  /-- No route of that name is registered. -/
  | routeNotFound (name : Value)
  /-- A dispatcher with nothing to run. -/
  | noHandler
  /-- A value of a kind that the operation does not take. -/
  | wrongKind
  /-- A value of the right kind that the operation does not take. -/
  | wrongValue
  /-- A mapping without a required key. -/
  | missingKey
  /-- A value of a kind that lacks the operation. -/
  | missingOperation
  /-- A number above the range of the operation. -/
  | outOfRange
  /-- A text that is no JSON. -/
  | badJson
  /-- A text that is no YAML. -/
  | badYaml
  /-- A path without a file. -/
  | noSuchFile
  /-- A path of a directory. -/
  | isDirectory

namespace Fault

/-- A text between quotation marks, as it is. -/
def inMarks (s : String) : String := "\"" ++ s ++ "\""

/-- The wording of a fault. -/
def message : Fault → Option String
  | duplicateRoute name => some ("Route " ++ inMarks name.display ++ " already exists")
  | missingPage pattern =>
    some ("Missing page to render for route " ++ inMarks pattern.display)
  | invalidPattern pattern reason =>
    some ("Invalid pattern " ++ Text.quoted pattern ++ ": " ++ reason.message)
  | registryFrozen label => some ("Cannot add route " ++ label.literal ++ " after freeze()")
  | noRouteGiven => some "No route given"
  | unknownOptions names =>
    some ("Unknown route option(s): " ++ String.intercalate ", " names)
  | unsupportedArguments args =>
    some ("Unsupported route arguments: " ++ (Value.tuple args).literal)
  | unsupportedEntry position kind =>
    some ("Route entry #" ++ toString position ++ " has unsupported type " ++ kind)
  | unknownFormat path => some ("Unknown config format: " ++ path)
  | documentNotMapping origin => some ("Route document " ++ origin ++ " must be a mapping")
  | routesNotList origin => some ("'routes' in " ++ origin ++ " must be a list")
  | missingParameter key => some ("Expected " ++ inMarks key.text ++ " to be defined")
  | notRepeated key items =>
    some ("Expected " ++ inMarks key.text ++ " to not repeat, but received " ++
      (Value.list items).literal)
  | emptySequence key => some ("Expected " ++ inMarks key.text ++ " to not be empty")
  | elementMismatch key pattern segment =>
    some ("Expected all " ++ inMarks key.text ++ " to match " ++ inMarks pattern ++
      ", but received " ++ Text.quoted segment)
  | valueMismatch key pattern segment =>
    some ("Expected " ++ inMarks key.text ++ " to match " ++ inMarks pattern ++
      ", but received " ++ Text.quoted segment)
  | routeNotFound name => some ("Route " ++ inMarks name.display ++ " is not registered")
  | noHandler => some "RequestHandler needs a render function or a custom handler"
  | _ => none

/-- The values that the wording of a fault shows. -/
def shown : Fault → List Value
  | duplicateRoute name => [name]
  | missingPage pattern => [pattern]
  | registryFrozen label => [label]
  | unsupportedArguments args => args
  | notRepeated _ items => items
  | routeNotFound name => [name]
  | _ => []

/-- The fault as it is raised. Where its wording would show a value that is not written, that is the
fault instead. -/
def raised (f : Fault) : Fault := if Value.areWritable f.shown then f else .wrongValue

/-- Whether the fault lies in how the table of routes is set up. -/
def isConfiguration : Fault → Bool
  | duplicateRoute _ | missingPage _ | invalidPattern _ _ | invalidExpression _
  | registryFrozen _ | noRouteGiven | unknownOptions _ | unsupportedArguments _
  | unsupportedEntry _ _ | unknownFormat _ | documentNotMapping _ | routesNotList _ => true
  | _ => false

end Fault

end SiteRouter
