import SiteRouter.Pattern.Expression
import SiteRouter.Regex.Parse
import SiteRouter.Regex.Match
import SiteRouter.Url.Query

/-!
# Compiled patterns

A compiled pattern reads paths and writes them. Both directions come from the same tokens:
`Compiled.groups?` gives what the captures read in a path, `Compiled.toPath` puts values in their
places, each checked against what its capture may read.
-/

namespace SiteRouter.Pattern

/-- The characters besides the unreserved ones that the value of a star keeps. -/
def starSafe : List Char := componentSafe ++ ";,/:@&=+$".toList

/-- A literal, or a capture with the expression for one value of it. -/
inductive Step where
  | literal (text : List Char)
  | capture (c : Capture) (segment : Regex)
deriving Repr

/-- A pattern ready for use. -/
structure Compiled where
  /-- The text of the pattern. -/
  source : String
  /-- What the pattern is compiled for. -/
  options : Options
  /-- Its tokens. -/
  tokens : List Token
  /-- Its tokens with the expressions of the captures. -/
  steps : List Step
  /-- The expression for a path. -/
  program : Regex.Program
deriving Repr

/-- The fault of a pattern whose expression is rejected. -/
def expressionFault (pattern : String) : Regex.SyntaxFault → Fault
  | .countTooLarge => .outOfRange
  | .codeTooLarge => .outOfRange
  | .countTooLong => .wrongValue
  | _ => .invalidExpression pattern

/-- Reads the text of an expression that comes from a pattern. -/
def parseExpression [CharacterNames] (pattern : String) (cs : List Char) :
    Except Fault Regex.Program :=
  (Regex.parse cs).mapError (expressionFault pattern)

/-- The step of a token. -/
def Token.toStep [CharacterNames] (pattern : String) : Token → Except Fault Step
  | literal text => .ok (.literal text)
  | capture c =>
    (parseExpression pattern c.segmentExpression).map fun p => .capture c p.expr

/-- The steps of tokens, in order. -/
def toSteps [CharacterNames] (pattern : String) : List Token → Except Fault (List Step)
  | [] => .ok []
  | t :: ts => do
    let s ← t.toStep pattern
    let ss ← toSteps pattern ts
    return s :: ss

/-- Compiles a pattern. The expression for a path is read before those of the captures. -/
def compile [CharacterNames] (pattern : String) (o : Options) : Except Fault Compiled := do
  let ts ← (parse pattern.toList).mapError (Fault.invalidPattern pattern)
  let program ← parseExpression pattern (expression o ts)
  let steps ← toSteps pattern ts
  return ⟨pattern, o, ts, steps, program⟩

namespace Compiled

/-- The captures of the pattern, in order. -/
def captures (p : Compiled) : List Capture := Pattern.captures p.tokens

/-- The names of its captures, in order. -/
def paramKeys (p : Compiled) : List String := p.captures.filterMap (·.key.name?)

/-- Whether upper and lower case are the same. -/
def ignoreCase (p : Compiled) : Bool := !p.options.sensitive

/-- What the groups of the expression read in a path, if the path matches. -/
def groups? (p : Compiled) (path : String) : Option (List (Option String)) :=
  (p.program.expr.matchStart p.ignoreCase path.toList).map fun c =>
    (c.groups p.program.groups).map (·.map String.ofList)

/-! ## Writing paths -/

/-- A value in the path of a capture. -/
def encodeValue (c : Capture) (v : Value) : List Char :=
  Text.Percent.encodeChars (if c.isStar then starSafe else componentSafe) v.text.toList

/-- An element of a sequence in a path. -/
def encodeElement (v : Value) : List Char :=
  Text.Percent.encodeChars componentSafe v.text.toList

/-- The elements of a sequence after their delimiters, `lead` standing before the first. -/
def writeElements (p : Compiled) (c : Capture) (segment : Regex) :
    List Char → List Value → Except Fault (List Char)
  | _, [] => .ok []
  | lead, v :: vs =>
    let text := encodeElement v
    if !v.isWritable then .error .wrongValue
    else if segment.matchesAll p.ignoreCase text then
      (writeElements p c segment [c.delimiter] vs).map fun rest => lead ++ text ++ rest
    else
      .error (.elementMismatch c.key (String.ofList c.expression) (String.ofList text))

/-- The text that a capture contributes for a value. -/
def writeCapture (p : Compiled) (c : Capture) (segment : Regex) (v : Value) :
    Except Fault (List Char) :=
  if v.isNull then
    if c.modifier.isOptional then .ok (if c.shared then c.leadText else [])
    else if !c.isNamed && segment.matchesAll p.ignoreCase [] then .ok []
    else .error (.missingParameter c.key)
  else
    match v.sequence? with
    | some items =>
      if !c.modifier.isRepeated then .error (Fault.raised (.notRepeated c.key items))
      else if items.isEmpty then
        if c.modifier.isOptional then .ok [] else .error (.emptySequence c.key)
      else writeElements p c segment c.leadText items
    | none =>
      let text := encodeValue c v
      if !v.isWritable then .error .wrongValue
      else if segment.matchesAll p.ignoreCase text then .ok (c.leadText ++ text)
      else .error (.valueMismatch c.key (String.ofList c.expression) (String.ofList text))

/-- The text that a step contributes. -/
def writeStep (p : Compiled) (params : Mapping) : Step → Except Fault (List Char)
  | .literal text => .ok text
  | .capture c segment => p.writeCapture c segment (params.getD c.key.toValue)

/-- The text of steps in turn; the first fault decides. -/
def writeSteps (p : Compiled) (params : Mapping) : List Step → Except Fault (List Char)
  | [] => .ok []
  | s :: ss => do
    let text ← p.writeStep params s
    let rest ← p.writeSteps params ss
    return text ++ rest

/-- The path with values in the places of the captures; it may be empty. -/
def toPath (p : Compiled) (params : Mapping) : Except Fault String :=
  (p.writeSteps params p.steps).map String.ofList

end Compiled

end SiteRouter.Pattern
