import SiteRouter.Pattern.Token

/-!
# The expression of a pattern

The text of the regular expression that a pattern stands for. Literals are escaped; a capture is a
group around its body, repeated with its lead between two values, and made optional together with
its lead unless it shares its segment. A pattern that is not strict takes one slash more or less at
the end, and one that need not reach the end of the path stops before a slash.
-/

namespace SiteRouter.Pattern

/-- The characters that need a backslash to stand for themselves. -/
def specialChars : List Char := "()[]\x7b\x7d?*+-|^$\\.&~# \t\n\r\x0b\x0c".toList

/-- The text with a backslash before the characters that need one. -/
def escapeLiteral (cs : List Char) : List Char :=
  cs.flatMap fun c => if specialChars.contains c then ['\\', c] else [c]

/-- The characters of a sub-pattern that get a backslash. -/
def guardedChars : List Char := "=!:$/()".toList

/-- The sub-pattern with a backslash before what could open a group or change its meaning. -/
def escapeBody (cs : List Char) : List Char :=
  cs.flatMap fun c => if guardedChars.contains c then ['\\', c] else [c]

/-- The text of what a capture may read. -/
def Capture.expression (c : Capture) : List Char :=
  match c.body with
  | .segment => "[^".toList ++ escapeLiteral [c.delimiter] ++ "]+?".toList
  | .anything => ".*".toList
  | .custom text => escapeBody text

/-- The text in a group that is not kept. -/
def plainGroup (cs : List Char) : List Char := "(?:".toList ++ cs ++ [')']

/-- The text in a group that is kept. -/
def keptGroup (cs : List Char) : List Char := '(' :: cs ++ [')']

/-- The text of one value of a capture. -/
def Capture.segmentExpression (c : Capture) : List Char := plainGroup c.expression

/-- The text of the values of a capture, with the lead between two of them. -/
def Capture.valuesExpression (c : Capture) : List Char :=
  if c.modifier.isRepeated then
    c.segmentExpression ++ plainGroup (escapeLiteral c.leadText ++ c.segmentExpression) ++ ['*']
  else c.segmentExpression

/-- The text of a token. -/
def Token.expression : Token → List Char
  | literal text => escapeLiteral text
  | capture c =>
    let lead := escapeLiteral c.leadText
    let kept := keptGroup c.valuesExpression
    if c.modifier.isOptional then
      if c.shared then lead ++ kept ++ ['?'] else plainGroup (lead ++ kept) ++ ['?']
    else lead ++ kept

/-- What a pattern is compiled for. -/
structure Options where
  /-- Whether upper and lower case differ. -/
  sensitive : Bool
  /-- Whether a slash at the end counts. -/
  strict : Bool
  /-- Whether a match must reach the end of the path. -/
  toEnd : Bool
deriving DecidableEq, Repr

/-- The text of the expression of a pattern. -/
def expression (o : Options) (ts : List Token) : List Char :=
  let route := ts.flatMap Token.expression
  let endsWithSlash := route.getLast? == some '/'
  let route :=
    if o.strict then route
    else (if endsWithSlash then route.dropLast else route) ++ "(?:/(?=\\Z))?".toList
  let route :=
    if o.toEnd then route ++ "\\Z".toList
    else if o.strict && endsWithSlash then route
    else route ++ "(?=/|\\Z)".toList
  '^' :: route

end SiteRouter.Pattern
