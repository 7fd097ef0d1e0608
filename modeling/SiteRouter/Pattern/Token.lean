import SiteRouter.Pattern.Piece
import SiteRouter.Fault

/-!
# The tokens of a pattern

A pattern is read as literals and captures in turn. Literals are never empty and never stand side
by side; captures without a name are numbered from 0, and no name is used twice.
-/

namespace SiteRouter.Pattern

/-- What a capture may read. -/
inductive Body where
  /-- At least one character and no delimiter. -/
  | segment
  /-- Anything up to the end of the line. -/
  | anything
  /-- What a sub-pattern says. -/
  | custom (text : List Char)
deriving DecidableEq, Repr

/-- A capture of a pattern. -/
structure Capture where
  /-- What it is bound under. -/
  key : Key
  /-- The slash or point before it. -/
  lead : Option Char
  /-- What it may read. -/
  body : Body
  /-- How many values it takes. -/
  modifier : Modifier
  /-- Whether it shares its segment with the text after it: it has a lead, and a character other
  than the lead follows. -/
  shared : Bool
deriving DecidableEq, Repr

namespace Capture

/-- The character between two values: the lead, or a slash. -/
def delimiter (c : Capture) : Char := c.lead.getD '/'

/-- The text before the first value. -/
def leadText (c : Capture) : List Char := c.lead.toList

/-- Whether the capture is a star. -/
def isStar (c : Capture) : Bool := c.body == .anything

/-- Whether the capture has a name. -/
def isNamed (c : Capture) : Bool := c.key.name?.isSome

end Capture

/-- A literal or a capture. -/
inductive Token where
  | literal (text : List Char)
  | capture (c : Capture)
deriving DecidableEq, Repr

/-- The capture of a token that is one. -/
def Token.capture? : Token → Option Capture
  | literal _ => none
  | capture c => some c

/-- The captures among tokens, in order. -/
def captures (ts : List Token) : List Capture := ts.filterMap Token.capture?

/-- What has been read of a pattern. -/
structure Reader where
  /-- The tokens read, latest first. -/
  tokens : List Token
  /-- The characters of the literal being read, latest first. -/
  pending : List Char
  /-- The names used. -/
  names : List (List Char)
  /-- The number of captures without a name. -/
  unnamed : Nat
deriving Repr

namespace Reader

/-- Before the first piece. -/
def start : Reader := ⟨[], [], [], 0⟩

/-- Ends the literal being read. -/
def flush (r : Reader) : List Token :=
  if r.pending.isEmpty then r.tokens else .literal r.pending.reverse :: r.tokens

/-- Whether a capture with the lead shares its segment with the text after it. -/
def sharesSegment (lead next : Option Char) : Bool :=
  lead.isSome && next.isSome && next != lead

/-- Adds a capture without a name. -/
def addUnnamed (r : Reader) (lead : Option Char) (body : Body) (modifier : Modifier)
    (next : Option Char) : Reader :=
  { r with
    tokens := .capture ⟨.position r.unnamed, lead, body, modifier, sharesSegment lead next⟩ ::
      r.flush
    pending := []
    unnamed := r.unnamed + 1 }

/-- Adds a capture with a name. -/
def addNamed (r : Reader) (name : List Char) (lead : Option Char) (body : Body)
    (modifier : Modifier) (next : Option Char) : Reader :=
  { r with
    tokens :=
      .capture ⟨.named (String.ofList name), lead, body, modifier, sharesSegment lead next⟩ ::
        r.flush
    pending := []
    names := name :: r.names }

/-- Reads one piece. -/
def read (r : Reader) : Piece → Except PatternFault Reader
  | .plain c =>
    if c = '(' || c = ')' then .error .unbalancedParenthesis
    else .ok { r with pending := c :: r.pending }
  | .escaped c => .ok { r with pending := c :: r.pending }
  | .capture lead form modifier next =>
    match form with
    | .star => .ok (r.addUnnamed lead .anything modifier next)
    | .group body => .ok (r.addUnnamed lead (.custom body) modifier next)
    | .parameter name body? =>
      if r.names.contains name then .error (.duplicateParameter (String.ofList name))
      else
        let body := match body? with
          | some body => .custom body
          | none => .segment
        .ok (r.addNamed name lead body modifier next)

/-- Reads pieces one after the other. -/
def readAll (r : Reader) : List Piece → Except PatternFault Reader
  | [] => .ok r
  | p :: ps => (r.read p).bind (readAll · ps)

/-- Reading two texts in turn is reading the first and going on with the second. -/
theorem readAll_append (r : Reader) (ps qs : List Piece) :
    r.readAll (ps ++ qs) = (r.readAll ps).bind (readAll · qs) := by
  induction ps generalizing r with
  | nil => rfl
  | cons p ps ih =>
    simp only [List.cons_append, readAll]
    cases r.read p with
    | error f => rfl
    | ok r' => exact ih r'

/-- The tokens read. -/
def finish (r : Reader) : List Token := r.flush.reverse

end Reader

/-- The tokens of a pattern. -/
def parse (cs : List Char) : Except PatternFault (List Token) :=
  (Reader.start.readAll (pieces cs)).map Reader.finish

end SiteRouter.Pattern
