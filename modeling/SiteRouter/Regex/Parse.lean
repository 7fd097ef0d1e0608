import SiteRouter.Regex.Lexeme

/-!
# Reading an expression

Lexemes are read one by one into a stack of open groups. The state after a text is that after its
first part, continued over the rest, so that statements about an expression can be put together
from statements about the parts of its text (`Builder.readAll_append`).
-/

namespace SiteRouter.Regex

/-- What a repetition after a piece would do. -/
inductive Repeatable where
  /-- It repeats the piece. -/
  | yes
  /-- It is a fault, because the piece is a place. -/
  | place
  /-- It is a fault, because the piece is a repetition already. -/
  | already
deriving DecidableEq, Repr

/-- A piece of an alternative. -/
structure Piece where
  /-- The expression of the piece. -/
  expr : Regex
  /-- What a repetition after it would do. -/
  repeatable : Repeatable
deriving Repr

/-- What becomes of the expression of a group when the group ends. -/
inductive GroupKind where
  | capture (number : Nat)
  | plain
  | atomic
  | ahead
deriving DecidableEq, Repr

/-- The expression of a finished group. -/
def GroupKind.wrap : GroupKind → Regex → Regex
  | capture n, r => .group n r
  | plain, r => r
  | atomic, r => .atomic r
  | ahead, r => .ahead r

/-- A level of nesting: the alternatives before the last bar and the pieces after it, latest
first. -/
structure Level where
  alternatives : List Regex
  pieces : List Piece
deriving Repr

namespace Level

/-- A level without a piece. -/
def fresh : Level := ⟨[], []⟩

/-- Adds a piece. -/
def push (l : Level) (p : Piece) : Level := { l with pieces := p :: l.pieces }

/-- The expression of the pieces after the last bar. -/
def current (l : Level) : Regex := sequence (l.pieces.reverse.map (·.expr))

/-- Ends an alternative. -/
def bar (l : Level) : Level := ⟨l.current :: l.alternatives, []⟩

/-- The expression of the level. -/
def expr (l : Level) : Regex := Regex.alternatives (l.current :: l.alternatives).reverse

end Level

/-- What has been read of an expression. -/
structure Builder where
  /-- The innermost open level. -/
  top : Level
  /-- The levels around it with the kinds of the groups inside them, innermost first. -/
  outer : List (GroupKind × Level)
  /-- The number of groups opened so far whose text is kept. -/
  groups : Nat
  /-- The names of those groups. -/
  names : List (List Char)
deriving Repr

namespace Builder

/-- Before the first lexeme. -/
def start : Builder := ⟨.fresh, [], 0, []⟩

/-- Adds a piece to the innermost level. -/
def push (b : Builder) (r : Regex) (repeatable : Repeatable) : Builder :=
  { b with top := b.top.push ⟨r, repeatable⟩ }

/-- Opens a group. -/
def enter (b : Builder) (kind : GroupKind) : Builder :=
  { b with top := .fresh, outer := (kind, b.top) :: b.outer }

/-- Whether the group with the number is still open. -/
def isOpen (b : Builder) (number : Nat) : Bool :=
  b.outer.any fun (kind, _) => kind == .capture number

/-- Opens a group of the kind that a lexeme names. -/
def opening (b : Builder) : Opening → Except SyntaxFault Builder
  | .plain => .ok (b.enter .plain)
  | .atomic => .ok (b.enter .atomic)
  | .ahead => .ok (b.enter .ahead)
  | .capture none => .ok { b.enter (.capture (b.groups + 1)) with groups := b.groups + 1 }
  | .capture (some name) =>
    if b.names.contains name then .error .duplicateGroupName
    else
      .ok { b.enter (.capture (b.groups + 1)) with
        groups := b.groups + 1, names := name :: b.names }

/-- Ends the innermost group. -/
def closing (b : Builder) : Except SyntaxFault Builder :=
  match b.outer with
  | [] => .error .unbalancedParenthesis
  | (kind, level) :: outer =>
    .ok { b with top := level.push ⟨kind.wrap b.top.expr, .yes⟩, outer := outer }

/-- Repeats the last piece. -/
def count (b : Builder) (min : Nat) (max : Option Nat) (mode : Mode) :
    Except SyntaxFault Builder :=
  match b.top.pieces with
  | [] => .error .nothingToRepeat
  | p :: pieces =>
    match p.repeatable with
    | .place => .error .nothingToRepeat
    | .already => .error .multipleRepeat
    | .yes =>
      .ok { b with
        top := { b.top with pieces := ⟨.repeated p.expr min max mode, .already⟩ :: pieces } }

/-- Refers to a group that has ended. -/
def backref (b : Builder) (number : Nat) : Except SyntaxFault Builder :=
  if b.groups < number then .error .unknownReference
  else if b.isOpen number then .error .openReference
  else .ok (b.push (.backref number) .yes)

/-- Reads one lexeme. -/
def read (b : Builder) : Lexeme → Except SyntaxFault Builder
  | .single r => .ok (b.push r .yes)
  | .anchor a => .ok (b.push (.anchor a) .place)
  | .backref n => b.backref n
  | .bar => .ok { b with top := b.top.bar }
  | .opening kind => b.opening kind
  | .closing => b.closing
  | .count min max mode => b.count min max mode
  | .fault f => .error f

/-- Reads lexemes one after the other. -/
def readAll (b : Builder) : List Lexeme → Except SyntaxFault Builder
  | [] => .ok b
  | l :: ls => (b.read l).bind (readAll · ls)

@[simp] theorem readAll_nil (b : Builder) : b.readAll [] = .ok b := rfl

@[simp] theorem readAll_cons (b : Builder) (l : Lexeme) (ls : List Lexeme) :
    b.readAll (l :: ls) = (b.read l).bind (readAll · ls) := rfl

/-- Reading two texts in turn is reading the first and going on with the second. -/
theorem readAll_append (b : Builder) (ls ms : List Lexeme) :
    b.readAll (ls ++ ms) = (b.readAll ls).bind (readAll · ms) := by
  induction ls generalizing b with
  | nil => rfl
  | cons l ls ih =>
    simp only [List.cons_append, readAll_cons]
    cases b.read l with
    | error f => rfl
    | ok b' => exact ih b'

end Builder

/-- An expression and the number of its groups whose text is kept. -/
structure Program where
  /-- The expression. -/
  expr : Regex
  /-- The number of its groups. -/
  groups : Nat
deriving Repr

/-- Reads the text of an expression. -/
def parse [CharacterNames] (cs : List Char) : Except SyntaxFault Program := do
  let b ← Builder.start.readAll (lexemes cs)
  if b.outer.isEmpty then return ⟨b.top.expr, b.groups⟩ else .error .unterminatedGroup

end SiteRouter.Regex
