import SiteRouter.Regex.Basic

/-!
# Matching

`Regex.run` walks an expression over a text and hands every place it can reach, in order of
preference, to a continuation, until the continuation accepts one. The first acceptance decides the
groups. A repetition makes no further round after one that read nothing, so that every run ends.
-/

namespace SiteRouter.Regex

open Text

/-- A piece of the text: the text from its first character on, and its length. -/
structure Span where
  /-- The text from the first character of the piece on. -/
  start : List Char
  /-- The number of characters of the piece. -/
  length : Nat

/-- The characters of the piece. -/
def Span.chars (s : Span) : List Char := s.start.take s.length

/-- A place in the text with the groups kept on the way to it. -/
structure Cursor where
  /-- The number of characters before the place. -/
  pos : Nat
  /-- The character before the place. -/
  prev : Option Char
  /-- The text after the place. -/
  rest : List Char
  /-- The pieces kept for groups, latest first. -/
  kept : List (Nat × Span)

namespace Cursor

/-- The start of a text. -/
def atStart (cs : List Char) : Cursor := ⟨0, none, cs, []⟩

/-- The piece last kept for a group. -/
def group? (c : Cursor) (number : Nat) : Option Span := c.kept.lookup number

/-- Keeps the text since an earlier place for a group. -/
def keep (c : Cursor) (number : Nat) (since : Cursor) : Cursor :=
  { c with kept := (number, ⟨since.rest, c.pos - since.pos⟩) :: c.kept }

/-- The place after the next character, if that character passes the test. -/
def advance (c : Cursor) (test : Char → Bool) : Option Cursor :=
  match c.rest with
  | [] => none
  | x :: rest => if test x then some ⟨c.pos + 1, some x, rest, c.kept⟩ else none

/-- The place after a text that follows, compared character by character. -/
def advanceOver (same : Char → Char → Bool) : List Char → Cursor → Option Cursor
  | [], c => some c
  | x :: xs, c => (c.advance (same x)).bind (advanceOver same xs)

/-- Whether the place lies between a word character and something else. -/
def atWordEdge (c : Cursor) : Bool :=
  (c.prev.any isWord) != (c.rest.head?.any isWord)

/-- Whether the text has no character at all. -/
def inEmptyText (c : Cursor) : Bool := c.prev.isNone && c.rest.isEmpty

/-- Whether the place is one that the anchor asks for. -/
def isAt (c : Cursor) : Anchor → Bool
  | .start => c.prev.isNone
  | .lineEnd => c.rest == [] || c.rest == ['\n']
  | .finish => c.rest.isEmpty
  | .wordEdge => !c.inEmptyText && c.atWordEdge
  | .noWordEdge => !c.inEmptyText && !c.atWordEdge

end Cursor

/-- Hands the places that can be reached from a place to a continuation until it accepts one. -/
abbrev Matcher := Cursor → (Cursor → Option Cursor) → Option Cursor

namespace Matcher

/-- Reads one character that passes the test. -/
def one (test : Char → Bool) : Matcher := fun c k => (c.advance test).bind k

/-- Makes a fixed number of rounds. -/
def times (body : Matcher) : Nat → Matcher
  | 0 => fun c k => k c
  | n + 1 => fun c k => body c fun c' => times body n c' k

/-- Makes as many rounds as it can, at most the given number, and gives them up one by one. -/
def greedy (body : Matcher) : Nat → Matcher
  | 0 => fun c k => k c
  | n + 1 => fun c k =>
    match body c fun c' => if c'.pos = c.pos then k c' else greedy body n c' k with
    | some r => some r
    | none => k c

/-- Makes as few rounds as it can, at most the given number. -/
def lazily (body : Matcher) : Nat → Matcher
  | 0 => fun c k => k c
  | n + 1 => fun c k =>
    match k c with
    | some r => some r
    | none => body c fun c' => if c'.pos = c.pos then k c' else lazily body n c' k

/-- The place after as many rounds as can be made, at most the given number, each in the first way
it matches. -/
def exhaust (body : Matcher) : Nat → Cursor → Cursor
  | 0, c => c
  | n + 1, c =>
    match body c some with
    | some c' => if c'.pos = c.pos then c' else exhaust body n c'
    | none => c

/-- The place after a fixed number of rounds, each in the first way it matches. -/
def timesFirst (body : Matcher) : Nat → Cursor → Option Cursor
  | 0, c => some c
  | n + 1, c => (body c some).bind (timesFirst body n)

/-- The most rounds that a repetition can use after its first `min` ones: one for every character
left and one that reads nothing, if there is no bound. -/
def roundsLeft (min : Nat) (max : Option Nat) (c : Cursor) : Nat :=
  match max with
  | some m => m - min
  | none => c.rest.length + 1

/-- Repeats a matcher. -/
def repeated (body : Matcher) (min : Nat) (max : Option Nat) : Mode → Matcher
  | .greedy => fun c k =>
    times body min c fun c' => greedy body (roundsLeft min max c') c' k
  | .lazy => fun c k =>
    times body min c fun c' => lazily body (roundsLeft min max c') c' k
  | .possessive => fun c k =>
    (timesFirst body min c).bind fun c' => k (exhaust body (roundsLeft min max c') c')

end Matcher

/-- Walks the expression from a place on. -/
def run (ignoreCase : Bool) : Regex → Matcher
  | .empty => fun c k => k c
  | .char n => .one (fitsCode ignoreCase n)
  | .notChar n => .one fun x => !fitsCode ignoreCase n x
  | .any => .one (· != '\n')
  | .set s => .one (s.contains ignoreCase)
  | .anchor a => fun c k => if c.isAt a then k c else none
  | .backref n => fun c k =>
    (c.group? n).bind fun span =>
      (c.advanceOver (fun x y =>
        if ignoreCase then lowerCode x.toNat == lowerCode y.toNat else x == y) span.chars).bind k
  | .seq r s => fun c k => run ignoreCase r c fun c' => run ignoreCase s c' k
  | .alt r s => fun c k =>
    match run ignoreCase r c k with
    | some found => some found
    | none => run ignoreCase s c k
  | .group n r => fun c k => run ignoreCase r c fun c' => k (c'.keep n c)
  | .atomic r => fun c k => (run ignoreCase r c some).bind k
  | .ahead r => fun c k =>
    (run ignoreCase r c some).bind fun c' => k { c with kept := c'.kept }
  | .repeated r min max mode => Matcher.repeated (run ignoreCase r) min max mode

/-- The place where a match from the start of the text ends. -/
def matchStart (ignoreCase : Bool) (r : Regex) (cs : List Char) : Option Cursor :=
  r.run ignoreCase (.atStart cs) some

/-- Whether the expression matches the whole text. -/
def matchesAll (ignoreCase : Bool) (r : Regex) (cs : List Char) : Bool :=
  (r.run ignoreCase (.atStart cs) fun c => if c.rest.isEmpty then some c else none).isSome

/-- The texts of the groups from 1 to `count`. -/
def Cursor.groups (c : Cursor) (count : Nat) : List (Option (List Char)) :=
  (List.range count).map fun i => (c.group? (i + 1)).map Span.chars

end SiteRouter.Regex
