import SiteRouter.Text.Word

/-!
# The pieces of a pattern

The text of a pattern is cut into pieces: characters that stand for themselves, with or without a
backslash, and captures. A capture is a parameter `:name`, with or without a sub-pattern in
parentheses, a sub-pattern alone, or a star; a slash or a point right before it belongs to it, and
all but the star take a modifier.
-/

namespace SiteRouter.Pattern

open Text

/-- How many values a capture takes. -/
inductive Modifier where
  /-- One. -/
  | once
  /-- One or none: `?`. -/
  | optional
  /-- One or more: `+`. -/
  | repeated
  /-- Any number: `*`. -/
  | optionalRepeated
deriving DecidableEq, Repr

namespace Modifier

/-- The modifier that a character is. -/
def ofChar? : Char → Option Modifier
  | '?' => some optional
  | '+' => some repeated
  | '*' => some optionalRepeated
  | _ => none

/-- Whether the capture may have no value. -/
def isOptional : Modifier → Bool
  | optional | optionalRepeated => true
  | _ => false

/-- Whether the capture may have several values. -/
def isRepeated : Modifier → Bool
  | repeated | optionalRepeated => true
  | _ => false

end Modifier

/-- What a capture is written as, without the character before it and the modifier. -/
inductive Form where
  /-- A name and the sub-pattern after it, if there is one. -/
  | parameter (name : List Char) (body : Option (List Char))
  /-- A sub-pattern. -/
  | group (body : List Char)
  /-- A star. -/
  | star
deriving DecidableEq, Repr

/-- A piece of a pattern. -/
inductive Piece where
  /-- A character that stands for itself. -/
  | plain (c : Char)
  /-- A character after a backslash. -/
  | escaped (c : Char)
  /-- A capture, with the slash or point before it and the character after it. -/
  | capture (lead : Option Char) (form : Form) (modifier : Modifier) (next : Option Char)
deriving DecidableEq, Repr

/-- The text of a sub-pattern up to the parenthesis that ends it. A backslash takes the character
after it along, which must be no line feed; there is no parenthesis inside. -/
def bodyOf? : List Char → Option (List Char)
  | ')' :: _ => some []
  | '\\' :: c :: cs =>
    if c = '\n' then none else (bodyOf? cs).map fun body => '\\' :: c :: body
  | c :: cs => if c = '(' || c = '\\' then none else (bodyOf? cs).map (c :: ·)
  | [] => none

/-- The sub-pattern in parentheses at the start of a text; it is not empty. -/
def groupOf? : List Char → Option (List Char)
  | '(' :: cs =>
    match bodyOf? cs with
    | some [] => none
    | body? => body?
  | _ => none

/-- The form at the start of a text, and the number of characters it takes. -/
def formOf? : List Char → Option (Form × Nat)
  | '*' :: _ => some (.star, 1)
  | ':' :: cs =>
    let name := cs.takeWhile isWord
    if name.isEmpty then none
    else
      match groupOf? (cs.drop name.length) with
      | some body => some (.parameter name (some body), name.length + body.length + 3)
      | none => some (.parameter name none, name.length + 1)
  | cs =>
    match groupOf? cs with
    | some body => some (.group body, body.length + 2)
    | none => none

/-- The capture at the start of a text, and the number of characters it takes. -/
def captureOf? (lead : Option Char) (cs : List Char) : Option (Piece × Nat) :=
  match formOf? cs with
  | none => none
  | some (form, n) =>
    let after := cs.drop n
    match if form = .star then none else after.head?.bind Modifier.ofChar? with
    | some modifier => some (.capture lead form modifier (after.drop 1).head?, n + 1)
    | none => some (.capture lead form .once after.head?, n)

/-- The piece that starts with a character, and the number of characters it takes after it. -/
def readPiece (c : Char) (cs : List Char) : Piece × Nat :=
  if c = '\\' then
    match cs with
    | d :: _ => if d = '\n' then (.plain c, 0) else (.escaped d, 1)
    | [] => (.plain c, 0)
  else if c = '/' || c = '.' then
    (captureOf? (some c) cs).getD (.plain c, 0)
  else
    match captureOf? none (c :: cs) with
    | some (piece, n) => (piece, n - 1)
    | none => (.plain c, 0)

/-- The pieces of a text whose first `skip` characters belong to a piece before it. -/
def piecesAfter : Nat → List Char → List Piece
  | _, [] => []
  | skip + 1, _ :: cs => piecesAfter skip cs
  | 0, c :: cs => (readPiece c cs).1 :: piecesAfter (readPiece c cs).2 cs

/-- The pieces of a text. -/
def pieces (cs : List Char) : List Piece := piecesAfter 0 cs

/-- Skipped characters may as well be dropped. -/
theorem piecesAfter_eq_drop (n : Nat) (cs : List Char) :
    piecesAfter n cs = pieces (cs.drop n) := by
  induction cs generalizing n with
  | nil => cases n <;> simp [pieces, piecesAfter]
  | cons c cs ih => cases n <;> simp [pieces, piecesAfter, ih]

end SiteRouter.Pattern
