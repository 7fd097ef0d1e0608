import SiteRouter.Regex.CharSet

/-!
# Regular expressions

The expressions that route patterns are compiled to: characters and sets, anchors, sequences and
alternatives, numbered groups, references to groups, and repetitions that are greedy, lazy or
possessive.
-/

namespace SiteRouter

namespace Regex

/-- A place in the text. -/
inductive Anchor where
  /-- The start of the text. -/
  | start
  /-- The end of the text, or the place before a line feed that ends it. -/
  | lineEnd
  /-- The end of the text. -/
  | finish
  /-- A place between a word character and something else; an empty text has none. -/
  | wordEdge
  /-- A place of a nonempty text that is no word edge. -/
  | noWordEdge
deriving DecidableEq, Repr

/-- How a repetition chooses the number of rounds. -/
inductive Mode where
  /-- As many rounds as possible, and fewer only if the rest fails. -/
  | greedy
  /-- As few rounds as possible, and more only if the rest fails. -/
  | lazy
  /-- As many rounds as possible, and never fewer. -/
  | possessive
deriving DecidableEq, Repr

end Regex

/-- A regular expression. -/
inductive Regex where
  /-- The empty text. -/
  | empty
  /-- One character, given by its code point. -/
  | char (code : Nat)
  /-- Any character but the one given by its code point. -/
  | notChar (code : Nat)
  /-- Any character but the line feed. -/
  | any
  /-- A character of a set. -/
  | set (s : Regex.CharSet)
  /-- The empty text at a place. -/
  | anchor (a : Regex.Anchor)
  /-- The text of the group with the given number. -/
  | backref (number : Nat)
  /-- One expression and then another. -/
  | seq (r s : Regex)
  /-- One expression, or another if the rest fails with the first. -/
  | alt (r s : Regex)
  /-- An expression whose text is kept under a number. -/
  | group (number : Nat) (r : Regex)
  /-- An expression of which only the first way to match counts. -/
  | atomic (r : Regex)
  /-- The empty text where the expression matches what follows. -/
  | ahead (r : Regex)
  /-- An expression repeated at least `min` times and at most `max` times. -/
  | repeated (r : Regex) (min : Nat) (max : Option Nat) (mode : Regex.Mode)
deriving Repr

namespace Regex

/-- The expressions one after the other. -/
def sequence : List Regex → Regex
  | [] => .empty
  | [r] => r
  | r :: rs => .seq r (sequence rs)

/-- The expressions as alternatives, the first one preferred. -/
def alternatives : List Regex → Regex
  | [] => .empty
  | [r] => r
  | r :: rs => .alt r (alternatives rs)

end Regex

end SiteRouter
