import SiteRouter.Text.Case
import SiteRouter.Text.Word
import SiteRouter.Text.Digit
import SiteRouter.Text.Blank

/-!
# Characters of a regular expression

When a character of the text fits a single character, a set or a category of an expression, with
and without regard to case. Code points are numbers here, because an expression may name a code
point that no text holds.
-/

namespace SiteRouter.Regex

open Text

/-- The categories with a letter of their own. -/
inductive Category where
  | digit
  | blank
  | word
deriving DecidableEq, Repr

/-- Whether the character belongs to the category. -/
def Category.contains : Category → Char → Bool
  | digit, c => isDigit c
  | blank, c => isBlank c
  | word, c => isWord c

/-- A member of a set: a code point, a range with both ends, or a category or its complement. -/
inductive SetItem where
  | code (n : Nat)
  | range (lo hi : Nat)
  | category (kind : Category) (negated : Bool)
deriving DecidableEq, Repr

/-- Whether the code point is the given one, or the same letter if case is ignored. -/
def fitsCode (ignoreCase : Bool) (n : Nat) (c : Char) : Bool :=
  if ignoreCase then sameLetter n c.toNat else c.toNat == n

/-- Whether the number lies between the ends. -/
def between (lo hi n : Nat) : Bool := lo ≤ n && n ≤ hi

/-- Whether a letter of the range has the given lower case or a mate of it as its lower case. A range
that ends above U+FFFF counts letters above it only by the lower case itself and its upper case. -/
def rangeHoldsLetter (lo hi low : Nat) : Bool :=
  ((caseMates low).flatMap lowerSources).any (fun n => n ≤ 0xFFFF && between lo hi n) ||
    (0xFFFF < hi && (between lo hi low || between lo hi (upperCode low)))

/-- Whether the member holds the character; with case ignored the character is lowered first, and a
member above U+FFFF stands for itself alone. -/
def SetItem.contains (ignoreCase : Bool) : SetItem → Char → Bool
  | code n, c =>
    if ignoreCase && 0xFFFF < n then lowerCode c.toNat == n else fitsCode ignoreCase n c
  | range lo hi, c =>
    if ignoreCase then rangeHoldsLetter lo hi (lowerCode c.toNat) else between lo hi c.toNat
  | category kind negated, c => kind.contains c != negated

/-- A set of characters, or its complement. -/
structure CharSet where
  /-- Whether the set holds the characters that no member holds. -/
  negated : Bool
  /-- The members. -/
  items : List SetItem
deriving DecidableEq, Repr

/-- Whether the set holds the character. -/
def CharSet.contains (ignoreCase : Bool) (s : CharSet) (c : Char) : Bool :=
  (s.items.any fun i => i.contains ignoreCase c) != s.negated

end SiteRouter.Regex
