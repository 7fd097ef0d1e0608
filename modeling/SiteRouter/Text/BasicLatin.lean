import SiteRouter.Text.CharacterNames

/-!
# The names of ASCII characters

A table of names for runs on given texts. It has the printable characters of ASCII and knows their
names in either case.
-/

namespace SiteRouter.Text

/-- The names from the blank up to the at sign. -/
def firstNames : List String :=
  ["SPACE", "EXCLAMATION MARK", "QUOTATION MARK", "NUMBER SIGN", "DOLLAR SIGN", "PERCENT SIGN",
    "AMPERSAND", "APOSTROPHE", "LEFT PARENTHESIS", "RIGHT PARENTHESIS", "ASTERISK", "PLUS SIGN",
    "COMMA", "HYPHEN-MINUS", "FULL STOP", "SOLIDUS", "DIGIT ZERO", "DIGIT ONE", "DIGIT TWO",
    "DIGIT THREE", "DIGIT FOUR", "DIGIT FIVE", "DIGIT SIX", "DIGIT SEVEN", "DIGIT EIGHT",
    "DIGIT NINE", "COLON", "SEMICOLON", "LESS-THAN SIGN", "EQUALS SIGN", "GREATER-THAN SIGN",
    "QUESTION MARK", "COMMERCIAL AT"]

/-- The names between the letters. -/
def middleNames : List String :=
  ["LEFT SQUARE BRACKET", "REVERSE SOLIDUS", "RIGHT SQUARE BRACKET", "CIRCUMFLEX ACCENT",
    "LOW LINE", "GRAVE ACCENT"]

/-- The names behind the letters. -/
def lastNames : List String :=
  ["LEFT CURLY BRACKET", "VERTICAL LINE", "RIGHT CURLY BRACKET", "TILDE"]

/-- The names of the letters, with what stands before the letter in them. -/
def letterNames (start : String) : List String :=
  "ABCDEFGHIJKLMNOPQRSTUVWXYZ".toList.map fun c => start ++ String.singleton c

/-- The names of the printable characters, in the order of their code points. -/
def printableNames : List String :=
  firstNames ++ letterNames "LATIN CAPITAL LETTER " ++ middleNames ++
    letterNames "LATIN SMALL LETTER " ++ lastNames

/-- The printable character with a name. -/
def printable? (name : List Char) : Option Char :=
  (printableNames.findIdx? fun n => n.toList == name.map Char.toUpper).map
    fun i => Char.ofNat (' '.toNat + i)

instance : CharacterNames := ⟨printable?⟩

example : printable? "Digit one".toList = some '1' := by decide

end SiteRouter.Text
