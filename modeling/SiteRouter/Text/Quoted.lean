import SiteRouter.Text.Printable
import SiteRouter.Text.Hex

/-!
# Quoted text

The form in which messages show a text: between apostrophes, or between quotation marks where the
text holds an apostrophe and no quotation mark. The enclosing mark, the backslash and every
character that does not print are written as escapes.
-/

namespace SiteRouter.Text

/-- One character inside the enclosing mark: with two, four or eight hexadecimal digits if it does
not print. -/
def quotedChar (mark c : Char) : List Char :=
  if c = mark || c = '\\' then ['\\', c]
  else if c = '\t' then ['\\', 't']
  else if c = '\n' then ['\\', 'n']
  else if c = '\r' then ['\\', 'r']
  else if isPrintable c then [c]
  else if c.toNat < 0x100 then '\\' :: 'x' :: lowerHexDigits 2 c.toNat
  else if c.toNat < 0x10000 then '\\' :: 'u' :: lowerHexDigits 4 c.toNat
  else '\\' :: 'U' :: lowerHexDigits 8 c.toNat

/-- The mark that encloses the text: an apostrophe unless only a quotation mark spares an
escape. -/
def quoteMark (cs : List Char) : Char :=
  if cs.contains '\'' && !cs.contains '"' then '"' else '\''

/-- The text between its marks. -/
def quoted (s : String) : String :=
  let cs := s.toList
  let mark := quoteMark cs
  String.ofList (mark :: cs.flatMap (quotedChar mark) ++ [mark])

end SiteRouter.Text
