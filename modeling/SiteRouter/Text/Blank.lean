import SiteRouter.Text.Ranges

/-!
# White space

The characters that `\s` stands for in a sub-pattern and that may surround a number: the separators,
the line ends and the four information separators U+001C to U+001F.
-/

namespace SiteRouter.Text

/-- The code points of white space. -/
def blankRanges : CodeRanges := [
  (9,13), (28,32), (133,133), (160,160), (5760,5760), (8192,8202), (8232,8233), (8239,8239),
  (8287,8287), (12288,12288)]

/-- Whether the character is white space. -/
def isBlank (c : Char) : Bool := blankRanges.covers c.toNat

end SiteRouter.Text
