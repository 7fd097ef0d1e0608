/-!
# The names of characters

Unicode gives most characters a name, such as `DIGIT ONE`, and the names grow with every version of
the standard. The table is therefore not written down here: whatever reads names takes it as a
parameter, and what is stated of such a reader holds for every table.
-/

namespace SiteRouter

/-- A table of the names of characters. -/
class CharacterNames where
  /-- The character that a name stands for. A name of several characters stands for none. -/
  character? : List Char → Option Char

end SiteRouter
