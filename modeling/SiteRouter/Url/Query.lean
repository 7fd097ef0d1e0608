import SiteRouter.Text.Percent
import SiteRouter.Value.Stringify
import SiteRouter.Value.Mapping

/-!
# Query strings

A query string is pairs of a key and a value with `&` between them and `=` inside. `Query.write`
makes one from a mapping, leaving out what has no value, and refuses a key or a value that is not
written; `Query.pairs` reads the pairs and `Query.parse` groups them by key, several values of one
key becoming a list.
-/

namespace SiteRouter

/-- The characters besides the unreserved ones that a component keeps. -/
def componentSafe : List Char := "-_.!~*'()".toList

/-- A value as a component of a URL. -/
def encodeComponent (safe : List Char) (v : Value) : Except Fault String :=
  v.stringify.map (Text.Percent.encode safe)

namespace Query

/-! ## Writing -/

/-- The value of a parameter in a query: the elements of a sequence with slashes between them. -/
def valueText (v : Value) : String :=
  match v.sequence? with
  | some items => String.intercalate "/" (items.map Value.text)
  | none => v.text

/-- A pair of a query string. -/
def pairText (k v : Value) : String :=
  Text.Percent.encode componentSafe k.text ++ "=" ++ Text.Percent.encode componentSafe (valueText v)

/-- The pairs of a mapping with `&` between them; an entry without a value is left out. -/
def render (params : Mapping) : String :=
  String.intercalate "&"
    (params.filterMap fun (k, v) => if v.isNull then none else some (pairText k v))

/-- Whether the keys and the values of a mapping are written, but for entries without a value. -/
def isWritable (params : Mapping) : Bool :=
  params.all fun (k, v) => v.isNull || (k.isWritable && v.isWritable)

/-- The query string of a mapping. -/
def write (params : Mapping) : Except Fault String :=
  if isWritable params then .ok (render params) else .error .wrongValue

/-! ## Reading -/

/-- The parts of a text between the separators. -/
def splitAt (separator : Char) : List Char → List (List Char)
  | [] => [[]]
  | c :: cs =>
    if c = separator then [] :: splitAt separator cs
    else
      match splitAt separator cs with
      | part :: parts => (c :: part) :: parts
      | [] => [[c]]

/-- The text before and after the first separator, which need not be there. -/
def cutAt (separator : Char) (cs : List Char) : List Char × List Char :=
  (cs.takeWhile (· != separator), (cs.dropWhile (· != separator)).drop 1)

/-- A component of a query string, in which a plus sign is a blank. -/
def decodePart (cs : List Char) : String :=
  String.ofList (Text.Percent.decodeChars (cs.map fun c => if c = '+' then ' ' else c))

/-- The pair that a part of a query string stands for. -/
def pairOf (part : List Char) : String × String :=
  let (k, v) := cutAt '=' part
  (decodePart k, decodePart v)

/-- The pairs of a query string, in order. -/
def pairs (s : String) : List (String × String) :=
  ((splitAt '&' s.toList).filter (!·.isEmpty)).map pairOf

/-- The value of a key after one more occurrence. -/
def joined (old : Option Value) (value : String) : Value :=
  match old with
  | none => .str value
  | some (.list items) => .list (items ++ [.str value])
  | some v => .list [v, .str value]

/-- Enters one more pair. -/
def add (m : Mapping) (pair : String × String) : Mapping :=
  m.put (.str pair.1) (joined (m.get? (.str pair.1)) pair.2)

/-- The pairs grouped by key, in order of first occurrence. -/
def group (ps : List (String × String)) : Mapping := ps.foldl add []

/-- The text without a question mark at its start. -/
def dropMark (s : String) : String :=
  match s.toList with
  | '?' :: cs => String.ofList cs
  | _ => s

/-- The mapping that a query string stands for, with or without a question mark before it. -/
def parse (search : String) : Mapping := group (pairs (dropMark search))

end Query

end SiteRouter
