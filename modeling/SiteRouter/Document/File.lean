import SiteRouter.Document.Json

/-!
# Document files

A document is read from a file as JSON or YAML, as the end of its path says. Line ends of all kinds
are read as line feeds. The reader of YAML is a parameter of what reads files, since any will do.
-/

namespace SiteRouter.Document

/-- What stands at a path. -/
inductive Content where
  | missing
  | directory
  | file (text : String)
deriving DecidableEq, Repr

/-- A reader of YAML: the value that a text stands for, or the fault of the text. Dates, octets and
sets are objects. -/
abbrev YamlReader := String → Except Fault Value

/-- A path with what stands there. -/
structure File where
  path : String
  content : Content

/-- The text with a line feed at the end of every line. -/
def lineFeeds : List Char → List Char
  | '\r' :: '\n' :: cs => '\n' :: lineFeeds cs
  | '\r' :: cs => '\n' :: lineFeeds cs
  | c :: cs => c :: lineFeeds cs
  | [] => []

/-- Whether a path ends in the given way. -/
def endsIn (path ending : String) : Bool := ending.toList.isSuffixOf path.toList

namespace File

/-- Whether something stands at the path. -/
def stands (f : File) : Bool := f.content != .missing

/-- The value of the document in the file. A path with a null character in it names nothing. -/
def read (yaml : YamlReader) (f : File) : Except Fault Value :=
  match f.content with
  | .missing => .error (if f.path.toList.contains '\x00' then .wrongValue else .noSuchFile)
  | .directory => .error .isDirectory
  | .file text =>
    let text := String.ofList (lineFeeds text.toList)
    if endsIn f.path ".json" then Json.parse text
    else if endsIn f.path ".yaml" || endsIn f.path ".yml" then yaml text
    else .error (.unknownFormat f.path)

/-- The value of the document in the file; what does not count as given is an empty mapping. -/
def readOrEmpty (yaml : YamlReader) (f : File) : Except Fault Value :=
  (·.orElse (.map [])) <$> f.read yaml

end File

end SiteRouter.Document
