import SiteRouter.Pattern.Compiled
import SiteRouter.Log
import SiteRouter.Value.Convert

/-!
# Clubs

On the shared domain every club lives in a folder: its paths start with a common prefix and the name
of the folder. The folder is stripped from a path before it is matched, and put before a path that
is made for a club without a domain of its own.
-/

namespace SiteRouter

/-- A club. -/
structure Club where
  /-- The name of its folder. -/
  folder : Value
  /-- Its own domain, or nothing. -/
  domain : Value

namespace Club

/-- Whether the club has a domain of its own. -/
def hasOwnDomain (c : Club) : Bool := c.domain.truthy

/-- The club that a mapping stands for; the domain goes by two names. -/
def ofMapping (data : Mapping) : Except Fault Club :=
  match data.get? (.str "folder") with
  | none => .error .missingKey
  | some folder =>
    .ok ⟨folder, (data.get? (.str "external_domain")).getD (data.getD (.str "externalDomain"))⟩

end Club

/-- The rule for the folders of clubs. -/
structure ClubFolders where
  /-- The common prefix of the folders: a slash and a text without slashes at its ends. -/
  root : String
  /-- The compiled pattern of paths in a folder. -/
  compiled : Pattern.Compiled

namespace ClubFolders

/-- The prefix of the folders where none is set. -/
def defaultRoot : String := "/clubs"

/-- The text without the slashes at its ends. -/
def trimSlashes (cs : List Char) : List Char :=
  (((cs.dropWhile (· == '/')).reverse).dropWhile (· == '/')).reverse

/-- The pattern of paths in a folder. -/
def folderPattern (root : String) : String := root ++ "/:folder([a-zA-Z0-9_-]+)(.*)"

/-- The rule for a prefix. -/
def ofPrefix [CharacterNames] (text : String) : Except Fault ClubFolders :=
  let root := String.ofList ('/' :: trimSlashes text.toList)
  (Pattern.compile (folderPattern root) ⟨false, false, true⟩).map (⟨root, ·⟩)

/-- The rule for a prefix that must be a text. -/
def ofValue [CharacterNames] : Value → Except Fault ClubFolders
  | .str text => ofPrefix text
  | v => .error v.textFault

/-- The folder of a path that lies in one: what the first capture reads. -/
def folderOf? (f : ClubFolders) (path : String) : Option String :=
  (f.compiled.groups? path).bind fun texts => (texts.head?).join

/-- The path without its folder, with a slash at its start. -/
def strip (f : ClubFolders) (path : String) : String :=
  match f.folderOf? path with
  | none => path
  | some folder =>
    let rest := path.toList.drop (f.root.length + 1 + folder.length)
    String.ofList (if rest.head? = some '/' then rest else '/' :: rest)

/-- What stripping a path reports. -/
def stripReport (f : ClubFolders) (path : String) : List LogEntry :=
  match f.folderOf? path with
  | none => []
  | some folder =>
    [⟨.debug, .tenants,
      "Stripped club folder " ++ Text.quoted folder ++ " from " ++ Text.quoted path⟩]

/-- The path inside a folder. -/
def prefixPath (f : ClubFolders) (folder path : String) : String :=
  f.root ++ "/" ++ folder ++ path

end ClubFolders

end SiteRouter
