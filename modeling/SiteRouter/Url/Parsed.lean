import SiteRouter.Url.Query

/-!
# Parts of a URL

A request URL is cut into its path, its query string and its fragment. The scheme and the host of a
URL with a scheme are dropped; a path that starts with two slashes is a path.
-/

namespace SiteRouter

/-- A URL in its parts. -/
structure ParsedUrl where
  /-- The URL as given. -/
  href : String
  /-- The path. -/
  pathname : String
  /-- The query string with its question mark, or nothing. -/
  search : String
  /-- The query. -/
  query : Mapping
  /-- The fragment with its number sign, or nothing. -/
  hash : String

namespace ParsedUrl

/-- Whether the character may start a scheme. -/
def startsScheme (c : Char) : Bool := ('a' ≤ c && c ≤ 'z') || ('A' ≤ c && c ≤ 'Z')

/-- Whether the character may stand in a scheme after its first. -/
def continuesScheme (c : Char) : Bool :=
  startsScheme c || ('0' ≤ c && c ≤ '9') || c = '+' || c = '.' || c = '-'

/-- What follows the scheme and the host of a text that starts with them. -/
def afterOrigin? (cs : List Char) : Option (List Char) :=
  match cs with
  | [] => none
  | c :: rest =>
    if startsScheme c then
      match rest.dropWhile continuesScheme with
      | ':' :: '/' :: '/' :: host =>
        some (host.dropWhile fun c => c != '/' && c != '?' && c != '#')
      | _ => none
    else none

/-- The path of a URL without query string and fragment. -/
def pathOf (cs : List Char) : List Char :=
  match afterOrigin? cs with
  | none => cs
  | some [] => ['/']
  | some path => path

/-- A part behind its mark; an empty part has none. -/
def marked (mark : Char) (cs : List Char) : String :=
  if cs.isEmpty then "" else String.ofList (mark :: cs)

/-- Cuts a URL into its parts. -/
def parse (url : String) : ParsedUrl :=
  let (rest, fragment) := Query.cutAt '#' url.toList
  let (rest, query) := Query.cutAt '?' rest
  { href := url
    pathname := String.ofList (pathOf rest)
    search := marked '?' query
    query := Query.parse (String.ofList query)
    hash := marked '#' fragment }

end ParsedUrl

end SiteRouter
