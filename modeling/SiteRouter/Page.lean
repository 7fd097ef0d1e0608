/-!
# Page names

A route leads to a page. In its normal form the name of a page starts with a slash, and one `index`
segment at its end is left out.
-/

namespace SiteRouter.Page

/-- The word for the page of a directory. -/
def indexName : List Char := "index".toList

/-- The text without an `index` segment at its end, and without the slash before it. -/
def dropIndex (cs : List Char) : List Char :=
  if cs = indexName then []
  else if ('/' :: indexName).isSuffixOf cs then cs.take (cs.length - (indexName.length + 1))
  else cs

/-- The text without an `index` segment at its end or before the line feed at its end. -/
def dropLastIndex (cs : List Char) : List Char :=
  if cs.getLast? = some '\n' then dropIndex cs.dropLast ++ ['\n'] else dropIndex cs

/-- The text with a slash at its start. -/
def withSlash (cs : List Char) : List Char :=
  if cs.head? = some '/' then cs else '/' :: cs

/-- The name of a page in its normal form. -/
def normalize (page : String) : String :=
  String.ofList (withSlash (dropLastIndex page.toList))

end SiteRouter.Page
