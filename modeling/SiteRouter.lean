import SiteRouter.Dispatch
import SiteRouter.Navigation
import SiteRouter.RouteDocument
import SiteRouter.Page
import SiteRouter.Document.Yaml.Constructed
import SiteRouter.Proofs.Regex.Ends
import SiteRouter.Proofs.Regex.Language
import SiteRouter.Proofs.Regex.Text
import SiteRouter.Proofs.Text.Case
import SiteRouter.Proofs.Pattern.Program
import SiteRouter.Proofs.Pattern.Derivation
import SiteRouter.Proofs.Pattern.Matching
import SiteRouter.Proofs.Pattern.Default
import SiteRouter.Proofs.Pattern.Tokens
import SiteRouter.Proofs.Pattern.Writing
import SiteRouter.Proofs.Pattern.Written
import SiteRouter.Proofs.Pattern.Parts
import SiteRouter.Proofs.Pattern.Plain
import SiteRouter.Proofs.Pattern.Values
import SiteRouter.Proofs.Text.Percent
import SiteRouter.Proofs.Route.Params
import SiteRouter.Proofs.Url.Query
import SiteRouter.Proofs.Except
import SiteRouter.Proofs.Registry.Register
import SiteRouter.Proofs.Registry.Lookup
import SiteRouter.Proofs.Registry.Run
import SiteRouter.Proofs.Registry.Pair
import SiteRouter.Proofs.Route.Keys
import SiteRouter.Proofs.Registry.Growth
import SiteRouter.Proofs.Regex.First
import SiteRouter.Proofs.Club.Folder
import SiteRouter.Proofs.Registry.Club
import SiteRouter.Proofs.Regex.Moves
import SiteRouter.Proofs.Regex.Enclosed
import SiteRouter.Proofs.Regex.Unnested
import SiteRouter.Proofs.Pattern.Walk
import SiteRouter.Proofs.Route.Captured
import SiteRouter.Proofs.Url.Grouped
import SiteRouter.Proofs.Registry.Literal
import SiteRouter.Proofs.Dispatch.Redirect
import SiteRouter.Proofs.Dispatch.Club
import SiteRouter.Proofs.Dispatch.Hostless
import SiteRouter.Proofs.Pattern.Slashes
import SiteRouter.Proofs.Registry.Spelling
import SiteRouter.Proofs.Route.PublicPath
import SiteRouter.Proofs.Pattern.Counts
import SiteRouter.Proofs.Registry.Texts
import SiteRouter.Proofs.Document.Load
import SiteRouter.Proofs.Pattern.Missing
import SiteRouter.Proofs.Pattern.Repeated
import SiteRouter.Proofs.Pattern.Skipped
import SiteRouter.Proofs.Route.Reread
import SiteRouter.Proofs.Pattern.TrailingSlash
import SiteRouter.Proofs.Pattern.Star
import SiteRouter.Proofs.Pattern.Words
import SiteRouter.Proofs.Regex.Case
import SiteRouter.Proofs.Pattern.Case
import SiteRouter.Proofs.Pattern.Usable
import SiteRouter.Proofs.Pattern.Grammar
import SiteRouter.Proofs.Route.Leftover
import SiteRouter.Proofs.Route.Strict
import SiteRouter.Proofs.Pattern.Rendered
import SiteRouter.Proofs.Pattern.Escaped
import SiteRouter.Proofs.Url.Split
import SiteRouter.Proofs.Url.Component
import SiteRouter.Proofs.Url.Occurrence
import SiteRouter.Proofs.Page
import SiteRouter.Proofs.Club.Strip
import SiteRouter.Proofs.Text.Letter
import SiteRouter.Proofs.Club.Name
import SiteRouter.Proofs.Dispatch.Prefix
import SiteRouter.Proofs.Config.Merge
import SiteRouter.Proofs.Document.Append
import SiteRouter.Proofs.Pattern.Shape
import SiteRouter.Proofs.Config.Environment
import SiteRouter.Proofs.Config.Sources
