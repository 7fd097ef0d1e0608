import SiteRouter.Proofs.Club.Folder
import SiteRouter.Proofs.Registry.Growth
import SiteRouter.Text.BasicLatin

/-!
# URLs in the folder of a club

On the app domain the folder of a club is stripped from a path before routes are matched. A URL that
was put into a folder is answered there as the URL itself is on any other domain.
-/

namespace SiteRouter.Registry

open ClubFolders (IsLiteralPrefix IsPlainPrefix IsFolder plainRule)

variable {g : Registry}

/-- Folders are stripped on the app domain alone. -/
theorem strips_iff {host : Option String} :
    g.strips host = true ↔ hostValue host = g.appDomain := by
  cases host with
  | none => exact Value.same_null_iff.trans eq_comm
  | some h => exact Value.str_same_iff.trans eq_comm

/-- What answers a URL depends on the path that routes are matched with, and the query that goes
with it on that of the URL as well. -/
theorem resolve_congr {url url' : String} {host host' : Option String}
    (hpath : g.normalizePath (ParsedUrl.parse url).pathname host =
      g.normalizePath (ParsedUrl.parse url').pathname host')
    (hquery : (ParsedUrl.parse url).query = (ParsedUrl.parse url').query) :
    (g.resolve url host).hit = (g.resolve url' host').hit ∧
      (g.resolve url host).query = (g.resolve url' host').query := by
  have hhit : (g.resolve url host).hit = (g.resolve url' host').hit := by
    rw [(resolve_eq g url host).1, (resolve_eq g url' host').1, hpath]
  refine ⟨hhit, ?_⟩
  rw [(resolve_eq g url host).2.1, (resolve_eq g url' host').2.1, hquery, Outcome.params, hhit]
  rfl

/-- The rule for club folders of a reachable registry whose prefix has no pattern syntax. -/
theorem Reachable.folders_eq_of_isLiteral [CharacterNames] (hg : g.Reachable) {text : String}
    (hclubs : g.config.clubsPrefix = .str text) (hliteral : IsLiteralPrefix text) :
    g.folders = plainRule text := by
  have hfolders := hg.folders
  rw [hclubs, ClubFolders.ofValue, ClubFolders.ofPrefix_eq hliteral] at hfolders
  exact (Except.ok.inj hfolders).symm

/-- The rule for club folders of a reachable registry whose prefix stands for itself. -/
theorem Reachable.folders_eq [CharacterNames] (hg : g.Reachable) {text : String}
    (hclubs : g.config.clubsPrefix = .str text) (hplain : IsPlainPrefix text) :
    g.folders = plainRule text :=
  hg.folders_eq_of_isLiteral hclubs hplain.isLiteral

/-- The path of a URL that was put into a folder is put into it, and the query stays. -/
theorem parse_prefixPath {text folder url : String} (hplain : IsPlainPrefix text)
    (hfolder : IsFolder folder) (hslash : url.toList.head? = some '/') :
    (ParsedUrl.parse ((plainRule text).prefixPath folder url)).pathname =
        (plainRule text).prefixPath folder (ParsedUrl.parse url).pathname ∧
      (ParsedUrl.parse ((plainRule text).prefixPath folder url)).query =
        (ParsedUrl.parse url).query := by
  have hroot : ((plainRule text).root ++ "/" ++ folder).toList =
      ClubFolders.rootOf text ++ '/' :: folder.toList := by
    simp [plainRule]
  -- Neither the prefix nor the folder has a mark that starts another part.
  have hbare : ParsedUrl.IsBare ((plainRule text).root ++ "/" ++ folder).toList := by
    have hall : ∀ c ∈ ClubFolders.rootOf text ++ '/' :: folder.toList, c ≠ '?' ∧ c ≠ '#' := by
      intro c hc
      rw [List.mem_append, List.mem_cons] at hc
      rcases hc with hc | rfl | hc
      · have hc := hplain.root c hc
        constructor <;> rintro rfl <;> exact absurd hc (by decide)
      · decide
      · have hc := hfolder.2 c hc
        constructor <;> rintro rfl <;> exact absurd hc (by decide)
    rw [hroot]
    exact ⟨fun hmem => (hall _ hmem).1 rfl, fun hmem => (hall _ hmem).2 rfl⟩
  refine ParsedUrl.parse_prepend hbare ?_ hslash
  rw [hroot]
  rfl

/-- On the app domain, routes are matched with the path of the URL that was put into a folder. -/
theorem normalizePath_prefixPath [CharacterNames] (hg : g.Reachable) {text : String}
    (hclubs : g.config.clubsPrefix = .str text) (hplain : IsPlainPrefix text) {folder : String}
    (hfolder : IsFolder folder) {url : String} (hslash : url.toList.head? = some '/')
    (hline : '\n' ∉ (ParsedUrl.parse url).pathname.toList) {domain : Option String}
    (hdomain : hostValue domain = g.appDomain) :
    g.folders.strip (ParsedUrl.parse (g.folders.prefixPath folder url)).pathname
        = (ParsedUrl.parse url).pathname ∧
      g.normalizePath (ParsedUrl.parse (g.folders.prefixPath folder url)).pathname domain
        = (ParsedUrl.parse url).pathname := by
  have hstart : (ParsedUrl.parse url).pathname.toList.head? = some '/' :=
    ParsedUrl.head?_pathname hslash
  have hstrip : g.folders.strip (ParsedUrl.parse (g.folders.prefixPath folder url)).pathname
      = (ParsedUrl.parse url).pathname := by
    rw [hg.folders_eq hclubs hplain, (parse_prefixPath hplain hfolder hslash).1,
      ClubFolders.strip_prefixPath hfolder hstart hline]
  exact ⟨hstrip, by rw [normalizePath, if_pos (strips_iff.2 hdomain), hstrip]⟩

/-- The URLs of a route for a club without a domain of its own. -/
theorem findForClub_eq_ok {club name : Value} {params : Mapping} {e : Entry} {pair : UrlPair}
    {c : Club} (hclub : clubOf club = .ok c) (hown : c.hasOwnDomain = false) :
    g.findForClub club name params = .ok (e, pair) ↔
      g.named? name = some e ∧ ∃ urls folder, e.route.urls params = .ok urls ∧
        c.folder.format = .ok folder ∧
        pair = ⟨urls.href, g.folders.prefixPath folder urls.publicPath⟩ := by
  unfold findForClub
  rw [hclub]
  show (Except.ok c).bind _ = _ ↔ _
  cases g.named? name with
  | none => exact ⟨nofun, nofun⟩
  | some e' =>
    show (e'.route.urls params).bind _ = _ ↔ _
    rw [bind_eq_ok, hown]
    constructor
    · rintro ⟨urls, hurls, heq⟩
      obtain ⟨folder, hfolder, heq⟩ := bind_eq_ok.1 heq
      cases heq
      exact ⟨rfl, urls, folder, hurls, hfolder, rfl⟩
    · rintro ⟨hnamed, urls, folder, hurls, hfolder, rfl⟩
      cases hnamed
      exact ⟨urls, hurls, bind_eq_ok.2 ⟨folder, hfolder, rfl⟩⟩

/-- A URL in the folder of a club is answered on the app domain as the URL itself is answered on any
other domain, and the folder is the one that is read in its path. -/
theorem resolve_prefixPath [CharacterNames] (hg : g.Reachable) {text : String}
    (hclubs : g.config.clubsPrefix = .str text) (hplain : IsPlainPrefix text) {folder : String}
    (hfolder : IsFolder folder) {url : String} (hslash : url.toList.head? = some '/')
    (hline : '\n' ∉ (ParsedUrl.parse url).pathname.toList) {domain host : Option String}
    (hdomain : hostValue domain = g.appDomain) (hhost : hostValue host ≠ g.appDomain) :
    (g.resolve (g.folders.prefixPath folder url) domain).hit = (g.resolve url host).hit ∧
      (g.resolve (g.folders.prefixPath folder url) domain).query = (g.resolve url host).query ∧
      g.folders.folderOf? (ParsedUrl.parse (g.folders.prefixPath folder url)).pathname
        = some folder := by
  rw [hg.folders_eq hclubs hplain]
  obtain ⟨hname, hquery⟩ := parse_prefixPath hplain hfolder hslash
  have hstart : (ParsedUrl.parse url).pathname.toList.head? = some '/' :=
    ParsedUrl.head?_pathname hslash
  have hpath : g.normalizePath (ParsedUrl.parse ((plainRule text).prefixPath folder url)).pathname
      domain = g.normalizePath (ParsedUrl.parse url).pathname host := by
    have hother : g.strips host = false := Bool.eq_false_iff.2 fun h => hhost (strips_iff.1 h)
    rw [normalizePath, if_pos (strips_iff.2 hdomain), normalizePath, hother,
      if_neg Bool.false_ne_true, hg.folders_eq hclubs hplain, hname,
      ClubFolders.strip_prefixPath hfolder hstart hline]
  obtain ⟨hhit, hquery⟩ := resolve_congr hpath hquery
  refine ⟨hhit, hquery, ?_⟩
  rw [hname, ClubFolders.folderOf?_prefixPath hfolder hstart hline]

/-- One folder is stripped of a path that still lies in another one. -/
theorem resolve_prefixPath_nested :
    ∃ (g : Registry) (r : Route), g.Reachable ∧ g.routes = [r] ∧ r.pattern = "/clubs/:club/:page" ∧
      (g.resolve "/clubs/chess-1/clubs/go/home?tab=1" (some "app")).hit =
        (g.resolve "/clubs/go/home?tab=1" none).hit ∧
      (g.resolve "/clubs/chess-1/clubs/go/home?tab=1" (some "app")).query =
        (g.resolve "/clubs/go/home?tab=1" none).query ∧
      g.folders.folderOf? "/clubs/chess-1/clubs/go/home" = some "chess-1" := by
  obtain ⟨g₀, g, r, hempty, hadd, hpattern, hclubs, hdomain⟩ : ∃ g₀ g r,
      Registry.empty {} (some "app") = .ok g₀ ∧
      g₀.add [.str "club", .str "/clubs/:club/:page"] [] = (g, .ok r) ∧
      r.pattern = "/clubs/:club/:page" ∧ g.config.clubsPrefix = .str "/clubs" ∧
      g.appDomain = .str "app" :=
    ⟨_, _, _, rfl, rfl, rfl, rfl, rfl⟩
  have hg : g.Reachable := by
    refine ⟨_, _, g₀, [.add [.str "club", .str "/clubs/:club/:page"] []], hempty, ?_⟩
    rw [run_cons, after, hadd]
    rfl
  have hplain : IsPlainPrefix "/clubs" := by decide
  have hfolder : IsFolder "chess-1" := by decide
  have hname : (ParsedUrl.parse "/clubs/go/home?tab=1").pathname = "/clubs/go/home" := by rfl
  have hline : '\n' ∉ (ParsedUrl.parse "/clubs/go/home?tab=1").pathname.toList := by
    rw [hname]
    decide
  have hdomainValue : hostValue (some "app") = g.appDomain := hdomain.symm
  have hhostValue : hostValue none ≠ g.appDomain := by
    rw [hdomain]
    rintro ⟨⟩
  obtain ⟨hhit, hquery, hfolderOf⟩ :=
    resolve_prefixPath hg hclubs hplain hfolder rfl hline hdomainValue hhostValue
  have hroot : g.folders.prefixPath "chess-1" = fun path => "/clubs/chess-1" ++ path := by
    rw [hg.folders_eq hclubs hplain]
    rfl
  rw [hroot] at hhit hquery hfolderOf
  refine ⟨g, r, hg, (add_to_empty hempty hadd).1, hpattern, hhit, hquery, ?_⟩
  have hwhole : (ParsedUrl.parse ("/clubs/chess-1" ++ "/clubs/go/home?tab=1")).pathname
      = "/clubs/chess-1/clubs/go/home" := by rfl
  rwa [hwhole] at hfolderOf

end SiteRouter.Registry
