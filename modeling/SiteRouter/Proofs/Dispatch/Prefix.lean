import SiteRouter.Proofs.Dispatch.Redirect
import SiteRouter.Proofs.Registry.Club
import SiteRouter.Text.BasicLatin

/-!
# Links in folders and redirects

The common prefix of the folders is a slash and a text without slashes at its ends, and another
slash is put between it and the folder. So a path in a folder starts with one slash, and a request
for the link of a club is not redirected, unless the prefix that was asked for is empty or has only
slashes: then the path starts with two, and every such request is redirected out of the folders
(`dispatch_clubLink`).
-/

namespace SiteRouter.Handlers

open ClubFolders (IsFolder IsLiteralPrefix plainRule)

/-- The name of a folder starts with a character other than the slash. -/
theorem exists_cons_of_isFolder {folder : String} (h : IsFolder folder) :
    ∃ c cs, folder.toList = c :: cs ∧ c ≠ '/' := by
  obtain ⟨c, cs, hname⟩ := List.exists_cons_of_ne_nil fun hnil =>
    h.1 (String.toList_eq_nil_iff.1 hnil)
  refine ⟨c, cs, hname, ?_⟩
  rintro rfl
  exact absurd (h.2 '/' (hname ▸ List.mem_cons_self)) (by decide)

/-- The text has nothing but slashes. -/
def OnlySlashes (text : String) : Prop := ∀ c ∈ text.toList, c = '/'

instance (text : String) : Decidable (OnlySlashes text) :=
  decidable_of_iff (text.toList.all (· == '/')) <| by
    simp only [List.all_eq_true, beq_iff_eq, OnlySlashes]

/-- A path in a folder starts with one slash, or with two where the prefix has nothing else. -/
theorem leadingSlashes_prefixPath (text : String) {folder : String} (hfolder : IsFolder folder)
    (path : String) :
    leadingSlashes ((plainRule text).prefixPath folder path) =
      if OnlySlashes text then 2 else 1 := by
  have hpath : ((plainRule text).prefixPath folder path).toList =
      '/' :: (ClubFolders.trimSlashes text.toList ++ '/' :: (folder.toList ++ path.toList)) := by
    simp [ClubFolders.prefixPath, plainRule, ClubFolders.rootOf]
  obtain ⟨d, ds, hname, hd⟩ := exists_cons_of_isFolder hfolder
  rw [leadingSlashes, hpath]
  obtain ⟨htrim, hall⟩ | ⟨c, hc, hne, rest, htrim⟩ := ClubFolders.trimSlashes_cases text.toList
  · rw [if_pos (show OnlySlashes text from hall), htrim, hname]
    simp [hd]
  · rw [if_neg fun hall : OnlySlashes text => hne (hall c hc), htrim]
    simp [hne]

/-- Behind a prefix that has more than slashes, a path in a folder does not start with two. -/
theorem startsDoubled_prefixPath {text folder : String} (htext : ¬OnlySlashes text)
    (hfolder : IsFolder folder) (path : String) :
    startsDoubled ((plainRule text).prefixPath folder path) = false := by
  rw [Bool.eq_false_iff, ne_eq, startsDoubled_iff, leadingSlashes_prefixPath text hfolder,
    if_neg htext]
  decide

/-- A path in a folder starts with exactly one slash, and the dispatcher does not answer a request
for the link of a club without a domain of its own by a redirect, unless the prefix of the folders
is empty or has only slashes. Then the path starts with two, and every such request is redirected.
-/
theorem dispatch_clubLink [CharacterNames] {text : String} (htext : IsLiteralPrefix text) :
    ∃ f, ClubFolders.ofPrefix text = .ok f ∧
      (∀ folder path : String, IsFolder folder →
        leadingSlashes (f.prefixPath folder path) = if OnlySlashes text then 2 else 1) ∧
      ∀ g : Registry, g.Reachable → g.config.clubsPrefix = .str text →
        ∀ (club : Value) (c : Club) (folder : String), Registry.clubOf club = .ok c →
        c.hasOwnDomain = false → c.folder = .str folder → IsFolder folder →
        ∀ (name : Value) (params : Mapping) (e : Entry) (pair : UrlPair),
        g.findForClub club name params = .ok (e, pair) →
        ∀ (h : Handlers) (host method : String) (headers : Mapping),
          (∃ resp, h.dispatch g (Request.make pair.publicPath host method headers "") =
              .response resp ∧ resp.isRedirect = true) ↔ OnlySlashes text := by
  refine ⟨plainRule text, ClubFolders.ofPrefix_eq htext,
    fun folder path hfolder => leadingSlashes_prefixPath text hfolder path, ?_⟩
  intro g hg hclubs club c folder hclub hown hc hfolder name params e pair hfound h host method
    headers
  obtain ⟨-, urls, shown, -, hshown, rfl⟩ := (Registry.findForClub_eq_ok hclub hown).1 hfound
  rw [hc, Value.format_str] at hshown
  obtain rfl := Except.ok.inj hshown
  rw [hg.folders_eq_of_isLiteral hclubs htext]
  rw [redirects_iff, Request.receivedUrl_make, leadingSlashes_prefixPath text hfolder]
  split
  · next hall => exact iff_of_true (Nat.le_refl 2) hall
  · next hall => exact iff_of_false (by decide) hall

/-- A registry with one page and a prefix of its folders, and the link of that page for a club. -/
theorem exists_clubLink [CharacterNames] (text shown : String)
    (hrun : ((Registry.empty { clubsPrefix := .str text } none).toOption.bind fun g₀ =>
      ((g₀.run [.add [.str "calendar"] []]).findForClub (.tenant (.str "chess-1") .null)
        (.str "calendar") []).toOption.map fun found => found.2.publicPath) = some shown) :
    ∃ (g : Registry) (e : Entry) (pair : UrlPair), g.Reachable ∧
      g.config.clubsPrefix = .str text ∧
      g.findForClub (.tenant (.str "chess-1") .null) (.str "calendar") [] = .ok (e, pair) ∧
      pair.publicPath = shown := by
  obtain ⟨g₀, hempty, hrun⟩ := Option.bind_eq_some_iff.1 hrun
  obtain ⟨⟨e, pair⟩, hfound, hshown⟩ := Option.map_eq_some_iff.1 hrun
  have hempty := toOption_eq_some.1 hempty
  have hconfig : (g₀.run [.add [.str "calendar"] []]).config.clubsPrefix = .str text := by
    rw [Registry.run_eq, (Registry.empty_eq_ok hempty).1]
  exact ⟨_, e, pair, ⟨_, _, g₀, _, hempty, rfl⟩, hconfig, toOption_eq_some.1 hfound, hshown⟩

/-- Slashes around the prefix do not matter. -/
theorem dispatch_clubLink_teams :
    ∃ (g : Registry) (e : Entry) (pair : UrlPair), g.Reachable ∧
      g.config.clubsPrefix = .str "//teams/" ∧
      g.findForClub (.tenant (.str "chess-1") .null) (.str "calendar") [] = .ok (e, pair) ∧
      pair.publicPath = "/teams/chess-1/calendar" ∧
      ¬∃ resp, (⟨true, false, true⟩ : Handlers).dispatch g
        (Request.make pair.publicPath "app" "GET" [] "") = .response resp ∧
          resp.isRedirect = true := by
  obtain ⟨g, e, pair, hg, hclubs, hfound, hshown⟩ :=
    exists_clubLink "//teams/" "/teams/chess-1/calendar" (by decide +kernel)
  have hliteral : IsLiteralPrefix "//teams/" := by decide
  obtain ⟨-, -, -, hlink⟩ := dispatch_clubLink hliteral
  refine ⟨g, e, pair, hg, hclubs, hfound, hshown, fun hredirect => ?_⟩
  exact absurd ((hlink g hg hclubs _ _ _ rfl rfl rfl (by decide) _ _ e pair hfound
    ⟨true, false, true⟩ "app" "GET" []).1 hredirect) (by decide)

/-- Without a prefix the link of a club starts with two slashes and is redirected. -/
theorem dispatch_clubLink_without_prefix :
    ∃ (g : Registry) (e : Entry) (pair : UrlPair), g.Reachable ∧
      g.config.clubsPrefix = .str "" ∧
      g.findForClub (.tenant (.str "chess-1") .null) (.str "calendar") [] = .ok (e, pair) ∧
      pair.publicPath = "//chess-1/calendar" ∧
      (⟨true, false, true⟩ : Handlers).dispatch g
        (Request.make pair.publicPath "app" "GET" [] "") =
          .response (.redirect "/chess-1/calendar" Response.permanentRedirect) := by
  obtain ⟨g, e, pair, hg, hclubs, hfound, hshown⟩ :=
    exists_clubLink "" "//chess-1/calendar" (by decide +kernel)
  have hreceived := Request.receivedUrl_make "//chess-1/calendar" "app" "GET" []
  refine ⟨g, e, pair, hg, hclubs, hfound, hshown, ?_⟩
  rw [hshown, dispatch_of_startsDoubled _ g (hreceived.symm ▸ by decide), hreceived]
  rfl

end SiteRouter.Handlers
