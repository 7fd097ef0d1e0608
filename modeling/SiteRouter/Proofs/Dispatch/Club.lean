import SiteRouter.Proofs.Dispatch.Prefix

/-!
# Links of clubs are served

A registry makes the public path of a route for a club, in the folder of the club. A request for it
on the app domain goes the whole way back: nothing in it is taken for a redirect, its path is the
one that was put into the folder, and the route reads in it what it has written. So the request is
rendered, by the route itself unless an earlier one matches the path as well, and the query of the
route holds the texts of all parameters (`dispatch_findForClub`).
-/

namespace SiteRouter

open Pattern (Plain Segment compiledPlain)
open ClubFolders (IsFolder IsPlainPrefix plainRule)

/-- Segments whose paths are read as they were written, also behind the folder of a club. -/
structure Pattern.Segment.Reversible (ss : List Segment) : Prop where
  /-- There is a segment. -/
  nonempty : ss ≠ []
  /-- The segments can be written. -/
  wellFormed : ∀ s ∈ ss, s.WellFormed
  /-- No parameter has a sub-pattern. -/
  noBody : ∀ s ∈ ss, s.body? = none
  /-- One parameter at most has a modifier, so that a path is shared out in one way. -/
  oneModifier : (ss.filter Segment.isModified).length ≤ 1
  /-- No text has a mark that starts a query string or a fragment. -/
  bareTexts : Segment.HasBareTexts ss
  /-- No text has a line feed, which the rest of a path in a folder cannot have. -/
  noLineFeed : ∀ t, .literal t ∈ ss → '\n' ∉ t

/-- A route of a registry that is not strict holds the compiled form of such segments. -/
theorem Pattern.Segment.Reversible.compiled_eq [CharacterNames] {ss : List Segment}
    (hss : Segment.Reversible ss)
    {g : Registry} (hg : g.Reachable) (hstrict : g.config.strict.truthy = false) {r : Route}
    (hr : r ∈ g.routes) (hpattern : r.pattern = Segment.pattern ss) :
    Plain ss ∧ r.compiled = compiledPlain ss ⟨g.config.caseSensitive.truthy, false, true⟩ := by
  have hcompiled := hg.compiled hr
  rw [hpattern, hstrict] at hcompiled
  have hplain : Plain ss := .of_compile hss.nonempty hss.wellFormed hss.noBody hcompiled
  rw [hplain.compile_eq] at hcompiled
  exact ⟨hplain, (Except.ok.inj hcompiled).symm⟩

/-! ## The public path of a route -/

namespace Route

variable {r : Route} {ss : List Segment} {o : Pattern.Options}

/-- A public path starts with a slash, has no line feed in its path, and is read by its route as the
bindings of the parameters. -/
theorem match?_publicPath (h : Plain ss) (hss : Segment.Reversible ss) (hend : o.toEnd = true)
    (hstrict : o.strict = false) (hr : r.compiled = compiledPlain ss o) {params : Mapping}
    {shown : String} (hshown : r.publicPath params = .ok shown) :
    shown.toList.head? = some '/' ∧ '\n' ∉ (ParsedUrl.parse shown).pathname.toList ∧
      r.match? (ParsedUrl.parse shown).pathname = some (Segment.bindings params ss) := by
  obtain ⟨path, hpath, hname, -⟩ := parse_publicPath h hss.bareTexts hr hshown
  rw [hname]
  refine ⟨?_, ?_, h.match?_shownPath hss.oneModifier hend hstrict (hr ▸ hpath) hr⟩
  · obtain ⟨path, hpath, -, rfl⟩ := publicPath_eq_ok.1 hshown
    obtain ⟨cs, hslash⟩ := h.shownPath_slash (hr ▸ hpath)
    split
    · rw [hslash]
      rfl
    · rw [String.toList_append, String.toList_append, hslash]
      rfl
  · have hescaped : ∀ t, '\n' ∉ Text.Percent.encodeChars componentSafe t :=
      Text.Percent.not_mem_encodeChars (by decide) (by decide) (by decide)
    exact h.not_mem_shownPath (hr ▸ hpath) (by decide) hescaped hss.noLineFeed

/-- The query of a public path with the bindings laid over it is the texts of all parameters. -/
theorem query_publicPath (h : Plain ss) (hbare : Segment.HasBareTexts ss)
    (hr : r.compiled = compiledPlain ss o) {params : List (String × Value)}
    (hkeys : (params.map Prod.fst).Nodup) {shown : String}
    (hshown : r.publicPath (Mapping.ofStrings params) = .ok shown) :
    (ParsedUrl.parse shown).query.putAll
        (Mapping.ofTexts (Segment.bindings (Mapping.ofStrings params) ss)) =
      Mapping.ofTexts (Query.textPairs (Segment.others ss params) ++
        Segment.bindings (Mapping.ofStrings params) ss) := by
  obtain ⟨-, -, -, hquery⟩ := parse_publicPath h hbare hr hshown
  rw [hquery, leftover_ofStrings hr, Query.parse_render_ofStrings (Pattern.others_nodup hkeys ss)]
  exact Mapping.putAll_ofTexts (Pattern.others_bindings_nodup hkeys h)

end Route

namespace Handlers

/-! ## The request -/

/-- A match is rendered where no handler takes it. -/
theorem dispatch_of_hit {h : Handlers} (hcustom : h.custom = false) {g : Registry} {r : Request}
    (hr : startsDoubled r.receivedUrl = false) {hit : Registry.Hit}
    (hhit : (g.resolve r.url (some r.host)).hit = some hit) :
    h.dispatch g r = .render hit.entry.route.page (g.resolve r.url (some r.host)).query := by
  rw [dispatch, hr, if_neg Bool.false_ne_true, serve, hhit]
  dsimp only
  rw [hcustom, if_neg Bool.false_ne_true]

/-- The public path of a plain route for a club without a domain of its own is served on the app
domain. It is rendered once, with the page of the route or of one before it; nothing is redirected,
handed to the fallback or not found. A name that is a text belongs to no other route. Where no route
before it matches the path in the folder, the page is that of the route itself, and the query has
the text of each parameter that is neither missing nor a sequence. -/
theorem dispatch_findForClub [CharacterNames] {g : Registry} (hg : g.Reachable)
    (hclubs : g.config.clubsPrefix = .str ClubFolders.defaultRoot)
    (hstrict : g.config.strict.truthy = false) {d : String} (hdomain : g.appDomain = .str d)
    {club : Value} {c : Club} (hclub : Registry.clubOf club = .ok c)
    (hown : c.hasOwnDomain = false) {folder : String} (hc : c.folder = .str folder)
    (hfolder : IsFolder folder) {name : Value} {params : Mapping} {e : Entry} {pair : UrlPair}
    (hfound : g.findForClub club name params = .ok (e, pair)) {ss : List Segment}
    (hpattern : e.route.pattern = Segment.pattern ss) (hss : Segment.Reversible ss)
    (fallback : Bool) (method : String) (headers : Mapping) :
    g.routes[e.index]? = some e.route ∧
      (∀ n, name = .str n → ∀ i r, g.routes[i]? = some r → r.name = .str n → e = ⟨i, r⟩) ∧
      ∃ (j : Nat) (r : Route) (query : Mapping), j ≤ e.index ∧ g.routes[j]? = some r ∧
        (⟨true, false, fallback⟩ : Handlers).dispatch g
          (Request.make pair.publicPath d method headers "") = .render r.page query ∧
        ((∀ i < e.index, ∀ r', g.routes[i]? = some r' →
            r'.match? (g.folders.strip (ParsedUrl.parse pair.publicPath).pathname) = none) →
          j = e.index ∧ r = e.route ∧
            ∀ ps, params = Mapping.ofStrings ps → (ps.map Prod.fst).Nodup →
              ∀ k v, (k, v) ∈ ps → v.isNull = false → v.sequence? = none →
                v.stringify = .ok v.text ∧ query.get? (.str k) = some (.str v.text)) := by
  obtain ⟨hnamed, urls, folder', hurls, hfolder', rfl⟩ :=
    (Registry.findForClub_eq_ok hclub hown).1 hfound
  obtain ⟨htruthy, hroute, -⟩ := Registry.of_named?_eq_some hnamed
  obtain ⟨hhref, hshown⟩ := Route.urls_eq_ok.1 hurls
  -- The route reads what it has written.
  obtain ⟨hplain, hr⟩ := hss.compiled_eq hg hstrict (List.mem_of_getElem? hroute) hpattern
  obtain ⟨hslash, hline, hmatch⟩ := Route.match?_publicPath hplain hss rfl rfl hr hshown
  -- The path that routes are matched with is the one that was put into the folder.
  rw [hc, Value.format_str] at hfolder'
  obtain rfl := Except.ok.inj hfolder'
  have hdefault : IsPlainPrefix ClubFolders.defaultRoot := by decide
  have hhost : Registry.hostValue (some d) = g.appDomain := hdomain.symm
  obtain ⟨hstrip, hpath⟩ :=
    Registry.normalizePath_prefixPath hg hclubs hdefault hfolder hslash hline hhost
  have hquery := (Registry.parse_prefixPath hdefault hfolder hslash).2
  dsimp only
  rw [hstrip]
  generalize hurl : g.folders.prefixPath folder urls.publicPath = url at hpath
  rw [← hg.folders_eq hclubs hdefault, hurl] at hquery
  -- So there is a match, and it is rendered.
  rw [← hpath] at hmatch ⊢
  obtain ⟨hit, hhit, hle, hfirst⟩ := Registry.exists_hit_of_match? hroute hmatch
  have hdoubled : startsDoubled url = false := by
    rw [← hurl, hg.folders_eq hclubs hdefault]
    exact startsDoubled_prefixPath (by decide) hfolder urls.publicPath
  refine ⟨hroute, ?_, hit.entry.index, hit.entry.route, (g.resolve url (some d)).query, hle,
    (Registry.hit_resolve_eq_some.1 hhit).1, dispatch_of_hit rfl hdoubled hhit, fun hbefore => ?_⟩
  · -- A name is kept to one route.
    rintro n rfl i r hi hname
    have hn : n ≠ "" := bne_iff_ne.1 htruthy
    have hthis : g.named? (.str n) = some ⟨i, r⟩ := (hg.namesOnce.named?_str hn).2 ⟨hi, hname⟩
    exact Option.some.inj (hnamed.symm.trans hthis)
  · obtain rfl := hfirst hbefore
    refine ⟨rfl, rfl, ?_⟩
    rintro ps rfl hkeys k v hmem hnull hscalar
    have hresult : (g.resolve url (some d)).query = Mapping.ofTexts
        (Query.textPairs (Segment.others ss ps) ++
          Segment.bindings (Mapping.ofStrings ps) ss) := by
      rw [(Registry.resolve_eq g url (some d)).2.1, Registry.Outcome.params, hhit, hquery]
      exact Route.query_publicPath hplain hss.bareTexts hr hkeys hshown
    -- All parameters stand in the internal reference, so each of them is written.
    have hwritable : v.isWritable = true := by
      have hentry : (Value.str k, v) ∈ Mapping.ofStrings ps := List.mem_map.2 ⟨(k, v), hmem, rfl⟩
      exact (Query.isWritable_iff.1 (Route.href_eq_ok.1 hhref).1 _ hentry hnull).2
    rw [hresult]
    exact ⟨if_pos hwritable, Mapping.get?_ofTexts_of_mem
      (Pattern.others_bindings_nodup hkeys hplain)
      (Pattern.text_mem_others_bindings hkeys ss hmem hnull hscalar)⟩

/-- The link of a page with one parameter in its path and one beside it, behind another page. -/
theorem dispatch_findForClub_chess :
    ∃ (g : Registry) (e : Entry) (pair : UrlPair) (query : Mapping), g.Reachable ∧
      g.findForClub (.tenant (.str "chess-1") .null) (.str "user")
        (Mapping.ofStrings [("id", .str "a/b"), ("tab", .str "a b")]) = .ok (e, pair) ∧
      e.index = 1 ∧ pair.publicPath = "/clubs/chess-1/user/a%2Fb?tab=a%20b" ∧
      (⟨true, false, true⟩ : Handlers).dispatch g
        (Request.make pair.publicPath "app" "GET" [] "") = .render "/user" query ∧
      query.get? (.str "id") = some (.str "a/b") ∧ query.get? (.str "tab") = some (.str "a b") := by
  let calls : List Call :=
    [.add [.str "about", .str "/about"] [], .add [.str "user", .str "/user/:id?"] []]
  let params : List (String × Value) := [("id", .str "a/b"), ("tab", .str "a b")]
  let ss : List Segment := [.literal "user".toList, .parameter "id".toList none .optional]
  -- The registry, the link and the match of the page before it.
  have hrun : ((Registry.empty {} (some "app")).toOption.bind fun g₀ =>
      ((g₀.run calls).findForClub (.tenant (.str "chess-1") .null) (.str "user")
        (Mapping.ofStrings params)).toOption.bind fun found =>
        (g₀.run calls).routes.head?.map fun r =>
          ((found.1.index, found.1.route.pattern, found.1.route.page), found.2.publicPath,
            (r.match? ((g₀.run calls).folders.strip
              (ParsedUrl.parse found.2.publicPath).pathname)).isNone)) =
      some ((1, "/user/:id?", "/user"), "/clubs/chess-1/user/a%2Fb?tab=a%20b", true) := by
    decide +kernel
  obtain ⟨g₀, hempty, hrun⟩ := Option.bind_eq_some_iff.1 hrun
  obtain ⟨⟨e, pair⟩, hfound, hrun⟩ := Option.bind_eq_some_iff.1 hrun
  obtain ⟨r, hfirst, hfacts⟩ := Option.map_eq_some_iff.1 hrun
  have hempty := toOption_eq_some.1 hempty
  have hfound := toOption_eq_some.1 hfound
  simp only [Prod.mk.injEq, Option.isNone_iff_eq_none] at hfacts
  obtain ⟨⟨hindex, hpattern, hpage⟩, hlink, hother⟩ := hfacts
  have hg : (g₀.run calls).Reachable := ⟨_, _, g₀, calls, hempty, rfl⟩
  -- The settings are those that the registry was made with.
  have hconfig : (g₀.run calls).config = {} := by
    rw [Registry.run_eq]
    exact (Registry.empty_eq_ok hempty).1
  have hdomain : (g₀.run calls).appDomain = .str "app" := by
    obtain ⟨folders, -, rfl⟩ := map_eq_ok.1 hempty
    rw [Registry.run_eq]
  have hclubs : (g₀.run calls).config.clubsPrefix = .str ClubFolders.defaultRoot := by
    rw [hconfig]
    rfl
  have hstrict : (g₀.run calls).config.strict.truthy = false := by
    rw [hconfig]
    rfl
  -- The segments of the page.
  have hpattern : e.route.pattern = Segment.pattern ss := hpattern
  have hss : Segment.Reversible ss := by
    have hliteral : ∀ t, .literal t ∈ ss → t = "user".toList := by simp [ss]
    refine ⟨by decide, by decide, by decide, by decide, fun t ht => ?_, fun t ht => ?_⟩
    · rw [hliteral t ht]
      decide
    · rw [hliteral t ht]
      decide
  obtain ⟨-, -, j, r', query, -, -, hdispatch, hown⟩ := dispatch_findForClub hg hclubs hstrict
    hdomain rfl rfl rfl (by decide) hfound hpattern hss true "GET" []
  have hbefore : ∀ i < e.index, ∀ r', (g₀.run calls).routes[i]? = some r' →
      r'.match? ((g₀.run calls).folders.strip (ParsedUrl.parse pair.publicPath).pathname)
        = none := by
    intro i hi r' hr'
    obtain rfl : i = 0 := by omega
    rw [← List.head?_eq_getElem?, hfirst] at hr'
    rwa [← Option.some.inj hr']
  obtain ⟨-, rfl, hquery⟩ := hown hbefore
  have hquery := hquery params rfl (by decide)
  obtain ⟨-, hid⟩ := hquery "id" (.str "a/b") (by simp [params]) rfl rfl
  obtain ⟨-, htab⟩ := hquery "tab" (.str "a b") (by simp [params]) rfl rfl
  rw [hpage] at hdispatch
  exact ⟨_, e, pair, query, hg, hfound, hindex, hlink, hdispatch, hid, htab⟩

end Handlers

end SiteRouter
