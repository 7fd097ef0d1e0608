import SiteRouter.Proofs.Registry.Register
import SiteRouter.Proofs.Route.Bindings
import SiteRouter.Proofs.Url.Parsed
import SiteRouter.Text.BasicLatin

/-!
# The two URLs of a page deliver the same query

The internal reference holds all parameters in its query. The public path holds some of them in its
segments and the rest in its query, and what a match reads in the segments is laid over that query.
The two meet again: both are the texts of the parameters that have a value.
-/

namespace SiteRouter

open Pattern (Plain Segment slashed compiledPlain)

/-! ## The public path -/

/-- The path that is shown for a written one. -/
def shownPath (path : String) : String := if path = "" then "/" else path

/-- A public path is a written path with the parameters that have no place in it, where these are
written. -/
theorem Route.publicPath_eq_ok {r : Route} {params : Mapping} {shown : String} :
    r.publicPath params = .ok shown ↔ ∃ path, r.compiled.toPath params = .ok path ∧
      Query.isWritable (r.leftover params) = true ∧
      shown = if (r.leftover params).isEmpty then shownPath path
        else shownPath path ++ "?" ++ Query.render (r.leftover params) := by
  have hpublic : r.publicPath params = (r.compiled.toPath params).bind fun path =>
      if (r.leftover params).isEmpty then .ok (shownPath path)
      else (Query.write (r.leftover params)).bind fun query =>
        .ok (shownPath path ++ "?" ++ query) := rfl
  rw [hpublic, bind_eq_ok]
  refine exists_congr fun path => and_congr_right fun _ => ?_
  split
  · next hempty =>
    rw [List.isEmpty_iff.1 hempty]
    exact ⟨fun h => ⟨rfl, (Except.ok.inj h).symm⟩, fun h => congrArg _ h.2.symm⟩
  · rw [bind_eq_ok]
    simp only [Query.write_eq_ok, Except.ok.injEq]
    constructor
    · rintro ⟨query, ⟨hwritable, rfl⟩, rfl⟩
      exact ⟨hwritable, rfl⟩
    · rintro ⟨hwritable, rfl⟩
      exact ⟨_, ⟨hwritable, rfl⟩, rfl⟩

/-- An internal reference is the page with all parameters, where these are written. -/
theorem Route.href_eq_ok {r : Route} {params : Mapping} {href : String} :
    r.href params = .ok href ↔
      Query.isWritable params = true ∧ href = r.page ++ "?" ++ Query.render params := by
  rw [Route.href, map_eq_ok]
  simp only [Query.write_eq_ok]
  constructor
  · rintro ⟨query, ⟨hwritable, rfl⟩, rfl⟩
    exact ⟨hwritable, rfl⟩
  · rintro ⟨hwritable, rfl⟩
    exact ⟨_, ⟨hwritable, rfl⟩, rfl⟩

/-- A pair of URLs is an internal reference and a public path. -/
theorem Route.urls_eq_ok {r : Route} {params : Mapping} {pair : UrlPair} :
    r.urls params = .ok pair ↔
      r.href params = .ok pair.href ∧ r.publicPath params = .ok pair.publicPath := by
  have hurls : r.urls params = (r.href params).bind fun href =>
      (r.publicPath params).bind fun shown => .ok ⟨href, shown⟩ := rfl
  rw [hurls]
  simp only [bind_eq_ok]
  constructor
  · rintro ⟨href, hhref, shown, hshown, hpair⟩
    obtain rfl := Except.ok.inj hpair
    exact ⟨hhref, hshown⟩
  · rintro ⟨hhref, hshown⟩
    exact ⟨_, hhref, _, hshown, rfl⟩

/-- The shown path is the written one, or a slash instead of an empty one. -/
theorem toList_shownPath (path : String) :
    ∃ rest, (shownPath path).toList = path.toList ++ rest ∧ (rest = [] ∨ rest = ['/']) := by
  unfold shownPath
  split
  · next hpath => exact ⟨['/'], by rw [hpath]; rfl, .inr rfl⟩
  · exact ⟨[], (List.append_nil _).symm, .inl rfl⟩

/-- Texts in the segments without a mark that starts a query string or a fragment. -/
def Pattern.Segment.HasBareTexts (ss : List Segment) : Prop :=
  ∀ t, .literal t ∈ ss → ParsedUrl.IsBare t

/-- A character other than the slash stands in a path only where it stands in a part. -/
theorem not_mem_slashed {c : Char} (hc : c ≠ '/') {ps : List (List Char)} (h : ∀ u ∈ ps, c ∉ u) :
    c ∉ slashed ps := by
  intro hmem
  obtain ⟨u, hu, hmem⟩ := List.mem_flatMap.1 hmem
  rcases List.mem_cons.1 hmem with rfl | hmem
  · exact hc rfl
  · exact h u hu hmem

namespace Pattern.Plain

variable {ss : List Segment} {o : Options} {params : Mapping} {path : String}

/-- A shown path starts with a slash. -/
theorem shownPath_slash (h : Plain ss) (hpath : (compiledPlain ss o).toPath params = .ok path) :
    ∃ cs, (shownPath path).toList = '/' :: cs := by
  unfold shownPath
  split
  · exact ⟨[], rfl⟩
  · next hne =>
    have hparts := h.toList_toPath hpath
    -- A path that is not empty has a part, and a slash stands before it.
    cases hps : ss.flatMap (Segment.parts params) with
    | nil =>
      rw [hps, slashed_nil, String.toList_eq_nil_iff] at hparts
      exact absurd hparts hne
    | cons u ps =>
      rw [hps, slashed_cons] at hparts
      exact ⟨_, hparts⟩

/-- A character that is escaped in a component, and is no slash, stands in a shown path only where
it stands in a text of the segments. -/
theorem not_mem_shownPath (h : Plain ss) (hpath : (compiledPlain ss o).toPath params = .ok path)
    {c : Char} (hslash : c ≠ '/') (hescaped : ∀ t, c ∉ Text.Percent.encodeChars componentSafe t)
    (htexts : ∀ t, .literal t ∈ ss → c ∉ t) : c ∉ (shownPath path).toList := by
  have hparts : ∀ u ∈ ss.flatMap (Segment.parts params), c ∉ u := by
    intro u hu
    obtain ⟨s, hs, hu⟩ := List.mem_flatMap.1 hu
    cases s with
    | literal t =>
      obtain rfl : u = t := List.mem_singleton.1 hu
      exact htexts u hs
    | parameter name body m =>
      obtain ⟨t, -, rfl⟩ := List.mem_map.1 hu
      exact hescaped t
  obtain ⟨rest, hshown, hrest⟩ := toList_shownPath path
  rw [hshown, h.toList_toPath hpath, List.mem_append, not_or]
  refine ⟨not_mem_slashed hslash hparts, ?_⟩
  -- What may stand for an empty path is a slash.
  rcases hrest with rfl | rfl
  · exact List.not_mem_nil
  · exact fun hmem => hslash (List.mem_singleton.1 hmem)

/-- A shown path has no mark that starts a query string or a fragment. -/
theorem isBare_shownPath (h : Plain ss) (hbare : Segment.HasBareTexts ss)
    (hpath : (compiledPlain ss o).toPath params = .ok path) :
    ParsedUrl.IsBare (shownPath path).toList :=
  ⟨h.not_mem_shownPath hpath (by decide) (Query.mark_not_mem_component (by decide))
      fun t ht => (hbare t ht).1,
    h.not_mem_shownPath hpath (by decide) (Query.mark_not_mem_component (by decide))
      fun t ht => (hbare t ht).2⟩

/-- A match of a shown path binds the parameters that are given. -/
theorem match?_shownPath (h : Plain ss) (hone : (ss.filter Segment.isModified).length ≤ 1)
    (hend : o.toEnd = true) (hstrict : o.strict = false)
    (hpath : (compiledPlain ss o).toPath params = .ok path) {r : Route}
    (hr : r.compiled = compiledPlain ss o) :
    r.match? (shownPath path) = some (Segment.bindings params ss) := by
  -- A slash that was put in for an empty path does not count, since the pattern is not strict.
  obtain ⟨rest, hshown, hrest⟩ := toList_shownPath path
  have hgroups := h.groups?_toPath hone hend hpath hshown
    (hrest.imp_right fun hslash => ⟨hstrict, hslash⟩)
  rw [Route.match?, hr, hgroups, Option.map_some]
  exact congrArg some (bind_groups params ss)

end Pattern.Plain

/-! ## The two queries -/

/-- The parameters without a place in a plain pattern. -/
theorem Route.leftover_ofStrings {r : Route} {ss : List Segment} {o : Pattern.Options}
    (hr : r.compiled = compiledPlain ss o) (params : List (String × Value)) :
    r.leftover (Mapping.ofStrings params) = Mapping.ofStrings (Segment.others ss params) := by
  have hkeys : r.paramKeys = Segment.names ss := by
    rw [Route.paramKeys, hr, Pattern.paramKeys_compiledPlain]
  rw [Route.leftover, Mapping.ofStrings, List.filter_map, Segment.others]
  simp only [Function.comp_def, Route.takes, hkeys]
  rfl

/-- A public path comes apart into the shown path and the query of the parameters without a place in
it, where the shown path has no mark and starts with a slash. -/
theorem Route.parse_shownPath {r : Route} {params : Mapping} {path shown : String}
    (hpath : r.compiled.toPath params = .ok path) (hbare : ParsedUrl.IsBare (shownPath path).toList)
    (hslash : (shownPath path).toList.head? = some '/')
    (hshown : r.publicPath params = .ok shown) :
    (ParsedUrl.parse shown).pathname = shownPath path ∧ (ParsedUrl.parse shown).hash = "" ∧
      (ParsedUrl.parse shown).query = Query.parse (Query.render (r.leftover params)) := by
  obtain ⟨path', hpath', -, rfl⟩ := Route.publicPath_eq_ok.1 hshown
  obtain rfl : path = path' := Except.ok.inj (hpath.symm.trans hpath')
  have hpathOf : String.ofList (ParsedUrl.pathOf (shownPath path).toList) = shownPath path := by
    rw [ParsedUrl.pathOf_eq hslash, String.ofList_toList]
  split
  · next hempty =>
    obtain ⟨hname, hquery⟩ := ParsedUrl.parse_of_bare hbare
    rw [List.isEmpty_iff.1 hempty, hname, hquery, hpathOf]
    exact ⟨rfl, ParsedUrl.hash_of_not_mem hbare.2, rfl⟩
  · have hurl : (shownPath path ++ "?" ++ Query.render (r.leftover params)).toList
        = (shownPath path).toList ++ '?' :: (Query.render (r.leftover params)).toList := by
      simp
    have hfragment : '#' ∉ (Query.render (r.leftover params)).toList :=
      Query.mark_not_mem_render (by decide) (by decide) (by decide) _
    have hnone : '#' ∉ (shownPath path ++ "?" ++ Query.render (r.leftover params)).toList := by
      rw [hurl, List.mem_append, List.mem_cons, not_or, not_or]
      exact ⟨hbare.2, by decide, hfragment⟩
    obtain ⟨hname, hquery⟩ := ParsedUrl.parse_of_query hurl hbare hfragment
    rw [hname, hquery, hpathOf, String.ofList_toList]
    exact ⟨rfl, ParsedUrl.hash_of_not_mem hnone, rfl⟩

/-- The public path of a plain pattern comes apart into the shown path and the query of the other
parameters. -/
theorem Route.parse_publicPath {r : Route} {ss : List Segment} {o : Pattern.Options} (h : Plain ss)
    (hbare : Segment.HasBareTexts ss) (hr : r.compiled = compiledPlain ss o) {params : Mapping}
    {shown : String} (hshown : r.publicPath params = .ok shown) :
    ∃ path, r.compiled.toPath params = .ok path ∧
      (ParsedUrl.parse shown).pathname = shownPath path ∧
      (ParsedUrl.parse shown).query = Query.parse (Query.render (r.leftover params)) := by
  obtain ⟨path, hpath, -⟩ := Route.publicPath_eq_ok.1 hshown
  have hplain := hr ▸ hpath
  have hslash : (shownPath path).toList.head? = some '/' := by
    obtain ⟨cs, hcs⟩ := h.shownPath_slash hplain
    rw [hcs]
    rfl
  obtain ⟨hname, -, hquery⟩ :=
    Route.parse_shownPath hpath (h.isBare_shownPath hbare hplain) hslash hshown
  exact ⟨path, hpath, hname, hquery⟩

/-- The query of an internal reference is that of all parameters. -/
theorem Route.query_href {r : Route} (hpage : ParsedUrl.IsBare r.page.toList) {params : Mapping}
    {href : String} (hhref : r.href params = .ok href) :
    (ParsedUrl.parse href).query = Query.parse (Query.render params) := by
  obtain ⟨-, rfl⟩ := Route.href_eq_ok.1 hhref
  have hurl : (r.page ++ "?" ++ Query.render params).toList
      = r.page.toList ++ '?' :: (Query.render params).toList := by
    simp
  have hfragment : '#' ∉ (Query.render params).toList :=
    Query.mark_not_mem_render (by decide) (by decide) (by decide) _
  rw [(ParsedUrl.parse_of_query hurl hpage hfragment).2, String.ofList_toList]

/-- The query of an internal reference is the texts of all parameters that have a value. -/
theorem Route.parse_href {r : Route} (hpage : ParsedUrl.IsBare r.page.toList)
    {params : List (String × Value)} (hkeys : (params.map Prod.fst).Nodup) {href : String}
    (hhref : r.href (Mapping.ofStrings params) = .ok href) :
    (ParsedUrl.parse href).query = Mapping.ofTexts (Query.textPairs params) := by
  rw [Route.query_href hpage hhref, Query.parse_render_ofStrings hkeys]

/-- The only route of a registry answers where it matches. -/
theorem Registry.resolve_single {g : Registry} {r : Route} (hroutes : g.routes = [r])
    {host : Option String} (hhost : g.strips host = false) {url : String}
    {params : List (String × String)}
    (hmatch : r.match? (ParsedUrl.parse url).pathname = some params) :
    g.resolve url host = ⟨some ⟨⟨0, r⟩, params⟩,
      (ParsedUrl.parse url).query.putAll (Mapping.ofTexts params), ParsedUrl.parse url⟩ := by
  have hpath : g.normalizePath (ParsedUrl.parse url).pathname host
      = (ParsedUrl.parse url).pathname := by
    rw [normalizePath, hhost, if_neg Bool.false_ne_true]
  have hhit : firstHit (ParsedUrl.parse url).pathname 0 [r] = some ⟨⟨0, r⟩, params⟩ := by
    rw [firstHit, hmatch]
  unfold resolve
  dsimp only
  rw [hpath, hroutes, hhit]
  rfl

/-- The public path of a plain route that is alone in a registry leads back to it, with the query
that the internal reference holds: the texts of the parameters that have a value. -/
theorem Registry.resolve_publicPath [CharacterNames] {ss : List Segment} (h : Plain ss)
    (hone : (ss.filter Segment.isModified).length ≤ 1) (hbare : Segment.HasBareTexts ss)
    {config : Config} {domain : Option String} {g₀ g : Registry} {args : List Value}
    {options : Mapping} {result : Except Fault Route} {r : Route}
    (hempty : Registry.empty config domain = .ok g₀) (hstrict : config.strict.truthy = false)
    (hadd : g₀.add args options = (g, result)) (hroutes : g.routes = [r])
    (hpattern : r.pattern = Segment.pattern ss) (hpage : ParsedUrl.IsBare r.page.toList)
    {params : List (String × Value)} (hkeys : (params.map Prod.fst).Nodup)
    (hitems : ∀ p ∈ params, p.1 ∈ r.paramKeys → p.2.sequence? ≠ some [])
    {pair : UrlPair} (hurls : r.urls (Mapping.ofStrings params) = .ok pair)
    {host : Option String} (hhost : g.strips host = false) :
    (g.resolve pair.publicPath host).hit.map (·.entry) = some ⟨0, r⟩ ∧
      (g.resolve pair.publicPath host).query.Perm (ParsedUrl.parse pair.href).query ∧
      (ParsedUrl.parse pair.href).query = Mapping.ofTexts (Query.textPairs params) := by
  -- The registry holds the compiled form of the pattern.
  have hcompiled := Registry.compiled_of_add_to_empty hempty hadd hroutes
  rw [hpattern, hstrict, h.compile_eq] at hcompiled
  have hr := (Except.ok.inj hcompiled).symm
  rw [Route.paramKeys, hr, Pattern.paramKeys_compiledPlain] at hitems
  -- The public path comes apart, and its first part is matched.
  obtain ⟨hhref, hshown⟩ := Route.urls_eq_ok.1 hurls
  obtain ⟨path, hpath, hname, hquery⟩ := Route.parse_publicPath h hbare hr hshown
  rw [hr] at hpath
  have hmatch := h.match?_shownPath hone rfl rfl hpath hr
  rw [← hname] at hmatch
  -- Its query holds the other parameters, and the bindings are put after them.
  have hresult : (g.resolve pair.publicPath host).query = Mapping.ofTexts
      (Query.textPairs (Segment.others ss params) ++
        Segment.bindings (Mapping.ofStrings params) ss) := by
    calc (g.resolve pair.publicPath host).query
        = (ParsedUrl.parse pair.publicPath).query.putAll
            (Mapping.ofTexts (Segment.bindings (Mapping.ofStrings params) ss)) := by
          rw [Registry.resolve_single hroutes hhost hmatch]
      _ = (Mapping.ofTexts (Query.textPairs (Segment.others ss params))).putAll
            (Mapping.ofTexts (Segment.bindings (Mapping.ofStrings params) ss)) := by
          rw [hquery, Route.leftover_ofStrings hr,
            Query.parse_render_ofStrings (Pattern.others_nodup hkeys ss)]
      _ = _ := Mapping.putAll_ofTexts (Pattern.others_bindings_nodup hkeys h)
  refine ⟨by rw [Registry.resolve_single hroutes hhost hmatch]; rfl, ?_,
    Route.parse_href hpage hkeys hhref⟩
  rw [hresult, Route.parse_href hpage hkeys hhref]
  exact (Pattern.others_bindings_perm hkeys h hitems).map _

/-- The two URLs of a page with one parameter in its path and one beside it. -/
theorem Registry.resolve_publicPath_user :
    ∃ g₀ g r pair, Registry.empty {} none = .ok g₀ ∧
      g₀.add [.str "user", .str "/user/:id?"] [] = (g, .ok r) ∧
      r.urls (Mapping.ofStrings [("id", .str "a/b"), ("tab", .str "a b")]) = .ok pair ∧
      pair = ⟨"/user?id=a%2Fb&tab=a%20b", "/user/a%2Fb?tab=a%20b"⟩ ∧
      (g.resolve pair.publicPath (some "example.org")).hit.map (·.entry) = some ⟨0, r⟩ ∧
      (g.resolve pair.publicPath (some "example.org")).query.Perm
        (ParsedUrl.parse pair.href).query ∧
      (ParsedUrl.parse pair.href).query = [(.str "id", .str "a/b"), (.str "tab", .str "a b")] := by
  have hwritten : (compiledPlain [.literal "user".toList, .parameter "id".toList none .optional]
      ⟨false, false, true⟩).toPath (Mapping.ofStrings [("id", .str "a/b"), ("tab", .str "a b")])
        = .ok "/user/a%2Fb" := by rfl
  let ss : List Segment := [.literal "user".toList, .parameter "id".toList none .optional]
  let params : List (String × Value) := [("id", .str "a/b"), ("tab", .str "a b")]
  -- The segments are plain, and the parameters have different keys.
  have hplain : Plain ss := by decide
  have hone : (ss.filter Segment.isModified).length ≤ 1 := by decide
  have hbare : Segment.HasBareTexts ss := by
    intro t ht
    obtain rfl : t = "user".toList := by simpa [ss] using ht
    decide
  have hkeys : (params.map Prod.fst).Nodup := by decide
  -- The registry and its route.
  obtain ⟨g₀, g, r, hempty, hadd, hpattern, hpage, hdomain⟩ : ∃ g₀ g r,
      Registry.empty {} none = .ok g₀ ∧ g₀.add [.str "user", .str "/user/:id?"] [] = (g, .ok r) ∧
      r.pattern = Segment.pattern ss ∧ r.page = "/user" ∧ g.appDomain = .null :=
    ⟨_, _, _, rfl, rfl, rfl, rfl, rfl⟩
  obtain ⟨hroutes, hcompiled⟩ := Registry.add_to_empty hempty hadd
  rw [hpattern, hplain.compile_eq] at hcompiled
  have hr := (Except.ok.inj hcompiled).symm
  -- The two URLs; only `tab` has no place in the path.
  have hleft := Route.leftover_ofStrings hr params
  have hothers : Segment.others ss params = [("tab", .str "a b")] := by rfl
  rw [hothers] at hleft
  have hpath : r.compiled.toPath (Mapping.ofStrings params) = .ok "/user/a%2Fb" := by
    rw [hr]
    exact hwritten
  have hpublic : r.publicPath (Mapping.ofStrings params) = .ok "/user/a%2Fb?tab=a%20b" := by
    rw [Route.publicPath_eq_ok]
    refine ⟨_, hpath, ?_⟩
    rw [hleft]
    exact ⟨by simp [Mapping.ofStrings, Query.isWritable_iff], rfl⟩
  have hhref : r.href (Mapping.ofStrings params) = .ok "/user?id=a%2Fb&tab=a%20b" := by
    rw [Route.href_eq_ok, hpage]
    exact ⟨by simp [params, Mapping.ofStrings, Query.isWritable_iff], rfl⟩
  have hurls : r.urls (Mapping.ofStrings params)
      = .ok ⟨"/user?id=a%2Fb&tab=a%20b", "/user/a%2Fb?tab=a%20b"⟩ := by
    exact Route.urls_eq_ok.2 ⟨hhref, hpublic⟩
  -- What the result asks of the page, the values and the host.
  have hbarePage : ParsedUrl.IsBare r.page.toList := by
    rw [hpage]
    decide
  have hitems : ∀ p ∈ params, p.1 ∈ r.paramKeys → p.2.sequence? ≠ some [] := by
    intro p hp _
    rcases List.mem_cons.1 hp with rfl | hp
    · exact (Option.some_ne_none _).symm
    · rw [List.mem_singleton.1 hp]
      exact (Option.some_ne_none _).symm
  have hhost : g.strips (some "example.org") = false := by
    rw [Registry.strips, hdomain]
    rfl
  obtain ⟨hhit, hperm, hquery⟩ := Registry.resolve_publicPath hplain hone hbare hempty rfl hadd
    hroutes hpattern hbarePage hkeys hitems hurls hhost
  exact ⟨g₀, g, r, _, hempty, hadd, hurls, rfl, hhit, hperm, hquery⟩

end SiteRouter
