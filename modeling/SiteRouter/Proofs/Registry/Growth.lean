import SiteRouter.Proofs.Registry.Pair
import SiteRouter.Proofs.Registry.Run
import SiteRouter.Proofs.Route.Keys
import SiteRouter.Text.BasicLatin

/-!
# What a growing registry keeps

The first route that matches a path answers it, and its parameters are laid over the query of the
URL. Later registrations stand behind the routes that are there, so that what has been found, by a
path or by a name, is found again in every later registry.
-/

namespace SiteRouter.Registry

open Pattern (Plain Segment compiledPlain)

variable {g : Registry}

/-! ## The first match -/

/-- What becomes of a URL, by the first route that matches its path. -/
theorem resolve_eq (g : Registry) (url : String) (host : Option String) :
    (g.resolve url host).hit =
        firstHit (g.normalizePath (ParsedUrl.parse url).pathname host) 0 g.routes ∧
      (g.resolve url host).query =
        (ParsedUrl.parse url).query.putAll (Mapping.ofTexts (g.resolve url host).params) ∧
      (g.resolve url host).url = ParsedUrl.parse url := by
  unfold resolve
  generalize ParsedUrl.parse url = parsed
  dsimp only
  cases firstHit (g.normalizePath parsed.pathname host) 0 g.routes <;> exact ⟨rfl, rfl, rfl⟩

/-- A URL is answered by a route that matches its path while no route before it does. -/
theorem hit_resolve_eq_some {url : String} {host : Option String} {h : Hit} :
    (g.resolve url host).hit = some h ↔
      g.routes[h.entry.index]? = some h.entry.route ∧
        h.entry.route.match? (g.normalizePath (ParsedUrl.parse url).pathname host)
          = some h.params ∧
        ∀ j < h.entry.index, ∀ r, g.routes[j]? = some r →
          r.match? (g.normalizePath (ParsedUrl.parse url).pathname host) = none := by
  rw [(resolve_eq g url host).1, firstHit_eq, findPlace?_eq_some]
  simp only [Option.map_eq_some_iff, Option.map_eq_none_iff]
  constructor
  · rintro ⟨i, r, hr, ⟨params, hmatch, rfl⟩, hbefore⟩
    exact ⟨hr, hmatch, hbefore⟩
  · rintro ⟨hr, hmatch, hbefore⟩
    exact ⟨_, _, hr, ⟨_, hmatch, rfl⟩, hbefore⟩

/-- A URL is not answered where no route matches its path. -/
theorem hit_resolve_eq_none {url : String} {host : Option String} :
    (g.resolve url host).hit = none ↔ ∀ r ∈ g.routes,
      r.match? (g.normalizePath (ParsedUrl.parse url).pathname host) = none := by
  rw [(resolve_eq g url host).1, firstHit_eq, findPlace?_eq_none]
  simp only [Option.map_eq_none_iff]
  constructor
  · intro h r hr
    obtain ⟨i, hi⟩ := List.getElem?_of_mem hr
    exact h i r hi
  · intro h i r hr
    exact h r (List.mem_of_getElem? hr)

/-- A URL with a path that a route matches is answered, by this route or by one before it, and by
this one if none before it matches the path. -/
theorem exists_hit_of_match? {url : String} {host : Option String} {i : Nat} {r : Route}
    {params : List (String × String)} (hr : g.routes[i]? = some r)
    (hmatch : r.match? (g.normalizePath (ParsedUrl.parse url).pathname host) = some params) :
    ∃ h, (g.resolve url host).hit = some h ∧ h.entry.index ≤ i ∧
      ((∀ j < i, ∀ r', g.routes[j]? = some r' →
          r'.match? (g.normalizePath (ParsedUrl.parse url).pathname host) = none) →
        h = ⟨⟨i, r⟩, params⟩) := by
  cases hhit : (g.resolve url host).hit with
  | none =>
    have hnone := hit_resolve_eq_none.1 hhit r (List.mem_of_getElem? hr)
    rw [hmatch] at hnone
    cases hnone
  | some h =>
    refine ⟨h, rfl, Nat.le_of_not_lt fun hlt => ?_, fun hbefore => ?_⟩
    · have hnone := (hit_resolve_eq_some.1 hhit).2.2 i hlt r hr
      rw [hmatch] at hnone
      cases hnone
    · have hfirst : (g.resolve url host).hit = some ⟨⟨i, r⟩, params⟩ :=
        hit_resolve_eq_some.2 ⟨hr, hmatch, hbefore⟩
      exact Option.some.inj (hhit.symm.trans hfirst)

/-- The parameters of a match have different names, those of the route in its order. -/
theorem Reachable.hit_params [CharacterNames] (hg : g.Reachable) {url : String}
    {host : Option String} {h : Hit}
    (hhit : (g.resolve url host).hit = some h) :
    (h.params.map Prod.fst).Sublist h.entry.route.paramKeys ∧ (h.params.map Prod.fst).Nodup := by
  obtain ⟨hr, hmatch, -⟩ := hit_resolve_eq_some.1 hhit
  have hkeys := Route.match?_keys_sublist hmatch
  have hnodup : h.entry.route.compiled.paramKeys.Nodup :=
    Pattern.paramKeys_nodup (hg.compiled (List.mem_of_getElem? hr))
  exact ⟨hkeys, hkeys.nodup hnodup⟩

/-- The query is that of the URL with the parameters of the match laid over it. -/
theorem Reachable.query_resolve [CharacterNames] (hg : g.Reachable) (url : String)
    (host : Option String) :
    (g.resolve url host).query =
      (ParsedUrl.parse url).query.overlay (Mapping.ofTexts (g.resolve url host).params) := by
  have hparams : ((g.resolve url host).params.map Prod.fst).Nodup := by
    unfold Outcome.params
    split
    · next h hhit => exact (hg.hit_params hhit).2
    · exact .nil
  rw [(resolve_eq g url host).2.1,
    Mapping.putAll_eq_overlay (ParsedUrl.isTextual_query url) (Mapping.isTextual_ofTexts hparams)]

/-! ## Growth -/

/-- The path that routes are matched with stays the same. -/
theorem normalizePath_run [CharacterNames] (g : Registry) (calls : List Call) (path : String)
    (host : Option String) : (g.run calls).normalizePath path host = g.normalizePath path host := by
  rw [run_eq]
  rfl

/-- A URL that is answered is answered in the same way ever after. -/
theorem resolve_run [CharacterNames] {url : String} {host : Option String} {h : Hit}
    (hhit : (g.resolve url host).hit = some h) (calls : List Call) :
    (g.run calls).resolve url host = g.resolve url host := by
  rw [(resolve_eq g url host).1] at hhit
  have hlater : firstHit (g.normalizePath (ParsedUrl.parse url).pathname host) 0
      (g.run calls).routes = some h := by
    rw [firstHit_eq] at hhit ⊢
    rw [routes_run]
    exact findPlace?_append hhit _
  unfold resolve
  dsimp only
  rw [normalizePath_run, hlater, hhit]

/-- A route that is found by its name is found by it ever after. -/
theorem named?_run [CharacterNames] {name : Value} {e : Entry} (h : g.named? name = some e)
    (calls : List Call) :
    (g.run calls).named? name = some e := by
  rw [named?_eq] at h ⊢
  split at h
  · next htruthy =>
    rw [if_pos htruthy, routes_run]
    exact findPlace?_append h _
  · cases h

/-- The URLs of a name that is registered are the same ever after, or the same fault. -/
theorem find_run [CharacterNames] {name : Value} {e : Entry} (h : g.named? name = some e)
    (calls : List Call)
    (params : Mapping) : (g.run calls).find name params = g.find name params := by
  unfold find
  rw [h, named?_run h]

/-- The URLs of a name that is registered are the same for a club ever after, or the same fault. -/
theorem findForClub_run [CharacterNames] {name : Value} {e : Entry} (h : g.named? name = some e)
    (calls : List Call) (club : Value) (params : Mapping) :
    (g.run calls).findForClub club name params = g.findForClub club name params := by
  have hfolders : (g.run calls).folders = g.folders := by rw [run_eq]
  unfold findForClub
  rw [h, named?_run h, hfolders]

/-- A URL is answered by the first route that matches its path, with the parameters of the match
laid over its query in the order in which the route has them. What is found in a reachable registry,
by a URL or by a name, is found in the same way after any further calls. -/
theorem resolve_first [CharacterNames] (hg : g.Reachable) (url : String) (host : Option String) :
    (∀ h, (g.resolve url host).hit = some h ↔
      g.routes[h.entry.index]? = some h.entry.route ∧
        h.entry.route.match? (g.normalizePath (ParsedUrl.parse url).pathname host)
          = some h.params ∧
        ∀ j < h.entry.index, ∀ r, g.routes[j]? = some r →
          r.match? (g.normalizePath (ParsedUrl.parse url).pathname host) = none) ∧
    ((g.resolve url host).hit = none ↔ ∀ r ∈ g.routes,
      r.match? (g.normalizePath (ParsedUrl.parse url).pathname host) = none) ∧
    (g.resolve url host).query =
      (ParsedUrl.parse url).query.overlay (Mapping.ofTexts (g.resolve url host).params) ∧
    (∀ h, (g.resolve url host).hit = some h →
      (h.params.map Prod.fst).Sublist h.entry.route.paramKeys) ∧
    ∀ calls,
      ((g.resolve url host).hit ≠ none → (g.run calls).resolve url host = g.resolve url host) ∧
      ∀ n, n ≠ "" → ∀ r ∈ g.routes, r.name = .str n → ∀ params,
        (g.run calls).find (.str n) params = g.find (.str n) params ∧
        ∀ club, (g.run calls).findForClub club (.str n) params
          = g.findForClub club (.str n) params := by
  refine ⟨fun _ => hit_resolve_eq_some, hit_resolve_eq_none, hg.query_resolve url host,
    fun h hhit => (hg.hit_params hhit).1, fun calls => ⟨fun hhit => ?_, ?_⟩⟩
  · obtain ⟨h, hhit⟩ := Option.ne_none_iff_exists'.1 hhit
    exact resolve_run hhit calls
  · intro n hn r hr hname params
    have hnamed : g.named? (.str n) ≠ none := by
      rw [Ne, named?_str_eq_none hn]
      exact fun h => h r hr hname
    obtain ⟨e, he⟩ := Option.ne_none_iff_exists'.1 hnamed
    exact ⟨find_run he calls params, fun club => findForClub_run he calls club params⟩

/-- A parameter of the path takes the place of the one in the query, and a later route that matches
the path as well changes nothing. -/
theorem resolve_first_user :
    ∃ (g : Registry) (r : Route), g.Reachable ∧ g.routes = [r] ∧ r.pattern = "/:id" ∧
      (g.resolve "/a?id=2" none).hit = some ⟨⟨0, r⟩, [("id", "a")]⟩ ∧
      (g.resolve "/a?id=2" none).query = [(.str "id", .str "a")] ∧
      (g.run [.add [.str "all", .str "/*"] [], .freeze]).resolve "/a?id=2" none =
        g.resolve "/a?id=2" none ∧
      (g.run [.add [.str "all", .str "/*"] [], .freeze]).find (.str "user") [] =
        g.find (.str "user") [] := by
  have hwritten : (compiledPlain [.parameter "id".toList none .once] ⟨false, false, true⟩).toPath
      (Mapping.ofStrings [("id", .str "a")]) = .ok "/a" := by rfl
  let ss : List Segment := [.parameter "id".toList none .once]
  let params : List (String × Value) := [("id", .str "a")]
  have hplain : Plain ss := by decide
  obtain ⟨g₀, g, r, hempty, hadd, hpattern, hname, hdomain⟩ : ∃ g₀ g r,
      Registry.empty {} (some "d") = .ok g₀ ∧ g₀.add [.str "user", .str "/:id"] [] = (g, .ok r) ∧
      r.pattern = Segment.pattern ss ∧ r.name = .str "user" ∧ g.appDomain = .str "d" :=
    ⟨_, _, _, rfl, rfl, rfl, rfl, rfl⟩
  have hg : g.Reachable := by
    refine ⟨_, _, g₀, [.add [.str "user", .str "/:id"] []], hempty, ?_⟩
    rw [run_cons, after, hadd]
    rfl
  obtain ⟨hroutes, hcompiled⟩ := add_to_empty hempty hadd
  rw [hpattern, hplain.compile_eq] at hcompiled
  have hr := (Except.ok.inj hcompiled).symm
  have hmatch : r.match? "/a" = some [("id", "a")] := by
    have hshown : shownPath "/a" = "/a" := by decide
    have hbindings : Segment.bindings (Mapping.ofStrings params) ss = [("id", "a")] := by rfl
    rw [← hshown, hplain.match?_shownPath (by decide) rfl rfl hwritten hr, hbindings]
  have hpath : g.normalizePath (ParsedUrl.parse "/a?id=2").pathname none = "/a" := by
    have hshared : g.strips none = false := by rw [strips, hdomain]; rfl
    rw [normalizePath, hshared, if_neg Bool.false_ne_true]
    rfl
  obtain ⟨hhit, -, hquery, -, hlater⟩ := resolve_first hg "/a?id=2" none
  have hfirst : (g.resolve "/a?id=2" none).hit = some ⟨⟨0, r⟩, [("id", "a")]⟩ := by
    rw [hhit, hpath, hroutes]
    exact ⟨rfl, hmatch, fun j hj => absurd hj (Nat.not_lt_zero j)⟩
  have hparams : (g.resolve "/a?id=2" none).params = [("id", "a")] := by
    rw [Outcome.params, hfirst]
  obtain ⟨hresolve, hnames⟩ := hlater [.add [.str "all", .str "/*"] [], .freeze]
  refine ⟨g, r, hg, hroutes, hpattern, hfirst, ?_, ?_, ?_⟩
  · have hold : (ParsedUrl.parse "/a?id=2").query = [(.str "id", .str "2")] := by rfl
    rw [hquery, hparams, hold]
    rfl
  · exact hresolve (by rw [hfirst]; exact Option.some_ne_none _)
  · have hr : r ∈ g.routes := by
      rw [hroutes]
      exact List.mem_singleton_self r
    exact (hnames "user" (by decide) r hr hname []).1

end SiteRouter.Registry
