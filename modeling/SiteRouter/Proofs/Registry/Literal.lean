import SiteRouter.Proofs.Registry.Growth
import SiteRouter.Proofs.Url.Grouped
import SiteRouter.Text.BasicLatin

/-!
# The reference of a path

A text that is not registered as a name is a path. It is shown as it is, and the internal reference
of the route that answers it holds the query of the answer, written anew (`find_literal`). A query
that is written has one text for each key. So the reference says of a key that comes several times
in the path, and is no parameter of the route, that its value is all of them with slashes between
them (`find_literal_repeated_key`); the rest of the query is the same on both sides.
-/

namespace SiteRouter.Registry

variable {g : Registry}

/-- The keys of the query of an answer are different texts. -/
theorem isTextual_resolve (g : Registry) (url : String) (host : Option String) :
    (g.resolve url host).query.IsTextual := by
  rw [(resolve_eq g url host).2.1]
  exact (ParsedUrl.isTextual_query url).putAll _

/-- The values in the query of an answer are collected. -/
theorem values_resolve (g : Registry) (url : String) (host : Option String) :
    ∀ p ∈ (g.resolve url host).query, ∃ ts, p.2 = Query.collected ts := by
  rw [(resolve_eq g url host).2.1]
  -- A value comes from the query of the URL, or it is a parameter of the match.
  refine Mapping.forall_putAll (P := fun v => ∃ ts, v = Query.collected ts) ?_ fun p hp => ?_
  · unfold ParsedUrl.parse
    dsimp only
    exact Query.values_parse _
  · obtain ⟨⟨key, t⟩, -, rfl⟩ := List.mem_map.1 hp
    exact ⟨[t], rfl⟩

/-- The query of an answer has an internal reference, which holds it with one text for each key. -/
theorem exists_href_resolve (r : Route) (g : Registry) (url : String) (host : Option String) :
    ∃ href, r.href (g.resolve url host).query = .ok href ∧
      (ParsedUrl.IsBare r.page.toList →
        (ParsedUrl.parse href).query = Query.flattened (g.resolve url host).query) := by
  have hkeys := isTextual_resolve g url host
  have hvalues := values_resolve g url host
  have hhref := Route.href_eq_ok (r := r).2 ⟨Query.isWritable_of_collected hkeys hvalues, rfl⟩
  refine ⟨_, hhref, fun hpage => ?_⟩
  rw [Route.query_href hpage hhref]
  refine Query.parse_render_flattened hkeys fun p hp => ?_
  obtain ⟨ts, hts⟩ := hvalues p hp
  rw [hts, Query.isNull_collected]

/-- A text that is no name is a path. -/
theorem find_of_free {u : String} (hfree : g.named? (.str u) = none) (params : Mapping) :
    g.find (.str u) params = g.findPath u := by
  unfold find
  rw [hfree]

/-- A path is shown as it is. The reference is that of the route that answers it, if one does. -/
theorem exists_findPath (g : Registry) (u : String) :
    ∃ found, g.findPath u = .ok found ∧ found.urls.publicPath = u ∧
      found.entry = (g.resolve u none).hit.map (·.entry) ∧
      ∀ e, found.entry = some e → ParsedUrl.IsBare e.route.page.toList →
        (ParsedUrl.parse found.urls.href).query = Query.flattened (g.resolve u none).query := by
  unfold findPath
  dsimp only
  cases hhit : (g.resolve u none).hit with
  | none => exact ⟨_, rfl, rfl, rfl, nofun⟩
  | some h =>
    obtain ⟨href, hhref, hquery⟩ := exists_href_resolve h.entry.route g u none
    dsimp only
    rw [hhref]
    refine ⟨_, rfl, rfl, rfl, ?_⟩
    rintro e ⟨⟩ hpage
    exact hquery hpage

/-- How the only route of a registry answers a URL that is no name. What is asked of the registry and
of the route is run at once. -/
theorem exists_answer [CharacterNames] (args : List Value) (url page : String)
    (params : List (String × String))
    (hrun : ((Registry.empty {} (some "app")).toOption.bind fun g =>
      (g.add args []).2.toOption.map fun r =>
        ((((g.add args []).1.named? (.str url)).isNone, (g.add args []).1.strips none), r.page,
          r.match? (ParsedUrl.parse url).pathname))
      = some ((true, false), page, some params)) :
    ∃ (g : Registry) (r : Route), g.Reachable ∧ g.named? (.str url) = none ∧ r.page = page ∧
      (g.resolve url none).hit = some ⟨⟨0, r⟩, params⟩ ∧
      (g.resolve url none).query =
        (ParsedUrl.parse url).query.putAll (Mapping.ofTexts params) := by
  obtain ⟨g₀, hempty, hrun⟩ := Option.bind_eq_some_iff.1 hrun
  obtain ⟨r, hresult, hfacts⟩ := Option.map_eq_some_iff.1 hrun
  generalize hg : (g₀.add args []).1 = g at hfacts
  simp only [Prod.mk.injEq, Option.isNone_iff_eq_none] at hfacts
  obtain ⟨⟨hfree, hhost⟩, hpage, hmatch⟩ := hfacts
  have hempty := toOption_eq_some.1 hempty
  have hadd : g₀.add args [] = (g, .ok r) := Prod.ext hg (toOption_eq_some.1 hresult)
  have hroutes := (add_to_empty hempty hadd).1
  have hg : g.Reachable := by
    refine ⟨_, _, g₀, [.add args []], hempty, ?_⟩
    rw [run_cons, after, hadd]
    rfl
  have hresolve := resolve_single hroutes hhost hmatch
  refine ⟨g, r, hg, hfree, hpage, ?_, ?_⟩
  · rw [hresolve]
  · rw [hresolve]

/-- A text that is no name gives the URLs of the path that it is. The path is shown as it is, and
the query of the reference is that with which the path is answered, with one text for each key. The
two are the same, whatever the order, exactly if no key has several values. -/
theorem find_literal {u : String} (hfree : g.named? (.str u) = none) (params : Mapping) :
    ∃ found, g.find (.str u) params = .ok found ∧ found.urls.publicPath = u ∧
      found.entry = (g.resolve u none).hit.map (·.entry) ∧
      ∀ e, found.entry = some e → ParsedUrl.IsBare e.route.page.toList →
        (ParsedUrl.parse found.urls.href).query = Query.flattened (g.resolve u none).query ∧
          ((ParsedUrl.parse found.urls.href).query.Perm (g.resolve u none).query ↔
            ∀ p ∈ (g.resolve u none).query, p.2.sequence? = none) := by
  obtain ⟨found, hfound, hshown, hentry, hquery⟩ := exists_findPath g u
  refine ⟨found, (find_of_free hfree params).trans hfound, hshown, hentry, fun e he hpage => ?_⟩
  rw [hquery e he hpage]
  exact ⟨rfl, Query.flattened_perm_iff (values_resolve g u none)⟩

/-- A parameter of the path takes the place of the one in the query, and comes back decoded. -/
theorem find_literal_article :
    ∃ (g : Registry) (r : Route) (found : Found), g.Reachable ∧
      g.named? (.str "/a/b%2Fc?b=2&x=1") = none ∧
      g.find (.str "/a/b%2Fc?b=2&x=1") [] = .ok found ∧ found.entry = some ⟨0, r⟩ ∧
      r.page = "/p" ∧ found.urls.publicPath = "/a/b%2Fc?b=2&x=1" ∧
      (ParsedUrl.parse found.urls.href).query = [(.str "b", .str "b/c"), (.str "x", .str "1")] ∧
      (ParsedUrl.parse found.urls.href).query.Perm (g.resolve "/a/b%2Fc?b=2&x=1" none).query := by
  obtain ⟨g, r, hg, hfree, hpage, hhit, hquery⟩ := exists_answer
    [.str "/a/:b", .str "p"] "/a/b%2Fc?b=2&x=1" "/p" [("b", "b/c")] (by decide +kernel)
  have hold : (ParsedUrl.parse "/a/b%2Fc?b=2&x=1").query =
      Query.grouped [("b", "2"), ("x", "1")] := by
    have hpairs : Query.pairs (Query.dropMark "b=2&x=1") = [("b", "2"), ("x", "1")] := by
      decide +kernel
    rw [← hpairs, ← Query.group_eq_grouped]
    rfl
  obtain ⟨found, hfound, hshown, hentry, hresult⟩ := find_literal hfree []
  rw [hhit] at hentry
  have hbare : ParsedUrl.IsBare r.page.toList := by
    rw [hpage]
    decide
  obtain ⟨hflattened, hsame⟩ := hresult _ hentry hbare
  rw [hold] at hquery
  refine ⟨g, r, found, hg, hfree, hfound, hentry, hpage, hshown, ?_, hsame.2 ?_⟩
  · rw [hflattened, hquery]
    rfl
  · rw [hquery]
    exact List.forall_mem_cons.2 ⟨rfl, List.forall_mem_singleton.2 rfl⟩

/-- The two values of a key are one text in the reference. -/
theorem find_literal_repeated_key :
    ∃ (g : Registry) (r : Route) (found : Found), g.Reachable ∧
      g.named? (.str "/a?x=1&x=2") = none ∧
      g.find (.str "/a?x=1&x=2") [] = .ok found ∧ found.entry = some ⟨0, r⟩ ∧ r.page = "/p" ∧
      (ParsedUrl.parse found.urls.href).query = [(.str "x", .str "1/2")] ∧
      (g.resolve "/a?x=1&x=2" none).query = [(.str "x", .list [.str "1", .str "2"])] ∧
      ¬(ParsedUrl.parse found.urls.href).query.Perm (g.resolve "/a?x=1&x=2" none).query := by
  obtain ⟨g, r, hg, hfree, hpage, hhit, hquery⟩ := exists_answer
    [.str "/a", .str "p"] "/a?x=1&x=2" "/p" [] (by decide +kernel)
  have hold : (ParsedUrl.parse "/a?x=1&x=2").query =
      Query.grouped [("x", "1"), ("x", "2")] := by
    have hpairs : Query.pairs (Query.dropMark "x=1&x=2") = [("x", "1"), ("x", "2")] := by
      decide +kernel
    rw [← hpairs, ← Query.group_eq_grouped]
    rfl
  rw [hold] at hquery
  have hbare : ParsedUrl.IsBare r.page.toList := by
    rw [hpage]
    decide
  obtain ⟨found, hfound, -, hentry, hflattened⟩ := exists_findPath g "/a?x=1&x=2"
  rw [hhit] at hentry
  have hhref := hflattened _ hentry hbare
  refine ⟨g, r, found, hg, hfree, (find_of_free hfree []).trans hfound, hentry, hpage, ?_, hquery,
    ?_⟩
  · rw [hhref, hquery]
    rfl
  · rw [hhref, Query.flattened_perm_iff (values_resolve g _ none), hquery]
    exact fun h => Option.some_ne_none _ (h _ List.mem_cons_self)

end SiteRouter.Registry
