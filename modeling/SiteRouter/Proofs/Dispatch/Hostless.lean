import SiteRouter.Proofs.Dispatch.Redirect
import SiteRouter.Proofs.Registry.Club
import SiteRouter.Proofs.Registry.Literal

/-!
# Requests to a registry without an app domain

A registry without an app domain strips the folder of a club from the path of a look-up without a
host. A request always has a host, if only an empty one, so nothing is stripped from its path. The
look-up and the dispatcher therefore find the same route for a path outside the folders, and for a
path in a folder the look-up finds the route of the path without the folder, the dispatcher that of
the path as it is (`dispatch_without_domain`). A link that resolves to a page may not be found when
it is requested (`dispatch_without_domain_calendar`).
-/

namespace SiteRouter

/-- The request is served by the route, or by none of the routes. -/
def Dispatched.ServedBy (d : Dispatched) : Option Entry → Prop
  | some e => (∃ query, d = .render e.route.page query) ∨ ∃ query params, d = .custom e query params
  | none => (∃ url, d = .fallback url) ∨ d = .response .notFound

namespace Registry

variable {g : Registry}

/-- The first route that matches a path. -/
def answering (g : Registry) (path : String) : Option Entry :=
  (firstHit path 0 g.routes).map (·.entry)

/-- The route of a look-up is the first one that matches the path it comes to. -/
theorem entry_findPath (g : Registry) (url : String) :
    ∃ found, g.findPath url = .ok found ∧
      found.entry = g.answering (g.normalizePath (ParsedUrl.parse url).pathname none) := by
  obtain ⟨found, hfound, -, hentry, -⟩ := exists_findPath g url
  rw [(resolve_eq g url none).1] at hentry
  exact ⟨found, hfound, hentry⟩

/-- Without an app domain folders are stripped where there is no host. -/
theorem normalizePath_none (hdomain : g.appDomain = .null) (path : String) :
    g.normalizePath path none = g.folders.strip path := by
  have hstrips : g.strips none = true := strips_iff.2 hdomain.symm
  unfold normalizePath
  rw [if_pos hstrips]

/-- Without an app domain nothing is stripped where there is a host. -/
theorem normalizePath_some (hdomain : g.appDomain = .null) (path host : String) :
    g.normalizePath path (some host) = path := by
  have hkept : g.strips (some host) = false := by
    refine Bool.eq_false_iff.2 fun hstrips => ?_
    have hhost := strips_iff.1 hstrips
    rw [hdomain] at hhost
    cases hhost
  unfold normalizePath
  rw [hkept, if_neg Bool.false_ne_true]

end Registry

namespace Handlers

variable {g : Registry}

/-- What is matched is served by the route of the match. -/
theorem serve_servedBy (h : Handlers) (o : Registry.Outcome) :
    (h.serve o).ServedBy (o.hit.map (·.entry)) := by
  unfold serve
  cases o.hit with
  | some hit =>
    cases h.custom with
    | true => exact .inr ⟨_, _, rfl⟩
    | false => exact .inl ⟨_, rfl⟩
  | none =>
    cases h.fallback with
    | true => exact .inl ⟨_, rfl⟩
    | false => exact .inr rfl

/-- A request that is not redirected is served by the first route that matches its path. -/
theorem dispatch_servedBy (h : Handlers) (g : Registry) {r : Request}
    (hr : startsDoubled r.receivedUrl = false) :
    (h.dispatch g r).ServedBy
      (g.answering (g.normalizePath (ParsedUrl.parse r.url).pathname (some r.host))) := by
  have hhit := (Registry.resolve_eq g r.url (some r.host)).1
  have hserved := serve_servedBy h (g.resolve r.url (some r.host))
  rw [hhit] at hserved
  unfold dispatch
  rw [hr, if_neg Bool.false_ne_true]
  exact hserved

/-- In a registry without an app domain a text that is no name, and does not start with two slashes,
is looked up by its path without the folder of a club, and a request for it is served by its path as
it is, whatever the host. So the request is served by the route that is looked up, or by none if
there is none, where the path lies in no folder. -/
theorem dispatch_without_domain (hdomain : g.appDomain = .null) {u : String}
    (hslashes : startsDoubled u = false) (hfree : g.named? (.str u) = none) (params : Mapping)
    (host method : String) (headers : Mapping) :
    ∃ found, g.find (.str u) params = .ok found ∧
      found.entry = g.answering (g.folders.strip (ParsedUrl.parse u).pathname) ∧
      ∀ h : Handlers,
        (h.dispatch g (Request.make u host method headers "")).ServedBy
          (g.answering (ParsedUrl.parse u).pathname) ∧
        (g.folders.folderOf? (ParsedUrl.parse u).pathname = none →
          (h.dispatch g (Request.make u host method headers "")).ServedBy found.entry) := by
  obtain ⟨found, hfound, hentry⟩ := Registry.entry_findPath g u
  rw [Registry.normalizePath_none hdomain] at hentry
  refine ⟨found, (Registry.find_of_free hfree params).trans hfound, hentry, ?_⟩
  intro h
  have hreceived := Request.receivedUrl_make u host method headers
  have hserved : (h.dispatch g (Request.make u host method headers "")).ServedBy
      (g.answering (g.normalizePath (ParsedUrl.parse u).pathname (some host))) :=
    dispatch_servedBy h g (hreceived.symm ▸ hslashes)
  rw [Registry.normalizePath_some hdomain] at hserved
  refine ⟨hserved, ?_⟩
  intro houtside
  rw [hentry, ClubFolders.strip_of_folderOf?_eq_none houtside]
  exact hserved

/-- A registry with one route and without an app domain. What is asked of it is run at once. -/
theorem exists_without_domain (args : List Value) (url page : String) (folder : Option String)
    (outside inside : Bool)
    (hrun : ((Registry.empty {} none).toOption.bind fun g =>
      (g.add args []).2.toOption.map fun r =>
        (((g.add args []).1.named? (.str url)).isNone, r.page,
          (g.add args []).1.folders.folderOf? (ParsedUrl.parse url).pathname,
          (r.match? (ParsedUrl.parse url).pathname).isSome,
          (r.match? ((g.add args []).1.folders.strip (ParsedUrl.parse url).pathname)).isSome))
      = some (true, page, folder, outside, inside)) :
    ∃ (g : Registry) (r : Route), g.Reachable ∧ g.appDomain = .null ∧
      g.named? (.str url) = none ∧ r.page = page ∧
      g.folders.folderOf? (ParsedUrl.parse url).pathname = folder ∧
      g.answering (ParsedUrl.parse url).pathname = (if outside then some ⟨0, r⟩ else none) ∧
      g.answering (g.folders.strip (ParsedUrl.parse url).pathname) =
        (if inside then some ⟨0, r⟩ else none) := by
  obtain ⟨g₀, hempty, hrun⟩ := Option.bind_eq_some_iff.1 hrun
  obtain ⟨r, hresult, hfacts⟩ := Option.map_eq_some_iff.1 hrun
  generalize hg : (g₀.add args []).1 = g at hfacts
  simp only [Prod.mk.injEq, Option.isNone_iff_eq_none] at hfacts
  obtain ⟨hfree, hpage, hfolder, houtside, hinside⟩ := hfacts
  have hempty := toOption_eq_some.1 hempty
  have hadd : g₀.add args [] = (g, .ok r) := Prod.ext hg (toOption_eq_some.1 hresult)
  have hroutes := (Registry.add_to_empty hempty hadd).1
  have hdomain : g.appDomain = .null := by
    obtain ⟨_, -, hregister⟩ := Registry.add_eq_ok hadd
    obtain ⟨-, -, -, rfl⟩ := Registry.register_eq_ok hregister
    obtain ⟨folders, -, rfl⟩ := map_eq_ok.1 hempty
    rfl
  have hg : g.Reachable := by
    refine ⟨_, _, g₀, [.add args []], hempty, ?_⟩
    rw [Registry.run_cons, Registry.after, hadd]
    rfl
  have hsingle : ∀ path, g.answering path =
      if (r.match? path).isSome then some ⟨0, r⟩ else none := by
    intro path
    unfold Registry.answering
    rw [hroutes, Registry.firstHit]
    cases r.match? path <;> rfl
  refine ⟨g, r, hg, hdomain, hfree, hpage, hfolder, ?_, ?_⟩
  · rw [hsingle, houtside]
  · rw [hsingle, hinside]

/-- A path outside the folders is served as it is looked up. -/
theorem dispatch_without_domain_outside :
    ∃ (g : Registry) (r : Route) (found : Registry.Found), g.Reachable ∧ g.appDomain = .null ∧
      g.find (.str "/club/calendar") [] = .ok found ∧ found.entry = some ⟨0, r⟩ ∧
      r.page = "/calendar" ∧
      ((⟨true, false, true⟩ : Handlers).dispatch g
        (Request.make "/club/calendar" "" "GET" [] "")).ServedBy (some ⟨0, r⟩) := by
  obtain ⟨g, r, hg, hdomain, hfree, hpage, hfolder, -, hinside⟩ := exists_without_domain
    [.str "calendar", .str "/:area/calendar"] "/club/calendar" "/calendar" none true true
    (by decide +kernel)
  obtain ⟨found, hfound, hentry, hserved⟩ :=
    dispatch_without_domain hdomain (by decide) hfree [] "" "GET" []
  rw [hinside] at hentry
  have hagree := (hserved ⟨true, false, true⟩).2 hfolder
  rw [hentry] at hagree
  exact ⟨g, r, found, hg, hdomain, hfound, hentry, hpage, hagree⟩

/-- In a folder the look-up finds the page, and a request for the same path is not found. -/
theorem dispatch_without_domain_calendar :
    ∃ (g : Registry) (r : Route) (found : Registry.Found), g.Reachable ∧ g.appDomain = .null ∧
      startsDoubled "/clubs/x/calendar" = false ∧ g.named? (.str "/clubs/x/calendar") = none ∧
      g.find (.str "/clubs/x/calendar") [] = .ok found ∧ found.entry = some ⟨0, r⟩ ∧
      r.page = "/calendar" ∧
      (⟨true, false, false⟩ : Handlers).dispatch g
        (Request.make "/clubs/x/calendar" "" "GET" [] "") = .response .notFound ∧
      ¬((⟨true, false, false⟩ : Handlers).dispatch g
        (Request.make "/clubs/x/calendar" "" "GET" [] "")).ServedBy found.entry := by
  obtain ⟨g, r, hg, hdomain, hfree, hpage, -, houtside, hinside⟩ := exists_without_domain
    [.str "calendar"] "/clubs/x/calendar" "/calendar" (some "x") false true (by decide +kernel)
  have hdispatch : (⟨true, false, false⟩ : Handlers).dispatch g
      (Request.make "/clubs/x/calendar" "" "GET" [] "") = .response .notFound := by
    have hpath : (g.resolve "/clubs/x/calendar" (some "")).hit = none := by
      rw [(Registry.resolve_eq g _ _).1, Registry.normalizePath_some hdomain]
      exact Option.map_eq_none_iff.1 houtside
    show Handlers.serve _ (g.resolve "/clubs/x/calendar" (some "")) = _
    unfold serve
    rw [hpath]
    rfl
  obtain ⟨found, hfound, hentry⟩ := Registry.entry_findPath g "/clubs/x/calendar"
  rw [Registry.normalizePath_none hdomain] at hentry
  have hentry : found.entry = some ⟨0, r⟩ := hentry.trans hinside
  refine ⟨g, r, found, hg, hdomain, by decide, hfree,
    (Registry.find_of_free hfree []).trans hfound, hentry, hpage, hdispatch, ?_⟩
  rw [hentry, hdispatch]
  rintro (⟨query, hrender⟩ | ⟨query, params, hcustom⟩)
  · cases hrender
  · cases hcustom

end Handlers

end SiteRouter
