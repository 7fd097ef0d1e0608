import SiteRouter.Dispatch
import SiteRouter.Text.BasicLatin

/-!
# Redirects

A dispatcher redirects a URL that starts with two slashes, before anything is matched or run. The
target is the URL with one slash fewer (`dispatch_redirect`). It stays on the site, with one slash
at its start, if the URL had two. Of three slashes two are left, and a client reads the text after
them as the name of another host (`dispatch_redirect_three_slashes`).
-/

namespace SiteRouter

/-- A request that gives no received URL was received under its URL. -/
theorem Request.receivedUrl_make (url host method : String) (headers : Mapping) :
    (make url host method headers "").receivedUrl = url := by
  unfold make
  rw [if_pos rfl]

namespace Handlers

/-! ## Slashes at the start -/

/-- The number of slashes at the start of a text. -/
def leadingSlashes (s : String) : Nat := (s.toList.takeWhile (· == '/')).length

/-- A text that starts with slashes is a slash and a text that starts with one fewer. -/
theorem leadingSlashes_eq_succ {s : String} {n : Nat} :
    leadingSlashes s = n + 1 ↔ ∃ rest : String, s.toList = '/' :: rest.toList ∧
      leadingSlashes rest = n := by
  unfold leadingSlashes
  cases hs : s.toList with
  | nil => simp
  | cons c cs =>
    by_cases hc : c = '/'
    · subst hc
      constructor
      · intro h
        exact ⟨String.ofList cs, by rw [String.toList_ofList], by simpa using h⟩
      · rintro ⟨rest, hrest, h⟩
        obtain ⟨-, rfl⟩ := List.cons.inj hrest
        simpa using h
    · simp [hc]

/-- A text starts with two slashes if at least two stand at its start. -/
theorem startsDoubled_iff {s : String} : startsDoubled s = true ↔ 2 ≤ leadingSlashes s := by
  constructor
  · intro h
    unfold startsDoubled at h
    split at h
    · next cs hcs =>
      have hrest : leadingSlashes (String.ofList ('/' :: cs)) = leadingSlashes (.ofList cs) + 1 :=
        leadingSlashes_eq_succ.2 ⟨_, by rw [String.toList_ofList, String.toList_ofList], rfl⟩
      have hs : leadingSlashes s = leadingSlashes (String.ofList ('/' :: cs)) + 1 :=
        leadingSlashes_eq_succ.2 ⟨_, by rw [hcs, String.toList_ofList], rfl⟩
      omega
    · cases h
  · intro h
    obtain ⟨n, hn⟩ : ∃ n, leadingSlashes s = n + 1 + 1 := ⟨leadingSlashes s - 2, by omega⟩
    obtain ⟨rest, hs, hrest⟩ := leadingSlashes_eq_succ.1 hn
    obtain ⟨rest', hrest', -⟩ := leadingSlashes_eq_succ.1 hrest
    rw [startsDoubled, hs, hrest']
    rfl

/-- A text that starts with a slash has one fewer without it. -/
theorem leadingSlashes_drop {s : String} (h : 1 ≤ leadingSlashes s) :
    leadingSlashes (String.ofList (s.toList.drop 1)) + 1 = leadingSlashes s := by
  obtain ⟨n, hn⟩ : ∃ n, leadingSlashes s = n + 1 := ⟨leadingSlashes s - 1, by omega⟩
  obtain ⟨rest, hs, hrest⟩ := leadingSlashes_eq_succ.1 hn
  have hdrop : String.ofList (s.toList.drop 1) = rest := by
    rw [hs, List.drop_succ_cons, List.drop_zero, String.ofList_toList]
  rw [hdrop, hrest, hn]

/-! ## What is redirected -/

/-- What is matched is not answered by a redirect. -/
theorem serve_not_redirect {h : Handlers} {o : Registry.Outcome} {resp : Response}
    (hresp : h.serve o = .response resp) : resp.isRedirect = false := by
  unfold serve at hresp
  split at hresp
  · split at hresp <;> cases hresp
  · split at hresp
    · cases hresp
    · cases hresp
      rfl

/-- A URL that starts with two slashes is redirected, whatever the registry and the handlers. -/
theorem dispatch_of_startsDoubled (h : Handlers) (g : Registry) {r : Request}
    (hr : startsDoubled r.receivedUrl = true) :
    h.dispatch g r = .response (.redirect (String.ofList (r.receivedUrl.toList.drop 1))
      Response.permanentRedirect) := by
  rw [dispatch, if_pos hr]

/-- A redirect answers a URL that starts with two slashes. -/
theorem startsDoubled_of_redirect {h : Handlers} {g : Registry} {r : Request} {resp : Response}
    (hresp : h.dispatch g r = .response resp) (hredirect : resp.isRedirect = true) :
    startsDoubled r.receivedUrl = true := by
  refine Bool.of_not_eq_false fun hnot => ?_
  rw [dispatch, hnot, if_neg Bool.false_ne_true] at hresp
  rw [serve_not_redirect hresp] at hredirect
  cases hredirect

/-- A request is answered by a redirect exactly if its URL starts with two slashes or more. -/
theorem redirects_iff (h : Handlers) (g : Registry) (r : Request) :
    (∃ resp, h.dispatch g r = .response resp ∧ resp.isRedirect = true) ↔
      2 ≤ leadingSlashes r.receivedUrl := by
  constructor
  · rintro ⟨resp, hresp, hredirect⟩
    exact startsDoubled_iff.1 (startsDoubled_of_redirect hresp hredirect)
  · intro htwo
    exact ⟨_, dispatch_of_startsDoubled h g (startsDoubled_iff.2 htwo), rfl⟩

/-- A dispatcher redirects for two slashes or more at the start of the URL that was received, and
for nothing else. It does so whatever the registry and the handlers are, and matches nothing. The
target has one slash fewer than the URL, so it starts with exactly one if the URL starts with
exactly two. -/
theorem dispatch_redirect (h : Handlers) (g : Registry) (r : Request) :
    (2 ≤ leadingSlashes r.receivedUrl ↔
      ∃ resp, h.dispatch g r = .response resp ∧ resp.isRedirect = true) ∧
    ∀ resp, h.dispatch g r = .response resp → resp.isRedirect = true →
      ∃ target, resp = .redirect target Response.permanentRedirect ∧
        resp.location = .str target ∧ 1 ≤ leadingSlashes target ∧
        leadingSlashes target + 1 = leadingSlashes r.receivedUrl ∧
        (leadingSlashes target = 1 ↔ leadingSlashes r.receivedUrl = 2) ∧
        ∀ g' : Registry, (∀ h' : Handlers, h'.dispatch g' r = .response resp) ∧
          r.matchReport g' = [] := by
  refine ⟨(redirects_iff h g r).symm, fun resp hresp hredirect => ?_⟩
  have hr := startsDoubled_of_redirect hresp hredirect
  rw [dispatch_of_startsDoubled h g hr] at hresp
  obtain rfl := Dispatched.response.inj hresp
  have htwo := startsDoubled_iff.1 hr
  have hdrop := leadingSlashes_drop (Nat.le_of_succ_le htwo)
  refine ⟨_, rfl, rfl, by omega, hdrop, by omega, fun g' => ⟨fun h' => ?_, ?_⟩⟩
  · exact dispatch_of_startsDoubled h' g' hr
  · rw [Request.matchReport, if_pos hr]

/-- The slashes of the URL that was received count, not those of the URL that would be matched. -/
theorem dispatch_redirect_calendar :
    ∃ (g : Registry) (r : Request) (resp : Response), Registry.empty {} none = .ok g ∧
      r = Request.make "/home" "test.app" "GET" [] "//calendar?x=//y" ∧
      (⟨true, false, true⟩ : Handlers).dispatch g r = .response resp ∧ resp.isRedirect = true ∧
      resp.location = .str "/calendar?x=//y" ∧ leadingSlashes "/calendar?x=//y" = 1 ∧
      r.matchReport g = [] := by
  obtain ⟨g, hempty⟩ : ∃ g, Registry.empty {} none = .ok g := ⟨_, rfl⟩
  let r := Request.make "/home" "test.app" "GET" [] "//calendar?x=//y"
  have hreceived : r.receivedUrl = "//calendar?x=//y" := by rfl
  have htwo : leadingSlashes r.receivedUrl = 2 := by
    rw [hreceived]
    decide
  have htarget : String.ofList (r.receivedUrl.toList.drop 1) = "/calendar?x=//y" := by
    rw [hreceived]
    decide
  have hresp := dispatch_of_startsDoubled ⟨true, false, true⟩ g
    (startsDoubled_iff.2 (Nat.le_of_eq htwo.symm))
  rw [htarget] at hresp
  obtain ⟨target, -, hlocation, -, -, hone, hall⟩ :=
    (dispatch_redirect ⟨true, false, true⟩ g r).2 _ hresp rfl
  obtain rfl := Value.str.inj hlocation
  exact ⟨g, r, _, hempty, rfl, hresp, rfl, rfl, hone.2 htwo, (hall g).2⟩

/-- Of three slashes two are left, and the target is on another host. -/
theorem dispatch_redirect_three_slashes :
    ∃ (g : Registry) (r : Request) (resp : Response), Registry.empty {} none = .ok g ∧
      r = Request.make "///evil.example/a" "" "GET" [] "" ∧
      (⟨true, false, false⟩ : Handlers).dispatch g r = .response resp ∧ resp.isRedirect = true ∧
      resp.location = .str "//evil.example/a" ∧ leadingSlashes "//evil.example/a" = 2 := by
  obtain ⟨g, hempty⟩ : ∃ g, Registry.empty {} none = .ok g := ⟨_, rfl⟩
  let r := Request.make "///evil.example/a" "" "GET" [] ""
  have hr : startsDoubled r.receivedUrl = true := by decide
  have htarget : String.ofList (r.receivedUrl.toList.drop 1) = "//evil.example/a" := by decide
  have hresp := dispatch_of_startsDoubled ⟨true, false, false⟩ g hr
  rw [htarget] at hresp
  exact ⟨g, r, _, hempty, rfl, hresp, rfl, rfl, by decide⟩

end Handlers

end SiteRouter
