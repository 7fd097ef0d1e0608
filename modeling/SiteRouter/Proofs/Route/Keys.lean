import SiteRouter.Proofs.Route.Build

/-!
# The names that a match binds

The parameters of a pattern have different names, and a match binds some of them, in the order in
which the pattern has them.
-/

namespace SiteRouter

/-- The parameters of a compiled pattern have different names. -/
theorem Pattern.paramKeys_nodup [CharacterNames] {pattern : String} {o : Pattern.Options}
    {p : Pattern.Compiled}
    (h : Pattern.compile pattern o = .ok p) : p.paramKeys.Nodup :=
  Pattern.parse_paramNames_nodup (Pattern.Compiled.madeFrom h).tokens

namespace Route

/-- Captures bind names of theirs, in order. -/
theorem bind_keys_sublist (captures : List Pattern.Capture) (texts : List (Option String)) :
    ((bind captures texts).map Prod.fst).Sublist (captures.filterMap (·.key.name?)) := by
  induction captures generalizing texts with
  | nil => exact .slnil
  | cons c captures ih =>
    cases texts with
    | nil => exact List.nil_sublist _
    | cons text? texts =>
      obtain ⟨key, lead, body, modifier, shared⟩ := c
      cases key with
      | position n => exact ih texts
      | named name =>
        cases text? with
        | none => exact (ih texts).cons name
        | some text => exact (ih texts).cons_cons name

/-- A match binds names of the parameters of the route, in order. -/
theorem match?_keys_sublist {r : Route} {path : String} {params : List (String × String)}
    (h : r.match? path = some params) : (params.map Prod.fst).Sublist r.paramKeys := by
  obtain ⟨texts, -, rfl⟩ := Option.map_eq_some_iff.1 h
  exact bind_keys_sublist _ texts

end Route

end SiteRouter
