import SiteRouter.Registry
import SiteRouter.Proofs.Route.Build

/-!
# What registering a route does

A registration that succeeds finds the registry open and the name free, builds the route and puts
it at the end of the table. Nothing else changes. A call that registers a route has this route as
its result, unless the name cannot be shown in the report on it (`add_cases`).
-/

namespace SiteRouter.Registry

/-- A new registry has its settings and no routes, and is open. -/
theorem empty_eq_ok [CharacterNames] {config : Config} {domain : Option String} {g : Registry}
    (h : Registry.empty config domain = .ok g) :
    g.config = config ∧ g.routes = [] ∧ g.frozen = false := by
  obtain ⟨folders, -, rfl⟩ := map_eq_ok.1 h
  exact ⟨rfl, rfl, rfl⟩

/-- The rule for club folders of a new registry is the one that its settings ask for. -/
theorem empty_folders [CharacterNames] {config : Config} {domain : Option String} {g : Registry}
    (h : Registry.empty config domain = .ok g) :
    ClubFolders.ofValue config.clubsPrefix = .ok g.folders := by
  obtain ⟨folders, hfolders, rfl⟩ := map_eq_ok.1 h
  exact hfolders

/-- What a successful registration does. -/
theorem register_eq_ok [CharacterNames] {g g' : Registry} {registration : Registration} {r : Route}
    (h : g.register registration = .ok (g', r)) :
    g.frozen = false ∧ (g.named? registration.name).isSome = false ∧
      registration.build g.config.caseSensitive g.config.strict = .ok r ∧
      g' = { g with routes := g.routes ++ [r] } := by
  unfold register at h
  split at h
  · cases h
  · next hopen =>
    split at h
    · cases h
    · next hfree =>
      obtain ⟨route, hbuild, heq⟩ := map_eq_ok.1 h
      cases heq
      exact ⟨Bool.eq_false_iff.2 hopen, Bool.eq_false_iff.2 hfree, hbuild, rfl⟩

/-- A call is refused and leaves the registry as it was, or its arguments stand for a registration
that puts a route at the end of the table. The route is the result of the call if its name is
written. -/
theorem add_cases [CharacterNames] (g : Registry) (args : List Value) (options : Mapping) :
    (∃ f, (Registration.ofCall args options).bind g.register = .error f ∧
      g.add args options = (g, .error f)) ∨
    ∃ registration r, Registration.ofCall args options = .ok registration ∧
      g.register registration = .ok ({ g with routes := g.routes ++ [r] }, r) ∧
      g.add args options = ({ g with routes := g.routes ++ [r] },
        if r.name.isWritable then .ok r else .error .wrongValue) := by
  unfold add
  cases hcall : (Registration.ofCall args options).bind g.register with
  | error f => exact .inl ⟨f, rfl, rfl⟩
  | ok result =>
    obtain ⟨g', r⟩ := result
    obtain ⟨registration, hregistration, hregister⟩ := bind_eq_ok.1 hcall
    obtain ⟨-, -, -, rfl⟩ := register_eq_ok hregister
    exact .inr ⟨registration, r, hregistration, hregister, rfl⟩

/-- A call keeps the settings. -/
theorem config_add [CharacterNames] (g : Registry) (args : List Value) (options : Mapping) :
    (g.add args options).1.config = g.config := by
  obtain ⟨f, -, hadd⟩ | ⟨registration, r, -, -, hadd⟩ := add_cases g args options
  · rw [hadd]
  · rw [hadd]

/-- What a successful call does: its arguments stand for a registration that succeeds. -/
theorem add_eq_ok [CharacterNames] {g g' : Registry} {args : List Value} {options : Mapping}
    {r : Route}
    (h : g.add args options = (g', .ok r)) :
    ∃ registration, Registration.ofCall args options = .ok registration ∧
      g.register registration = .ok (g', r) := by
  obtain ⟨f, -, hadd⟩ | ⟨registration, r', hregistration, hregister, hadd⟩ :=
    add_cases g args options
  · cases (Prod.mk.inj (h.symm.trans hadd)).2
  · obtain ⟨rfl, hresult⟩ := Prod.mk.inj (h.symm.trans hadd)
    split at hresult
    · cases hresult
      exact ⟨registration, hregistration, hregister⟩
    · cases hresult

/-- A call that is refused leaves the registry as it was, or with a route whose name is not written.
-/
theorem add_eq_error [CharacterNames] {g g' : Registry} {args : List Value} {options : Mapping}
    {f : Fault} (h : g.add args options = (g', .error f)) :
    g' = g ∨ f = .wrongValue ∧ ∃ r : Route, r.name.isWritable = false ∧
      g' = { g with routes := g.routes ++ [r] } := by
  obtain ⟨f', -, hadd⟩ | ⟨registration, r, -, -, hadd⟩ := add_cases g args options
  · exact .inl (Prod.mk.inj (h.symm.trans hadd)).1
  · obtain ⟨rfl, hresult⟩ := Prod.mk.inj (h.symm.trans hadd)
    split at hresult
    · cases hresult
    · next hname =>
      cases hresult
      exact .inr ⟨rfl, r, Bool.eq_false_iff.2 hname, rfl⟩

/-- The only route after a call on a registry without routes is compiled for its settings. -/
theorem compiled_of_add_to_empty [CharacterNames] {config : Config} {domain : Option String}
    {g g' : Registry} {args : List Value} {options : Mapping} {result : Except Fault Route}
    {r : Route} (hempty : Registry.empty config domain = .ok g)
    (hadd : g.add args options = (g', result)) (hroutes : g'.routes = [r]) :
    Pattern.compile r.pattern ⟨config.caseSensitive.truthy, config.strict.truthy, true⟩
      = .ok r.compiled := by
  obtain ⟨hconfig, hnone, -⟩ := empty_eq_ok hempty
  obtain ⟨f, -, hcall⟩ | ⟨registration, r', -, hregister, hcall⟩ := add_cases g args options
  · obtain ⟨rfl, -⟩ := Prod.mk.inj (hadd.symm.trans hcall)
    rw [hnone] at hroutes
    cases hroutes
  · obtain ⟨rfl, -⟩ := Prod.mk.inj (hadd.symm.trans hcall)
    rw [hnone] at hroutes
    cases hroutes
    obtain ⟨-, -, hbuild, -⟩ := register_eq_ok hregister
    rw [hconfig] at hbuild
    exact Route.build_compiled hbuild

/-- The route added to a registry without routes is its only one, compiled for its settings. -/
theorem add_to_empty [CharacterNames] {config : Config} {domain : Option String} {g g' : Registry}
    {args : List Value} {options : Mapping} {r : Route}
    (hempty : Registry.empty config domain = .ok g) (hadd : g.add args options = (g', .ok r)) :
    g'.routes = [r] ∧
      Pattern.compile r.pattern ⟨config.caseSensitive.truthy, config.strict.truthy, true⟩
        = .ok r.compiled := by
  obtain ⟨-, hnone, -⟩ := empty_eq_ok hempty
  obtain ⟨registration, -, hregister⟩ := add_eq_ok hadd
  obtain ⟨-, -, -, rfl⟩ := register_eq_ok hregister
  have hroutes : g.routes ++ [r] = [r] := by rw [hnone, List.nil_append]
  exact ⟨hroutes, compiled_of_add_to_empty hempty hadd hroutes⟩

end SiteRouter.Registry
