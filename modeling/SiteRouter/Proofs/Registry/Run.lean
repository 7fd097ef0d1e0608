import SiteRouter.Proofs.Registry.Lookup
import SiteRouter.Proofs.Registry.Verdict
import SiteRouter.Text.BasicLatin

/-!
# Runs of a registry

A registry is built by calls that register routes and close registration, in any number and order.
`after_eq` says all that one call can do: it puts the route that it adds, if there is one, at the
end of the table, and a call that closes the registry closes it. By induction a run puts the added
routes at the end of the table in their order (`run_eq`), and each of them is that of a call
(`getElem?_added`). From this it follows that tables only grow, that a name is held by one route at
most, and that a closed table stays as it is.

A call may add a route and be refused for all that, where the name of the route is not written. The
text of a name always is, so what is said of names that are texts knows only calls that succeed
(`added?_eq_some_iff`).
-/

namespace SiteRouter

/-- A call that may change a registry. -/
inductive Call where
  /-- Registers the route that arguments and keywords stand for. -/
  | add (args : List Value) (options : Mapping)
  /-- Closes registration. -/
  | freeze

/-- Whether the call closes registration. -/
def Call.closes : Call → Bool
  | add _ _ => false
  | freeze => true

namespace Registry

/-- The registry that a call leaves. -/
def after [CharacterNames] (g : Registry) : Call → Registry
  | .add args options => (g.add args options).1
  | .freeze => g.freeze

/-- The route that a call puts in the table, if it puts one there. -/
def added? [CharacterNames] (g : Registry) : Call → Option Route
  | .add args options =>
    ((Registration.ofCall args options).bind g.register).toOption.map Prod.snd
  | .freeze => none

/-- The registry after calls in turn. -/
def run [CharacterNames] (g : Registry) (calls : List Call) : Registry := calls.foldl after g

/-- The routes that calls in turn add. -/
def added [CharacterNames] (g : Registry) : List Call → List Route
  | [] => []
  | c :: calls => (g.added? c).toList ++ (g.after c).added calls

@[simp] theorem run_nil [CharacterNames] (g : Registry) : g.run [] = g := rfl

@[simp] theorem run_cons [CharacterNames] (g : Registry) (c : Call) (calls : List Call) :
    g.run (c :: calls) = (g.after c).run calls := rfl

@[simp] theorem run_append [CharacterNames] (g : Registry) (past future : List Call) :
    g.run (past ++ future) = (g.run past).run future := List.foldl_append

/-! ## One call -/

/-- A call adds a route where the registration that its arguments stand for succeeds. -/
theorem added?_eq_some [CharacterNames] {g : Registry} {c : Call} {r : Route} :
    g.added? c = some r ↔
      ∃ args options registration g', c = .add args options ∧
        Registration.ofCall args options = .ok registration ∧
        g.register registration = .ok (g', r) := by
  cases c with
  | freeze => simp [added?]
  | add args options =>
    rw [added?, Option.map_eq_some_iff]
    simp only [toOption_eq_some, bind_eq_ok]
    constructor
    · rintro ⟨⟨g', _⟩, ⟨registration, hcall, hregister⟩, rfl⟩
      exact ⟨_, _, registration, g', rfl, hcall, hregister⟩
    · rintro ⟨_, _, registration, g', ⟨⟩, hcall, hregister⟩
      exact ⟨(g', r), ⟨registration, hcall, hregister⟩, rfl⟩

/-- A call adds a route whose name is written where it has this route as its result. -/
theorem added?_eq_some_iff [CharacterNames] {g : Registry} {c : Call} {r : Route}
    (hname : r.name.isWritable = true) :
    g.added? c = some r ↔
      ∃ args options g', c = .add args options ∧ g.add args options = (g', .ok r) := by
  rw [added?_eq_some]
  constructor
  · rintro ⟨args, options, registration, g', rfl, hcall, hregister⟩
    refine ⟨args, options, g', rfl, ?_⟩
    have hbind : (Registration.ofCall args options).bind g.register = .ok (g', r) :=
      bind_eq_ok.2 ⟨registration, hcall, hregister⟩
    rw [add, hbind]
    dsimp only
    rw [if_pos hname]
  · rintro ⟨args, options, g', rfl, hadd⟩
    obtain ⟨registration, hcall, hregister⟩ := add_eq_ok hadd
    exact ⟨args, options, registration, g', rfl, hcall, hregister⟩

/-- A route is added to an open registry, under a name that is free. -/
theorem added?_facts [CharacterNames] {g : Registry} {c : Call} {r : Route}
    (h : g.added? c = some r) :
    g.frozen = false ∧ g.named? r.name = none ∧
      Pattern.compile r.pattern ⟨g.config.caseSensitive.truthy, g.config.strict.truthy, true⟩
        = .ok r.compiled := by
  obtain ⟨args, options, registration, g', -, -, hregister⟩ := added?_eq_some.1 h
  obtain ⟨hopen, hfree, hbuild, -⟩ := register_eq_ok hregister
  rw [← Route.build_name hbuild, Option.isSome_eq_false_iff, Option.isNone_iff_eq_none] at hfree
  exact ⟨hopen, hfree, Route.build_compiled hbuild⟩

/-- A call puts the route that it adds at the end of the table, or closes the registry, and changes
nothing else. -/
theorem after_eq [CharacterNames] (g : Registry) (c : Call) :
    g.after c = { g with
      routes := g.routes ++ (g.added? c).toList
      frozen := g.frozen || c.closes } := by
  cases c with
  | freeze => simp [after, added?, freeze, Call.closes]
  | add args options =>
    obtain ⟨f, hcall, hadd⟩ | ⟨registration, r, hcall, hregister, hadd⟩ := add_cases g args options
    · simp [after, added?, hcall, hadd, Except.toOption, Call.closes]
    · have hbind := bind_eq_ok.2 ⟨registration, hcall, hregister⟩
      simp [after, added?, hbind, hadd, Except.toOption, Call.closes]

/-! ## Calls in turn -/

/-- A run puts the routes that its calls add at the end of the table. -/
theorem run_eq [CharacterNames] (g : Registry) (calls : List Call) :
    g.run calls = { g with
      routes := g.routes ++ g.added calls
      frozen := g.frozen || calls.any Call.closes } := by
  induction calls generalizing g with
  | nil => simp [added]
  | cons c calls ih =>
    rw [run_cons, ih, after_eq]
    simp [added, after_eq, Bool.or_assoc]

theorem routes_run [CharacterNames] (g : Registry) (calls : List Call) :
    (g.run calls).routes = g.routes ++ g.added calls := by
  rw [run_eq]

/-- A closed registry adds nothing. -/
theorem added_of_frozen [CharacterNames] {g : Registry} (h : g.frozen = true) (calls : List Call) :
    g.added calls = [] := by
  induction calls generalizing g with
  | nil => rfl
  | cons c calls ih =>
    have hnone : g.added? c = none := by
      cases hadded : g.added? c with
      | none => rfl
      | some r => exact absurd h (by rw [(added?_facts hadded).1]; exact Bool.false_ne_true)
    have hfrozen : (g.after c).frozen = true := by rw [after_eq, h]; rfl
    rw [added, hnone, ih hfrozen]
    rfl

/-- What two runs in turn add is what the first and then the second adds. -/
theorem added_append [CharacterNames] (g : Registry) (past future : List Call) :
    g.added (past ++ future) = g.added past ++ (g.run past).added future := by
  induction past generalizing g with
  | nil => rfl
  | cons c past ih => rw [List.cons_append, added, added, ih, List.append_assoc, run_cons]

/-- What is added is added by one of the calls, in the place after what is added before it. -/
theorem getElem?_added [CharacterNames] {g : Registry} {calls : List Call} {i : Nat} {r : Route} :
    (g.added calls)[i]? = some r ↔
      ∃ past c future, calls = past ++ c :: future ∧ (g.run past).added? c = some r ∧
        i = (g.added past).length := by
  constructor
  · intro h
    induction calls generalizing g i with
    | nil => cases h
    | cons c calls ih =>
      rw [added] at h
      cases hadded : g.added? c with
      | none =>
        rw [hadded] at h
        obtain ⟨past, d, future, rfl, hd, rfl⟩ := ih h
        exact ⟨c :: past, d, future, rfl, hd, by rw [added, hadded]; rfl⟩
      | some r' =>
        rw [hadded] at h
        cases i with
        | zero =>
          cases h
          exact ⟨[], c, calls, rfl, hadded, rfl⟩
        | succ i =>
          obtain ⟨past, d, future, rfl, hd, rfl⟩ := ih h
          refine ⟨c :: past, d, future, rfl, hd, ?_⟩
          rw [added, hadded]
          rfl
  · rintro ⟨past, c, future, rfl, hadded, rfl⟩
    rw [added_append, added, hadded]
    simp

/-- The table of a run that started without routes holds what its calls add. -/
theorem getElem?_routes_run [CharacterNames] {g : Registry} (hroutes : g.routes = [])
    {calls : List Call} {i : Nat}
    {r : Route} :
    (g.run calls).routes[i]? = some r ↔
      ∃ past c future, calls = past ++ c :: future ∧ (g.run past).added? c = some r ∧
        i = (g.run past).routes.length := by
  simp only [routes_run, hroutes, List.nil_append]
  exact getElem?_added

/-! ## Names -/

/-- No two routes have the same name, unless it is an empty one. -/
def NamesOnce (routes : List Route) : Prop :=
  routes.Pairwise fun r r' => ∀ n, n ≠ "" → r.name = .str n → r'.name ≠ .str n

/-- The route with a name is the first one that has it. -/
theorem named?_str_eq_some {g : Registry} {n : String} (hn : n ≠ "") {e : Entry} :
    g.named? (.str n) = some e ↔
      g.routes[e.index]? = some e.route ∧ e.route.name = .str n ∧
        ∀ j < e.index, ∀ r, g.routes[j]? = some r → r.name ≠ .str n := by
  have htruthy : (Value.str n).truthy = true := bne_iff_ne.2 hn
  rw [named?_eq, if_pos htruthy, findPlace?_eq_some]
  simp only [Value.same_str_iff, Option.ite_none_right_eq_some, Option.some.injEq,
    ite_eq_right_iff, reduceCtorEq, imp_false]
  constructor
  · rintro ⟨i, r, hr, ⟨hname, rfl⟩, hbefore⟩
    exact ⟨hr, hname, hbefore⟩
  · rintro ⟨hr, hname, hbefore⟩
    exact ⟨e.index, e.route, hr, ⟨hname, rfl⟩, hbefore⟩

/-- A name is free where no route has it. -/
theorem named?_str_eq_none {g : Registry} {n : String} (hn : n ≠ "") :
    g.named? (.str n) = none ↔ ∀ r ∈ g.routes, r.name ≠ .str n := by
  have htruthy : (Value.str n).truthy = true := bne_iff_ne.2 hn
  rw [named?_eq, if_pos htruthy, findPlace?_eq_none]
  simp only [Value.same_str_iff, ite_eq_right_iff, reduceCtorEq, imp_false]
  constructor
  · intro h r hr
    obtain ⟨i, hi⟩ := List.getElem?_of_mem hr
    exact h i r hi
  · intro h i r hr
    exact h r (List.mem_of_getElem? hr)

/-- Where names are held once, the route with a name is the only one that has it. -/
theorem NamesOnce.named?_str {g : Registry} (h : NamesOnce g.routes) {n : String} (hn : n ≠ "")
    {e : Entry} :
    g.named? (.str n) = some e ↔ g.routes[e.index]? = some e.route ∧ e.route.name = .str n := by
  rw [named?_str_eq_some hn]
  constructor
  · rintro ⟨hr, hname, -⟩
    exact ⟨hr, hname⟩
  · rintro ⟨hr, hname⟩
    refine ⟨hr, hname, fun j hj r hr' hname' => ?_⟩
    obtain ⟨hi, hr⟩ := List.getElem?_eq_some_iff.1 hr
    obtain ⟨hj', hr'⟩ := List.getElem?_eq_some_iff.1 hr'
    refine List.pairwise_iff_getElem.1 h j e.index hj' hi hj n hn ?_ ?_
    · rw [hr', hname']
    · rw [hr, hname]

/-- A call keeps names to one route each. -/
theorem NamesOnce.after [CharacterNames] {g : Registry} (h : NamesOnce g.routes) (c : Call) :
    NamesOnce (g.after c).routes := by
  rw [after_eq]
  show NamesOnce (g.routes ++ _)
  cases hadded : g.added? c with
  | none =>
    rw [Option.toList_none, List.append_nil]
    exact h
  | some r =>
    obtain ⟨-, hfree, -⟩ := added?_facts hadded
    rw [Option.toList_some, NamesOnce, List.pairwise_append]
    refine ⟨h, List.pairwise_singleton _ r, ?_⟩
    rintro r' hr' _ hr n hn hname hname'
    -- The name of the new route was free.
    rw [List.mem_singleton.1 hr] at hname'
    rw [hname', named?_str_eq_none hn] at hfree
    exact hfree r' hr' hname

/-- A run keeps names to one route each. -/
theorem NamesOnce.run [CharacterNames] {g : Registry} (h : NamesOnce g.routes) (calls : List Call) :
    NamesOnce (g.run calls).routes := by
  induction calls generalizing g with
  | nil => exact h
  | cons c calls ih => exact ih (h.after c)

/-! ## Reachable registries -/

/-- A registry that calls have made of a new one. -/
def Reachable [CharacterNames] (g : Registry) : Prop :=
  ∃ config domain g₀ calls, Registry.empty config domain = .ok g₀ ∧ g₀.run calls = g

namespace Reachable

variable {g : Registry}

/-- The rule for club folders of a reachable registry is the one that its settings ask for. -/
theorem folders [CharacterNames] (h : g.Reachable) :
    ClubFolders.ofValue g.config.clubsPrefix = .ok g.folders := by
  obtain ⟨config, domain, g₀, calls, hempty, rfl⟩ := h
  have hfolders := empty_folders hempty
  rw [← (empty_eq_ok hempty).1] at hfolders
  rw [run_eq]
  exact hfolders

/-- A reachable registry keeps a name to one route. -/
theorem namesOnce [CharacterNames] (h : g.Reachable) : NamesOnce g.routes := by
  obtain ⟨config, domain, g₀, calls, hempty, rfl⟩ := h
  have hnone : NamesOnce g₀.routes := by
    rw [(empty_eq_ok hempty).2.1]
    exact .nil
  exact hnone.run calls

/-- Each route of a reachable registry holds the compiled form of its pattern. -/
theorem compiled [CharacterNames] (h : g.Reachable) {r : Route} (hr : r ∈ g.routes) :
    Pattern.compile r.pattern ⟨g.config.caseSensitive.truthy, g.config.strict.truthy, true⟩
      = .ok r.compiled := by
  obtain ⟨config, domain, g₀, calls, hempty, rfl⟩ := h
  obtain ⟨-, hroutes, -⟩ := empty_eq_ok hempty
  obtain ⟨i, hi⟩ := List.getElem?_of_mem hr
  obtain ⟨past, c, future, -, hadded, -⟩ := (getElem?_routes_run hroutes).1 hi
  obtain ⟨-, -, hcompiled⟩ := added?_facts hadded
  rw [run_eq] at hcompiled ⊢
  exact hcompiled

end Reachable

/-! ## Whole runs -/

/-- In every run of calls on a new registry, tables only grow: each is the start of all later ones,
and one more call either puts one route at the end or is refused and changes nothing, unless it is
refused because the name of the route that it has put at the end is not written. A name is held by
one route at most, which is the one that a call has registered under it. Once closed, a registry
stays as it is. A registration is refused for the first reason that applies. -/
theorem run_table [CharacterNames] {config : Config} {domain : Option String} {g₀ : Registry}
    (hempty : Registry.empty config domain = .ok g₀) (calls : List Call) :
    (∀ past future, calls = past ++ future →
      (g₀.run past).routes <+: (g₀.run calls).routes) ∧
    (∀ args options,
      (∀ g r, (g₀.run calls).add args options = (g, .ok r) →
        g₀.run (calls ++ [.add args options]) = g ∧
          g = { g₀.run calls with routes := (g₀.run calls).routes ++ [r] }) ∧
      (∀ g f, (g₀.run calls).add args options = (g, .error f) →
        g₀.run (calls ++ [.add args options]) = g ∧
          (g = g₀.run calls ∨ f = .wrongValue ∧ ∃ r : Route, r.name.isWritable = false ∧
            g = { g₀.run calls with routes := (g₀.run calls).routes ++ [r] })) ∧
      ∀ s, Registration.ofCall args options = .ok s →
        (g₀.run calls).add args options = (g₀.run calls).verdict s) ∧
    NamesOnce (g₀.run calls).routes ∧
    (∀ n, n ≠ "" → ∀ e : Entry, (g₀.run calls).named? (.str n) = some e ↔
      ∃ past args options future g, calls = past ++ .add args options :: future ∧
        (g₀.run past).add args options = (g, .ok e.route) ∧ e.route.name = .str n ∧
        e.index = (g₀.run past).routes.length) ∧
    (∀ past future, calls = past ++ .freeze :: future →
      (g₀.run calls).routes = (g₀.run past).routes ∧ (g₀.run calls).frozen = true) := by
  obtain ⟨-, hroutes, -⟩ := empty_eq_ok hempty
  have honce : NamesOnce (g₀.run calls).routes := by
    refine NamesOnce.run ?_ calls
    rw [hroutes]
    exact .nil
  refine ⟨?_, ?_, honce, ?_, ?_⟩
  · -- A table is the start of all later ones.
    rintro past future rfl
    rw [run_append, routes_run _ future]
    exact List.prefix_append _ _
  · -- One more call.
    intro args options
    have hrun : g₀.run (calls ++ [.add args options])
        = (g₀.run calls).after (.add args options) := by
      rw [run_append]
      rfl
    refine ⟨fun g r hadd => ?_, fun g f hadd => ?_, fun s hs => add_eq_verdict hs⟩
    · obtain ⟨registration, -, hregister⟩ := add_eq_ok hadd
      obtain ⟨-, -, -, hg⟩ := register_eq_ok hregister
      exact ⟨by rw [hrun, after, hadd], hg⟩
    · exact ⟨by rw [hrun, after, hadd], add_eq_error hadd⟩
  · -- Look-up by name. A name that is a text is written, so its route is a result.
    intro n hn e
    rw [honce.named?_str hn, getElem?_routes_run hroutes]
    constructor
    · rintro ⟨⟨past, c, future, hcalls, hadded, hindex⟩, hname⟩
      have hwritable : e.route.name.isWritable = true := by rw [hname, Value.isWritable_str]
      obtain ⟨args, options, g, rfl, hadd⟩ := (added?_eq_some_iff hwritable).1 hadded
      exact ⟨past, args, options, future, g, hcalls, hadd, hname, hindex⟩
    · rintro ⟨past, args, options, future, g, hcalls, hadd, hname, hindex⟩
      have hwritable : e.route.name.isWritable = true := by rw [hname, Value.isWritable_str]
      have hadded := (added?_eq_some_iff hwritable).2 ⟨_, _, _, rfl, hadd⟩
      exact ⟨⟨past, _, future, hcalls, hadded, hindex⟩, hname⟩
  · -- Behind a call that closes the registry.
    rintro past future rfl
    have hclosed : ((g₀.run past).after .freeze).frozen = true := rfl
    rw [run_append, run_cons]
    refine ⟨?_, ?_⟩
    · rw [routes_run, added_of_frozen hclosed, List.append_nil]
      rfl
    · rw [run_eq, hclosed]
      rfl

/-- A route is found by its name after a second one of the name was tried, and what is tried after
closing the registry leaves the table as it was. -/
theorem run_table_home :
    ∃ g₀ r, Registry.empty {} none = .ok g₀ ∧
      (g₀.run [.add [.str "home", .str "/"] [], .add [.str "home"] [], .freeze,
        .add [.str "about"] []]).named? (.str "home") = some ⟨0, r⟩ ∧
      (g₀.run [.add [.str "home", .str "/"] [], .add [.str "home"] [], .freeze,
        .add [.str "about"] []]).routes =
          (g₀.run [.add [.str "home", .str "/"] [], .add [.str "home"] []]).routes := by
  obtain ⟨g₀, g, r, hempty, hadd, hname, hroutes⟩ : ∃ g₀ g r, Registry.empty {} none = .ok g₀ ∧
      g₀.add [.str "home", .str "/"] [] = (g, .ok r) ∧ r.name = .str "home" ∧ g₀.routes = [] :=
    ⟨_, _, _, rfl, rfl, rfl, rfl⟩
  obtain ⟨-, -, -, hnamed, hclosed⟩ := run_table hempty [.add [.str "home", .str "/"] [],
    .add [.str "home"] [], .freeze, .add [.str "about"] []]
  have hindex : (⟨0, r⟩ : Entry).index = (g₀.run []).routes.length := by
    rw [run_nil, hroutes]
    rfl
  exact ⟨g₀, r, hempty, (hnamed "home" (by decide) ⟨0, r⟩).2
    ⟨[], _, _, _, g, rfl, hadd, hname, hindex⟩, (hclosed [_, _] [_] rfl).1⟩

/-- A page that is no text is refused for its kind, although the registry is open, the name free, a
page given and the pattern sound; and a name with too many digits is refused with its route in the
table. -/
theorem add_refused_otherwise :
    (∃ g s p, Registry.empty {} none = .ok g ∧
      Registration.ofCall [.str "home", .str "/", .int 5] [] = .ok s ∧
      g.frozen = false ∧ g.named? s.name = none ∧ (s.page.orElse s.name).truthy = true ∧
      Route.compilePattern s.pattern g.config.caseSensitive g.config.strict = .ok p ∧
      g.add [.str "home", .str "/", .int 5] [] = (g, .error .wrongKind)) ∧
    ∃ g g' r, Registry.empty {} none = .ok g ∧
      g.add [.spec (.int (Nat.pow 10 4300)) (.str "/") (.str "home") .null] [] =
        (g', .error .wrongValue) ∧
      g'.routes = g.routes ++ [r] := by
  refine ⟨⟨_, _, _, rfl, rfl, rfl, rfl, rfl, rfl, rfl⟩, ?_⟩
  -- Of the integer it only matters that it has too many digits.
  have hwritable : (Value.int (Nat.pow 10 4300)).isWritable = false := by decide +kernel
  generalize ((Nat.pow 10 4300 : Nat) : Int) = i at hwritable ⊢
  obtain ⟨g, r, hempty, hbuild⟩ : ∃ g r, Registry.empty {} none = .ok g ∧
      Route.build (.int i) (.str "/") (.str "home") .null (.bool false) (.bool false) = .ok r :=
    ⟨_, _, rfl, rfl⟩
  obtain ⟨hconfig, hroutes, hopen⟩ := empty_eq_ok hempty
  have hfree : (g.named? (.int i)).isSome = false := by
    rw [named?, hroutes]
    split <;> rfl
  have hadd : g.add [.spec (.int i) (.str "/") (.str "home") .null] [] =
      ({ g with routes := g.routes ++ [r] },
        if r.name.isWritable then .ok r else .error .wrongValue) := by
    have hcall : (Registration.ofCall [.spec (.int i) (.str "/") (.str "home") .null] []).bind
        g.register = .ok ({ g with routes := g.routes ++ [r] }, r) := by
      show g.register _ = _
      rw [register, if_neg (Bool.eq_false_iff.1 hopen), if_neg (Bool.eq_false_iff.1 hfree), hconfig]
      exact congrArg (Except.map _) hbuild
    rw [add, hcall]
  rw [Route.build_name hbuild, hwritable] at hadd
  exact ⟨g, _, r, hempty, hadd, rfl⟩

end Registry

end SiteRouter
