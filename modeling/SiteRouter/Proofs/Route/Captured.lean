import SiteRouter.Proofs.Route.Keys
import SiteRouter.Proofs.Pattern.Walk
import SiteRouter.Text.BasicLatin

/-!
# What a match binds

The groups of the expression for a path are numbered by their parentheses, the captures of the
pattern by their tokens, and a match pairs the two. They agree as long as no sub-pattern opens a
group of its own (`match?_own`): each name is then bound to what the capture of that name read in
its place. A sub-pattern may not have parentheses, but one with a backslash before a parenthesis
gets another backslash, and the parenthesis opens a group after all
(`match?_escaped_parenthesis`).
-/

namespace SiteRouter.Route

/-- A name is bound to the text of a capture of that name. -/
theorem mem_bind {captures : List Pattern.Capture} {texts : List (Option String)}
    {name text : String} :
    (name, text) ∈ bind captures texts ↔ ∃ (i : Nat) (c : Pattern.Capture) (t : String),
      captures[i]? = some c ∧ c.key = .named name ∧ texts[i]? = some (some t) ∧
        text = Text.Percent.decode t := by
  rw [bind, List.mem_filterMap]
  constructor
  · rintro ⟨⟨c, t?⟩, hmem, hbind⟩
    obtain ⟨i, hi⟩ := List.mem_iff_getElem?.1 hmem
    obtain ⟨hc, ht⟩ := List.getElem?_zip_eq_some.1 hi
    dsimp only at hbind hc ht
    split at hbind
    · next key t hkey =>
      cases hbind
      exact ⟨i, c, t, hc, hkey, ht, rfl⟩
    · cases hbind
  · rintro ⟨i, c, t, hc, hkey, ht, rfl⟩
    refine ⟨(c, some t), List.mem_iff_getElem?.2 ⟨i, List.getElem?_zip_eq_some.2 ⟨hc, ht⟩⟩, ?_⟩
    dsimp only
    rw [hkey]

/-- Where no sub-pattern opens a group of its own, a match has a value, or none, for each capture,
read by that capture in its place, and binds a name to the decoded value of the capture of that
name. -/
theorem match?_own [CharacterNames] {r : Route} {o : Pattern.Options}
    (hcompiled : Pattern.compile r.pattern o = .ok r.compiled)
    (hown : ∀ c ∈ r.compiled.captures, c.OpensNoGroup) {path : String}
    {params : List (String × String)} (h : r.match? path = some params) :
    ∃ vs, r.compiled.Walks path vs ∧ vs.length = r.compiled.captures.length ∧
      r.compiled.groups? path = some (vs.map (Option.map String.ofList)) ∧
      (params.map Prod.fst).Nodup ∧ ∀ name text, (name, text) ∈ params ↔
        ∃ (i : Nat) (c : Pattern.Capture) (v : List Char), r.compiled.captures[i]? = some c ∧
          c.key = .named name ∧ vs[i]? = some (some v) ∧
          text = Text.Percent.decode (String.ofList v) := by
  have hkeys : (params.map Prod.fst).Nodup :=
    (match?_keys_sublist h).nodup (Pattern.paramKeys_nodup hcompiled)
  obtain ⟨gs, hgroups, rfl⟩ := Option.map_eq_some_iff.1 h
  obtain ⟨vs, hwalks, rfl, hlength⟩ := Pattern.Compiled.walks_of_groups? hcompiled hown hgroups
  refine ⟨vs, hwalks, hlength, hgroups, hkeys, fun name text => ?_⟩
  rw [mem_bind]
  constructor
  · rintro ⟨i, c, t, hc, hkey, ht, rfl⟩
    rw [List.getElem?_map, Option.map_eq_some_iff] at ht
    obtain ⟨v?, hv, ht⟩ := ht
    obtain ⟨v, rfl, rfl⟩ := Option.map_eq_some_iff.1 ht
    exact ⟨i, c, v, hc, hkey, hv, rfl⟩
  · rintro ⟨i, c, v, hc, hkey, hv, rfl⟩
    exact ⟨i, c, _, hc, hkey, by rw [List.getElem?_map, hv]; rfl, rfl⟩

theorem match?_own_item :
    ∃ r, Route.build (.str "item") (.str "/:kind(a|b)/:id(\\d+)") .null .null (.bool false)
        (.bool false) = .ok r ∧
      (∀ c ∈ r.compiled.captures, c.OpensNoGroup) ∧
      r.match? "/b/7" = some [("kind", "b"), ("id", "7")] ∧
      ∃ vs, r.compiled.Walks "/b/7" vs ∧ vs.length = r.compiled.captures.length ∧
        r.compiled.groups? "/b/7" = some (vs.map (Option.map String.ofList)) := by
  have hrun : ((Route.build (.str "item") (.str "/:kind(a|b)/:id(\\d+)") .null .null (.bool false)
      (.bool false)).toOption.map fun r =>
        (decide (∀ c ∈ r.compiled.captures, c.OpensNoGroup), r.match? "/b/7"))
      = some (true, some [("kind", "b"), ("id", "7")]) := by decide +kernel
  obtain ⟨r, hr, hfacts⟩ := Option.map_eq_some_iff.1 hrun
  have hr := toOption_eq_some.1 hr
  obtain ⟨hown, hmatch⟩ := Prod.mk.inj hfacts
  have hown := of_decide_eq_true hown
  obtain ⟨vs, hwalks, hlength, hgroups, -⟩ := match?_own (build_compiled hr) hown hmatch
  exact ⟨r, hr, hown, hmatch, vs, hwalks, hlength, hgroups⟩

/-- A parenthesis behind a backslash opens a group of its own: there are two captures, but three
values, and the second name is bound to a piece of what the first capture read. -/
theorem match?_escaped_parenthesis :
    ∃ r, Route.build (.str "q") (.str "/:x(\\(a\\))/:y") .null .null (.bool false) (.bool false)
        = .ok r ∧
      r.compiled.captures.length = 2 ∧
      r.compiled.groups? "/\\a\\/q" = some [some "\\a\\", some "a\\", some "q"] ∧
      r.match? "/\\a\\/q" = some [("x", "\\a\\"), ("y", "a\\")] := by
  have hrun : ((Route.build (.str "q") (.str "/:x(\\(a\\))/:y") .null .null (.bool false)
      (.bool false)).toOption.map fun r => (r.compiled.captures.length,
        r.compiled.groups? "/\\a\\/q", r.match? "/\\a\\/q"))
      = some (2, some [some "\\a\\", some "a\\", some "q"],
        some [("x", "\\a\\"), ("y", "a\\")]) := by decide +kernel
  obtain ⟨r, hr, hfacts⟩ := Option.map_eq_some_iff.1 hrun
  obtain ⟨hlength, hfacts⟩ := Prod.mk.inj hfacts
  obtain ⟨hgroups, hmatch⟩ := Prod.mk.inj hfacts
  exact ⟨r, toOption_eq_some.1 hr, hlength, hgroups, hmatch⟩

end SiteRouter.Route
