import SiteRouter.Proofs.Registry.Pair
import SiteRouter.Text.BasicLatin

/-!
# Strict routes and the public paths that they write

A strict route of plain segments matches each path that it writes, since what segments write can be
shared out among them again. A public path is the path that is written but for one case: an empty
path is shown as a slash, which a strict pattern does not read. The path is empty only where nothing
but a parameter without a value is in the pattern (`Segment.WritesNothing`), since a text writes
itself and a second parameter would have no modifier. In all other cases the public path leads back to
the route (`match?_publicPath_strict`).
-/

namespace SiteRouter

namespace Pattern

open Text

/-- The one segment is a parameter, and no value is given for it. -/
def Segment.WritesNothing (params : Mapping) (ss : List Segment) : Prop :=
  ∃ name body m, ss = [.parameter name body m] ∧ (paramOf params name).isGiven = false

variable {ss : List Segment} {o : Options} {params : Mapping}

/-! ## Empty paths -/

/-- A segment has no parts exactly if it is a parameter without a value. -/
theorem Segment.parts_eq_nil_iff (s : Segment) :
    s.parts params = [] ↔
      ∃ name body m, s = .parameter name body m ∧ (paramOf params name).isGiven = false := by
  cases s with
  | literal t =>
    constructor
    · nofun
    · rintro ⟨name, body, m, heq, -⟩
      cases heq
  | parameter name body m =>
    show (paramOf params name).texts.map encodePart = [] ↔ _
    rw [List.map_eq_nil_iff]
    constructor
    · intro hnil
      refine ⟨name, body, m, rfl, ?_⟩
      by_contra hgiven
      obtain ⟨t, ts, htexts, -⟩ := Value.texts_of_isGiven (Bool.not_eq_false _ ▸ hgiven)
      exact absurd (htexts.symm.trans hnil) (List.cons_ne_nil t ts)
    · rintro ⟨name', body', m', heq, hgiven⟩
      cases heq
      exact Value.texts_of_not_isGiven hgiven

/-- Segments that share no parts out have modifiers. -/
theorem Shares.isModified_of_nil {ignoreCase : Bool} {vs : List (Option (List Char))}
    (h : Shares ignoreCase ss [] vs) : ∀ s ∈ ss, s.isModified = true := by
  generalize hparts : ([] : List (List Char)) = ps at h
  induction h with
  | nil => exact nofun
  | literal => cases hparts
  | @parameter name body m ss qs ps vs hallows _ ih =>
    obtain ⟨rfl, rfl⟩ := List.append_eq_nil_iff.1 hparts.symm
    have hoptional : m.isOptional = true := m.allows_zero.1 hallows
    have hmodified : (Segment.parameter name body m).isModified = true := by
      unfold Segment.isModified
      rw [bne_iff_ne]
      rintro rfl
      cases hoptional
    exact List.forall_mem_cons.2 ⟨hmodified, ih rfl⟩

/-- With at most one modifier the path that is written is empty exactly if one parameter without a
value is all there is. -/
theorem Plain.toPath_eq_empty_iff (h : Plain ss)
    (hone : (ss.filter Segment.isModified).length ≤ 1) {path : String}
    (hpath : (compiledPlain ss o).toPath params = .ok path) :
    path = "" ↔ Segment.WritesNothing params ss := by
  obtain ⟨hparts, -, hshares⟩ := h.shares_toPath hpath
  have hempty : path = "" ↔ ss.flatMap (Segment.parts params) = [] := by
    rw [← String.toList_eq_nil_iff, hparts, slashed_eq_nil_iff]
  rw [hempty]
  constructor
  · intro hnil
    rw [hnil] at hshares
    -- All segments have modifiers, so there is just one.
    have hall : ss.filter Segment.isModified = ss := List.filter_eq_self.2 hshares.isModified_of_nil
    rw [hall] at hone
    obtain ⟨s, rfl⟩ : ∃ s, ss = [s] := by
      cases ss with
      | nil => exact absurd rfl h.nonempty
      | cons s ss =>
        have hlength : ss.length = 0 := by
          rw [List.length_cons] at hone
          omega
        exact ⟨s, by rw [List.length_eq_zero_iff.1 hlength]⟩
    rw [List.flatMap_singleton] at hnil
    obtain ⟨name, body, m, rfl, hgiven⟩ := (Segment.parts_eq_nil_iff s).1 hnil
    exact ⟨name, body, m, rfl, hgiven⟩
  · rintro ⟨name, body, m, rfl, hgiven⟩
    rw [List.flatMap_singleton]
    exact (Segment.parts_eq_nil_iff _).2 ⟨name, body, m, rfl, hgiven⟩

/-- A slash is no path of a strict plain pattern: it is no parts, and parts have characters. -/
theorem Plain.groups?_slash (h : Plain ss) (hone : (ss.filter Segment.isModified).length ≤ 1)
    (hend : o.toEnd = true) (hstrict : o.strict = true) : (compiledPlain ss o).groups? "/" = none := by
  rw [Option.eq_none_iff_forall_ne_some]
  intro gs hgs
  obtain ⟨ps, rest, vs, hpath, hps, hrest, -, -⟩ := (h.groups?_eq_some_iff hone hend).1 hgs
  have hrest : rest = [] := hrest.resolve_right fun hlenient => by
    rw [hstrict] at hlenient
    cases hlenient.1
  rw [hrest, List.append_nil] at hpath
  cases ps with
  | nil => cases hpath
  | cons u ps =>
    obtain ⟨-, hu⟩ := List.cons.inj hpath
    obtain ⟨rfl, -⟩ := List.append_eq_nil_iff.1 hu.symm
    exact (hps [] List.mem_cons_self).1 rfl

end Pattern

namespace Route

open Pattern (Segment Plain compiledPlain)

variable {r : Route} {ss : List Segment} {params : Mapping}

/-- A strict route of texts and parameters without sub-patterns, with at most one modifier, matches
the path of each public path that it writes, and reads the parameters that are given. The one
exception is a route of a single parameter for which no value is given: its public path has a slash
for a path, and it matches no slash. -/
theorem match?_publicPath_strict [CharacterNames] (hne : ss ≠ [])
    (hss : ∀ s ∈ ss, s.WellFormed ∧ s.body? = none)
    (hone : (ss.filter Segment.isModified).length ≤ 1) (hbare : Segment.HasBareTexts ss)
    (hpattern : r.pattern = Segment.pattern ss) {sensitive : Bool}
    (hr : Pattern.compile r.pattern ⟨sensitive, true, true⟩ = .ok r.compiled) {shown : String}
    (hshown : r.publicPath params = .ok shown) :
    (¬Segment.WritesNothing params ss →
      r.match? (ParsedUrl.parse shown).pathname = some (Segment.bindings params ss)) ∧
    (Segment.WritesNothing params ss →
      (ParsedUrl.parse shown).pathname = "/" ∧
        r.match? (ParsedUrl.parse shown).pathname = none) := by
  rw [hpattern] at hr
  have hplain : Plain ss := .of_compile hne (fun s hs => (hss s hs).1) (fun s hs => (hss s hs).2) hr
  have hcompiled := Except.ok.inj (hr.symm.trans (hplain.compile_eq _))
  obtain ⟨path, hpath, hname, -⟩ := parse_publicPath hplain hbare hcompiled hshown
  rw [hcompiled] at hpath
  have hempty := hplain.toPath_eq_empty_iff hone hpath
  rw [hname]
  unfold shownPath match?
  rw [hcompiled]
  constructor
  · intro hwrites
    have hpath' : path ≠ "" := fun heq => hwrites (hempty.1 heq)
    have hgroups := hplain.groups?_toPath hone rfl hpath (List.append_nil _).symm (.inl rfl)
    rw [if_neg hpath', hgroups, Option.map_some]
    exact congrArg some (Pattern.bind_groups params ss)
  · intro hnothing
    rw [if_pos (hempty.2 hnothing), hplain.groups?_slash hone rfl rfl]
    exact ⟨rfl, rfl⟩

/-- A repeated parameter behind a text may be left out or not: the public path leads back. -/
theorem match?_publicPath_strict_docs :
    ∃ r : Route,
      Route.build (.str "docs") (.str "/docs/:path*") .null .null (.bool false) (.bool true)
        = .ok r ∧
      r.publicPath [(.str "q", .int 1)] = .ok "/docs?q=1" ∧
      r.match? (ParsedUrl.parse "/docs?q=1").pathname = some [] ∧
      r.publicPath [(.str "path", .list [.str "a/b", .str "c d"])] = .ok "/docs/a%2Fb/c%20d" ∧
      r.match? (ParsedUrl.parse "/docs/a%2Fb/c%20d").pathname = some [("path", "a/b/c d")] := by
  let ss : List Segment := [.literal "docs".toList, .parameter "path".toList none .optionalRepeated]
  let given : Mapping := [(.str "path", .list [.str "a/b", .str "c d"])]
  have hrun : ((Route.build (.str "docs") (.str "/docs/:path*") .null .null (.bool false)
      (.bool true)).toOption.map fun r => (r.pattern,
        (r.publicPath [(.str "q", .int 1)]).toOption, (r.publicPath given).toOption)) =
      some (Segment.pattern ss, some "/docs?q=1", some "/docs/a%2Fb/c%20d") := by
    decide +kernel
  obtain ⟨r, hr, hfacts⟩ := Option.map_eq_some_iff.1 hrun
  simp only [Prod.mk.injEq] at hfacts
  obtain ⟨hpattern, hless, hmore⟩ := hfacts
  have hr := toOption_eq_some.1 hr
  have hless := toOption_eq_some.1 hless
  have hmore := toOption_eq_some.1 hmore
  have hbare : Segment.HasBareTexts ss := by
    intro t ht
    obtain rfl : t = "docs".toList := by simpa [ss] using ht
    decide
  have hwrites : ∀ params, ¬Segment.WritesNothing params ss := by
    rintro params ⟨name, body, m, heq, -⟩
    cases congrArg List.length heq
  have hcompiled := build_compiled hr
  have hwithout := match?_publicPath_strict (show ss ≠ [] by decide) (by decide) (by decide) hbare
    hpattern hcompiled hless
  have hwith := match?_publicPath_strict (show ss ≠ [] by decide) (by decide) (by decide) hbare
    hpattern hcompiled hmore
  exact ⟨r, hr, hless, hwithout.1 (hwrites _), hmore, hwith.1 (hwrites _)⟩

/-- A strict route of one optional parameter does not match the path that is shown for it without a
value. -/
theorem publicPath_strict_unmatched :
    ∃ r : Route,
      Route.build (.str "a") (.str "/:a?") .null .null (.bool false) (.bool true) = .ok r ∧
      r.publicPath [] = .ok "/" ∧ (ParsedUrl.parse "/").pathname = "/" ∧ r.match? "/" = none := by
  have hrun : ((Route.build (.str "a") (.str "/:a?") .null .null (.bool false)
      (.bool true)).toOption.map fun r => ((r.publicPath []).toOption, r.match? "/")) =
      some (some "/", none) := by decide +kernel
  obtain ⟨r, hr, hfacts⟩ := Option.map_eq_some_iff.1 hrun
  obtain ⟨hshown, hmatch⟩ := Prod.mk.inj hfacts
  exact ⟨r, toOption_eq_some.1 hr, toOption_eq_some.1 hshown, rfl, hmatch⟩

end Route

end SiteRouter
