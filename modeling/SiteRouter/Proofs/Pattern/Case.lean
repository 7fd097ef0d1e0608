import SiteRouter.Proofs.Pattern.Written
import SiteRouter.Proofs.Regex.Case
import SiteRouter.Proofs.Regex.Moves
import SiteRouter.Text.BasicLatin

/-!
# Patterns and the case of ASCII letters

A pattern compiled without regard to case matches a path in lower case as it matches the path, and
its groups stand in the same places (`spans?_toLower`). They read there what the path has in these
places (`groups?_eq_spans?`), so they read the same but for case (`groups?_toLower`). That holds
whatever its captures may read. Two paths that differ only in the case of ASCII letters are the same
in lower case, so their matches agree as well. With regard to case a pattern derives no text that it
does not derive without, if that is so for what its captures may read (`Derives.relax`). Both
together are `compile_ignoreCase`.
-/

namespace SiteRouter.Pattern

/-! ## Where groups stand -/

/-- Where the groups of the expression stand in a path, if the path matches: the number of
characters before the text of the group, and the number of characters of that text. -/
def Compiled.spans? (p : Compiled) (path : String) : Option (List (Option (Nat × Nat))) :=
  (p.program.expr.matchStart p.ignoreCase path.toList).map fun c =>
    (List.range p.program.groups).map fun i =>
      (c.group? (i + 1)).map fun s => (path.length - s.start.length, s.length)

/-- The text of a group is what the path has where the group stands. -/
theorem Compiled.groups?_eq_spans? (p : Compiled) (path : String) :
    p.groups? path = (p.spans? path).map fun spans => spans.map fun span =>
      span.map fun place => String.ofList ((path.toList.drop place.1).take place.2) := by
  unfold groups? spans?
  cases hmatch : p.program.expr.matchStart p.ignoreCase path.toList with
  | none => rfl
  | some c =>
    simp only [Option.map_some, Regex.Cursor.groups, List.map_map]
    refine congrArg some (List.map_congr_left fun i _ => ?_)
    simp only [Function.comp_apply, Option.map_map]
    cases hgroup : c.group? (i + 1) with
    | none => rfl
    | some s =>
      have hstart := List.suffix_iff_eq_drop.1 (Regex.isSuffix_of_matchStart hmatch hgroup)
      rw [String.length_toList] at hstart
      simp only [Option.map_some, Function.comp_apply, Regex.Span.chars]
      rw [← hstart]

/-! ## Without regard to case -/

theorem toList_toLower (s : String) : s.toLower.toList = s.toList.map Char.toLower :=
  String.toList_map

theorem length_toLower (s : String) : s.toLower.length = s.length := by
  rw [← String.length_toList, toList_toLower, List.length_map, String.length_toList]

section

variable {p : Compiled} (hp : p.ignoreCase = true)

include hp

/-- The groups stand in the path in lower case where they stand in the path. -/
theorem Compiled.spans?_toLower (path : String) : p.spans? path.toLower = p.spans? path := by
  unfold spans?
  rw [hp, length_toLower, toList_toLower, Regex.matchStart_lowered, Option.map_map]
  congr 1
  funext c
  refine List.map_congr_left fun i _ => ?_
  simp only [Regex.Cursor.group?_lowered, Option.map_map]
  congr 1
  funext s
  simp only [Function.comp_apply, Regex.Span.lowered, List.length_map]

/-- The groups read in the path in lower case what they read in the path, in lower case, since they
stand in the same places. -/
theorem Compiled.groups?_toLower (path : String) :
    p.groups? path.toLower = (p.groups? path).map fun gs => gs.map (·.map String.toLower) := by
  rw [groups?_eq_spans?, groups?_eq_spans?, Compiled.spans?_toLower hp, Option.map_map]
  congr 1
  funext spans
  rw [Function.comp_apply, List.map_map]
  refine List.map_congr_left fun span _ => ?_
  rw [Function.comp_apply, Option.map_map]
  congr 1
  funext place
  refine String.toList_injective ?_
  simp only [Function.comp_apply, toList_toLower, String.toList_ofList, List.map_take,
    List.map_drop]

end

/-! ## With regard to case -/

/-- What fits with regard to case fits without. -/
theorem fitsCode_relax {a x : Char} (h : Regex.fitsCode false a.toNat x = true) :
    Regex.fitsCode true a.toNat x = true := by
  have heq : x = a := Char.toNat_inj.1 (beq_iff_eq.1 h)
  rw [heq, Regex.fitsCode_self]

/-- What a capture may read with regard to case it may read without. -/
def Step.Relaxes : Step → Prop
  | .literal _ => True
  | .capture _ segment => ∀ u, segment.Spells false u → segment.Spells true u

theorem Capture.ReadsValue.relax {c : Capture} {segment : Regex} {v : List Char}
    (hs : (Step.capture c segment).Relaxes) (h : c.ReadsValue false segment v) :
    c.ReadsValue true segment v := by
  obtain ⟨u, us, hu, hus, honce, hv⟩ := h
  exact ⟨u, us, hs u hu, fun u' hu' => hs u' (hus u' hu'), honce, hv⟩

theorem Capture.Takes.relax {c : Capture} {segment : Regex} {w : List Char}
    {v : Option (List Char)} (hs : (Step.capture c segment).Relaxes)
    (h : c.Takes false segment w v) : c.Takes true segment w v := by
  cases v with
  | none => exact h
  | some v => exact ⟨h.1, h.2.relax hs⟩

/-- What steps derive with regard to case they derive without. -/
theorem Derives.relax {ss : List Step} {w : List Char} {vs : List (Option (List Char))}
    (hs : ∀ s ∈ ss, s.Relaxes) (h : Derives false ss w vs) : Derives true ss w vs := by
  induction h with
  | nil => exact .nil
  | literal ht _ ih =>
    rw [List.forall_mem_cons] at hs
    exact .literal (ht.imp fun _ _ => fitsCode_relax) (ih hs.2)
  | capture ht _ ih =>
    rw [List.forall_mem_cons] at hs
    exact .capture (ht.relax hs.1) (ih hs.2)

/-- A path that matches with regard to case matches without. -/
theorem Compiled.Faithful.isSome_groups?_relax {p q : Compiled} (hp : p.Faithful)
    (hq : q.Faithful) (hsteps : q.steps = p.steps)
    (hoptions : q.options = { p.options with sensitive := true })
    (hinsensitive : p.options.sensitive = false) (hs : ∀ s ∈ p.steps, s.Relaxes) {path : String}
    (h : (q.groups? path).isSome = true) : (p.groups? path).isSome = true := by
  have hcase : p.ignoreCase = true := by rw [Compiled.ignoreCase, hinsensitive]; rfl
  have hcaseq : q.ignoreCase = false := by rw [Compiled.ignoreCase, hoptions]; rfl
  have hs' := forall_matchedSteps p.options (P := Step.Relaxes) (fun _ => trivial) hs
  obtain ⟨gs, hgs⟩ := Option.isSome_iff_exists.1 h
  obtain ⟨w, rest, vs, hpath, hw, hrest, -⟩ := hq.groups?_sound hgs
  -- Neither which steps are matched nor where a match may end depends on case.
  rw [hcaseq, hoptions, hsteps] at hw
  rw [hoptions, hsteps] at hrest
  have hw' : Derives p.ignoreCase (matchedSteps p.options p.steps) w vs := by
    rw [hcase]
    exact Derives.relax hs' hw
  exact hp.groups?_complete hpath hw' hrest

theorem Token.IsDefault.relaxes {t : Token} (h : t.IsDefault) : t.defaultStep.Relaxes := by
  cases t with
  | literal text => trivial
  | capture c =>
    intro u hu
    have hspells := Capture.IsDefault.spells h
    exact (hspells true u).2 ((hspells false u).1 hu)

/-! ## Patterns whose captures have no sub-pattern -/

/-- Two groups are both absent, or they hold texts that are the same up to the case of ASCII
letters. -/
def SameGroup : Option String → Option String → Prop :=
  Option.Rel fun g g' => g.toLower = g'.toLower

theorem sameGroup_iff {g g' : Option String} :
    SameGroup g g' ↔ g.map String.toLower = g'.map String.toLower := by
  constructor
  · rintro (h | _)
    · exact congrArg some h
    · rfl
  · intro h
    cases g with
    | none =>
      cases g' with
      | none => exact .none
      | some g' => cases h
    | some g =>
      cases g' with
      | none => cases h
      | some g' => exact .some (Option.some.inj h)

/-- Groups are the same up to case if they are the same in lower case. -/
theorem forall₂_sameGroup_iff {gs gs' : List (Option String)} :
    List.Forall₂ SameGroup gs gs' ↔
      gs.map (·.map String.toLower) = gs'.map (·.map String.toLower) := by
  have hrel : SameGroup = fun g g' => g.map String.toLower = g'.map String.toLower :=
    funext fun g => funext fun g' => propext sameGroup_iff
  rw [hrel, ← List.forall₂_eq_eq_eq, List.forall₂_map_left_iff, List.forall₂_map_right_iff]

/-- A pattern without regard to case, whose captures have no sub-pattern, matches one of two paths
that differ in the case of ASCII letters alone if it matches the other; its groups then stand in the
same places and hold the same texts up to the case of ASCII letters. It matches every path that the
pattern with regard to case matches. -/
theorem compile_ignoreCase [CharacterNames] {pattern : String} {ts : List Token}
    (hparse : parse pattern.toList = .ok ts)
    (hbody : ∀ c ∈ captures ts, c.body = .segment ∨ c.body = .anything) (strict toEnd : Bool) :
    ∃ p q, compile pattern ⟨false, strict, toEnd⟩ = .ok p ∧
      compile pattern ⟨true, strict, toEnd⟩ = .ok q ∧
      (∀ path path' : String, path.toLower = path'.toLower →
        ((p.groups? path).isSome = true ↔ (p.groups? path').isSome = true) ∧
        (∀ gs gs', p.groups? path = some gs → p.groups? path' = some gs' →
          List.Forall₂ SameGroup gs gs') ∧
        p.spans? path = p.spans? path') ∧
      ∀ path, (q.groups? path).isSome = true → (p.groups? path).isSome = true := by
  have hts := isDefault_of_parse hparse hbody
  have hp := faithful_compiledDefault pattern ⟨false, strict, toEnd⟩ hts
  have hq := faithful_compiledDefault pattern ⟨true, strict, toEnd⟩ hts
  have hs : ∀ s ∈ ts.map Token.defaultStep, s.Relaxes :=
    List.forall_mem_map.2 fun t ht => (hts t ht).relaxes
  refine ⟨_, _, compile_default _ hparse hts, compile_default _ hparse hts, ?_, fun path =>
    hp.isSome_groups?_relax hq rfl rfl rfl hs⟩
  intro path path' hsame
  -- Both matches are what the match of the path in lower case is.
  have hgroups := Compiled.groups?_toLower
    (p := compiledDefault pattern ⟨false, strict, toEnd⟩ ts) rfl path
  have hspans := Compiled.spans?_toLower
    (p := compiledDefault pattern ⟨false, strict, toEnd⟩ ts) rfl path
  rw [hsame, Compiled.groups?_toLower rfl] at hgroups
  rw [hsame, Compiled.spans?_toLower rfl] at hspans
  refine ⟨?_, fun gs gs' hgs hgs' => ?_, hspans.symm⟩
  · have hsome := congrArg Option.isSome hgroups
    rw [Option.isSome_map, Option.isSome_map] at hsome
    rw [hsome]
  · rw [hgs, hgs'] at hgroups
    exact forall₂_sameGroup_iff.2 (Option.some.inj hgroups).symm

/-- The Kelvin sign counts as the letter `k`; where it stands for that letter, the identifier of a
kiosk is read in the same place whatever the case of the ASCII letters. -/
theorem compile_ignoreCase_kiosk :
    ∃ p q, compile "/kiosk/:id" ⟨false, true, true⟩ = .ok p ∧
      compile "/kiosk/:id" ⟨true, true, true⟩ = .ok q ∧
      p.groups? "/\u212aIOSK/aB" = some [some "aB"] ∧ q.groups? "/\u212aIOSK/aB" = none ∧
      (∃ g : String, p.groups? "/\u212aiosk/Ab" = some [some g] ∧ g.toLower = "ab") ∧
      p.spans? "/\u212aiosk/Ab" = some [some (7, 2)] ∧ (p.groups? "/kiosk/Ab").isSome = true := by
  let ts : List Token := [.literal "/kiosk".toList,
    .capture ⟨.named "id", some '/', .segment, .once, false⟩]
  have hparse : parse "/kiosk/:id".toList = .ok ts := by rfl
  obtain ⟨p, q, hp, hq, hsame, hrelax⟩ := compile_ignoreCase hparse (by decide) true true
  have hrunp : ((compile "/kiosk/:id" ⟨false, true, true⟩).toOption.map fun p =>
      (p.groups? "/\u212aIOSK/aB", p.spans? "/\u212aIOSK/aB"))
        = some (some [some "aB"], some [some (7, 2)]) := by
    decide +kernel
  have hrunq : ((compile "/kiosk/:id" ⟨true, true, true⟩).toOption.map fun q =>
      (q.groups? "/\u212aIOSK/aB", (q.groups? "/kiosk/Ab").isSome)) = some (none, true) := by
    decide +kernel
  have hfacts := eq_of_toOption_map hrunp hp
  obtain ⟨hgroups, hspans⟩ := Prod.mk.inj hfacts
  have hfacts := eq_of_toOption_map hrunq hq
  obtain ⟨hnone, hkiosk⟩ := Prod.mk.inj hfacts
  have hpaths : "/\u212aIOSK/aB".toLower = "/\u212aiosk/Ab".toLower :=
    String.toList_injective (by rw [toList_toLower, toList_toLower]; decide)
  have hlower : "aB".toLower = "ab" := String.toList_injective (by rw [toList_toLower]; decide)
  obtain ⟨hmatch, htexts, hplaces⟩ := hsame "/\u212aIOSK/aB" "/\u212aiosk/Ab" hpaths
  have hsome : (p.groups? "/\u212aiosk/Ab").isSome = true := hmatch.1 (by rw [hgroups]; rfl)
  obtain ⟨gs', hgs'⟩ := Option.isSome_iff_exists.1 hsome
  obtain _ | ⟨⟨htext⟩, _ | _⟩ := htexts _ gs' hgroups hgs'
  exact ⟨p, q, hp, hq, hgroups, hnone, ⟨_, hgs', htext.symm.trans hlower⟩,
    hplaces ▸ hspans, hrelax _ hkiosk⟩

end SiteRouter.Pattern
