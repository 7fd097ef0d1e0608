import SiteRouter.Proofs.Pattern.Written
import SiteRouter.Text.BasicLatin

/-!
# A slash at the end of a path

Where a slash at the end does not count, the expression of a pattern leaves the pattern's own slash
at the end out and takes one slash more or none. Both are done on its text; here the expressions
with and without it are compared by what they derive. A strict pattern reads what its steps derive
(`isSome_groups?_strict`), a lenient one what the steps derive without the slash at their end, and
the same with a slash after it (`isSome_groups?_lenient`). So a pattern that ends in a slash gains
the paths that lack it, and any other pattern the paths with one slash more (`compile_lenient_iff`).
-/

namespace SiteRouter.Pattern

variable {ignoreCase : Bool}

/-- Whether the steps derive the text with some values. -/
def Derivable (ignoreCase : Bool) (ss : List Step) (w : List Char) : Prop :=
  ∃ vs, Derives ignoreCase ss w vs

/-- Without the slash at their end the steps derive the texts that lack a slash at the end. -/
theorem derivable_dropSlash_concat (init : List Step) (t w : List Char) :
    Derivable ignoreCase (dropSlash (init ++ [.literal (t ++ ['/'])])) w ↔
      Derivable ignoreCase (init ++ [.literal (t ++ ['/'])]) (w ++ ['/']) := by
  unfold Derivable
  rw [dropSlash_concat]
  constructor
  · rintro ⟨vs, hw⟩
    exact ⟨vs, derives_concat_slash.2 ⟨w, rfl, hw⟩⟩
  · rintro ⟨vs, hw⟩
    obtain ⟨w', hsplit, hw'⟩ := derives_concat_slash.1 hw
    have hsame : w = w' := List.append_cancel_right hsplit
    exact ⟨vs, hsame ▸ hw'⟩

/-- What steps with a slash at their end derive ends in a slash. -/
theorem Derivable.exists_concat_slash {init : List Step} {t w : List Char}
    (h : Derivable ignoreCase (init ++ [.literal (t ++ ['/'])]) w) :
    ∃ front, w = front ++ ['/'] := by
  obtain ⟨vs, hw⟩ := h
  obtain ⟨front, hsplit, -⟩ := derives_concat_slash.1 hw
  exact ⟨front, hsplit⟩

/-! ## Matches as derivations -/

namespace Compiled.Faithful

variable {p : Compiled}

/-- A pattern that must reach the end matches the paths that its steps derive, up to a slash that
does not count. -/
theorem isSome_groups?_iff (hp : p.Faithful) (hend : p.options.toEnd = true) (path : String) :
    (p.groups? path).isSome = true ↔
      Derivable p.ignoreCase (matchedSteps p.options p.steps) path.toList ∨
        (p.options.strict = false ∧ ∃ front, path.toList = front ++ ['/'] ∧
          Derivable p.ignoreCase (matchedSteps p.options p.steps) front) := by
  constructor
  · intro h
    obtain ⟨gs, hgs⟩ := Option.isSome_iff_exists.1 h
    obtain ⟨w, rest, vs, hpath, hw, hrest, -⟩ := hp.groups?_sound hgs
    rcases (endsAt_toEnd hend).1 hrest with rfl | ⟨hstrict, rfl⟩
    · rw [List.append_nil] at hpath
      exact .inl ⟨vs, hpath ▸ hw⟩
    · exact .inr ⟨hstrict, w, hpath, vs, hw⟩
  · rintro (⟨vs, hw⟩ | ⟨hstrict, front, hpath, vs, hw⟩)
    · have hrest : EndsAt p.options (endsInSlash p.steps) [] := (endsAt_toEnd hend).2 (.inl rfl)
      exact hp.groups?_complete (List.append_nil _).symm hw hrest
    · have hrest : EndsAt p.options (endsInSlash p.steps) ['/'] :=
        (endsAt_toEnd hend).2 (.inr ⟨hstrict, rfl⟩)
      exact hp.groups?_complete hpath hw hrest

/-- A strict pattern matches the paths that its steps derive. -/
theorem isSome_groups?_strict (hp : p.Faithful) (hend : p.options.toEnd = true)
    (hstrict : p.options.strict = true) (path : String) :
    (p.groups? path).isSome = true ↔ Derivable p.ignoreCase p.steps path.toList := by
  have hsteps : matchedSteps p.options p.steps = p.steps := by
    unfold matchedSteps
    rw [if_pos hstrict]
  rw [hp.isSome_groups?_iff hend, hsteps, hstrict]
  simp

/-- A lenient pattern matches the paths that its steps derive without the slash at their end, and
these with a slash after them. -/
theorem isSome_groups?_lenient (hp : p.Faithful) (hend : p.options.toEnd = true)
    (hstrict : p.options.strict = false) (path : String) :
    (p.groups? path).isSome = true ↔
      Derivable p.ignoreCase (dropSlash p.steps) path.toList ∨
        ∃ front, path.toList = front ++ ['/'] ∧
          Derivable p.ignoreCase (dropSlash p.steps) front := by
  have hsteps : matchedSteps p.options p.steps = dropSlash p.steps := by
    unfold matchedSteps
    rw [hstrict, if_neg Bool.false_ne_true]
  rw [hp.isSome_groups?_iff hend, hsteps, hstrict]
  simp only [true_and]

/-! ## What is gained where a slash at the end does not count -/

variable {q : Compiled}

section

variable (hp : p.Faithful) (hq : q.Faithful) (hsteps : p.steps = q.steps)
  (hcase : p.ignoreCase = q.ignoreCase) (hendp : p.options.toEnd = true)
  (hendq : q.options.toEnd = true) (hlenient : p.options.strict = false)
  (hstrict : q.options.strict = true)

include hp hq hsteps hcase hendp hendq hlenient hstrict

/-- A pattern with a slash at its end gains the paths that lack it. -/
theorem lenient_iff_of_endsInSlash (hslash : endsInSlash q.steps = true) (path : String) :
    (p.groups? path).isSome = true ↔
      (q.groups? path).isSome = true ∨ (q.groups? (path ++ "/")).isSome = true := by
  obtain ⟨init, t, ht⟩ := endsInSlash_iff.1 hslash
  have hlonger : (path ++ "/").toList = path.toList ++ ['/'] := String.toList_append
  rw [hp.isSome_groups?_lenient hendp hlenient, hq.isSome_groups?_strict hendq hstrict,
    hq.isSome_groups?_strict hendq hstrict, hsteps, hcase, ht, hlonger]
  simp only [derivable_dropSlash_concat]
  constructor
  · rintro (hw | ⟨front, hpath, hw⟩)
    · exact .inr hw
    · exact .inl (hpath ▸ hw)
  · rintro (hw | hw)
    · obtain ⟨front, hpath⟩ := hw.exists_concat_slash
      exact .inr ⟨front, hpath, hpath ▸ hw⟩
    · exact .inl hw

/-- Any other pattern gains the paths with one slash more. -/
theorem lenient_iff_of_not_endsInSlash (hslash : endsInSlash q.steps = false) (path : String) :
    (p.groups? path).isSome = true ↔
      (q.groups? path).isSome = true ∨
        ∃ front : String, path = front ++ "/" ∧ (q.groups? front).isSome = true := by
  rw [hp.isSome_groups?_lenient hendp hlenient, hq.isSome_groups?_strict hendq hstrict, hsteps,
    hcase, dropSlash_of_not_endsInSlash hslash]
  simp only [hq.isSome_groups?_strict hendq hstrict]
  refine or_congr_right ⟨?_, ?_⟩
  · rintro ⟨front, hpath, hw⟩
    refine ⟨String.ofList front, String.toList_injective ?_, by rwa [String.toList_ofList]⟩
    rw [String.toList_append, String.toList_ofList]
    exact hpath
  · rintro ⟨front, rfl, hw⟩
    exact ⟨front.toList, String.toList_append, hw⟩

end

end Compiled.Faithful

/-- A pattern whose captures have no sub-pattern matches without regard to a slash at the end what
it matches with regard to it and, if it ends in a slash, the paths that only lack this slash;
otherwise the paths that have one slash more. -/
theorem compile_lenient_iff [CharacterNames] {pattern : String} {ts : List Token}
    (hparse : parse pattern.toList = .ok ts)
    (hbody : ∀ c ∈ captures ts, c.body = .segment ∨ c.body = .anything) (sensitive : Bool) :
    ∃ p q, compile pattern ⟨sensitive, false, true⟩ = .ok p ∧
      compile pattern ⟨sensitive, true, true⟩ = .ok q ∧
      ∀ path : String,
        ((∃ text, ts.getLast? = some (.literal (text ++ ['/']))) →
          ((p.groups? path).isSome = true ↔
            (q.groups? path).isSome = true ∨ (q.groups? (path ++ "/")).isSome = true)) ∧
        ((¬∃ text, ts.getLast? = some (.literal (text ++ ['/']))) →
          ((p.groups? path).isSome = true ↔
            (q.groups? path).isSome = true ∨
              ∃ front : String, path = front ++ "/" ∧ (q.groups? front).isSome = true)) := by
  have hts := isDefault_of_parse hparse hbody
  have hp := faithful_compiledDefault pattern ⟨sensitive, false, true⟩ hts
  have hq := faithful_compiledDefault pattern ⟨sensitive, true, true⟩ hts
  refine ⟨_, _, compile_default _ hparse hts, compile_default _ hparse hts, fun path => ⟨?_, ?_⟩⟩
  · intro hslash
    have hends := (endsInSlash_map_iff Token.token_defaultStep ts).2 hslash
    exact hp.lenient_iff_of_endsInSlash hq rfl rfl rfl rfl rfl rfl hends path
  · intro hslash
    have hends : endsInSlash (ts.map Token.defaultStep) = false := Bool.eq_false_iff.2 fun hends =>
      hslash ((endsInSlash_map_iff Token.token_defaultStep ts).1 hends)
    exact hp.lenient_iff_of_not_endsInSlash hq rfl rfl rfl rfl rfl rfl hends path

/-- The pattern `/tags/:tag/` matches a tag without the slash after it, unless that slash counts. -/
theorem compile_lenient_iff_tags :
    ∃ p q, compile "/tags/:tag/" ⟨false, false, true⟩ = .ok p ∧
      compile "/tags/:tag/" ⟨false, true, true⟩ = .ok q ∧
      (p.groups? "/tags/x").isSome = true ∧ q.groups? "/tags/x" = none := by
  let ts : List Token := [.literal "/tags".toList,
    .capture ⟨.named "tag", some '/', .segment, .once, false⟩, .literal "/".toList]
  have hparse : parse "/tags/:tag/".toList = .ok ts := by rfl
  obtain ⟨p, q, hp, hq, hmatches⟩ := compile_lenient_iff hparse (by decide) false
  have hrun : ((compile "/tags/:tag/" ⟨false, true, true⟩).toOption.map fun q =>
      ((q.groups? "/tags/x/").isSome, q.groups? "/tags/x")) = some (true, none) := by
    decide +kernel
  have hfacts := eq_of_toOption_map hrun hq
  obtain ⟨hlonger, hnone⟩ := Prod.mk.inj hfacts
  exact ⟨p, q, hp, hq, ((hmatches "/tags/x").1 ⟨[], rfl⟩).2 (.inr hlonger), hnone⟩

end SiteRouter.Pattern
