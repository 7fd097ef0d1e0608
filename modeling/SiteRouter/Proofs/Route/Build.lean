import SiteRouter.Route
import SiteRouter.Proofs.Pattern.Tokens

/-!
# What a route is built from

A route keeps the text of its pattern beside the compiled form, and the two belong together.
-/

namespace SiteRouter

namespace Route

/-- The pattern is the given one or else the name after a slash, for which the name is written. -/
theorem patternOf_eq (name pattern : Value) :
    patternOf name pattern =
      if pattern.truthy = false ∧ name.isWritable = false then .error .wrongValue
      else .ok (pattern.orElse (.str ("/" ++ name.display))) := by
  unfold patternOf Value.orElse Value.format
  cases pattern.truthy with
  | true => rfl
  | false => cases name.isWritable <;> rfl

/-- A route is built from a page or else a name, a pattern or else a name that is written, a page
that is a text, metadata that make a mapping, and a pattern that compiles; the first of these that
is missing decides the fault. -/
theorem build_eq [CharacterNames] (name pattern page info sensitive strict : Value) :
    Route.build name pattern page info sensitive strict =
      if (page.orElse name).truthy = false then .error (Fault.raised (.missingPage pattern))
      else if pattern.truthy = false ∧ name.isWritable = false then .error .wrongValue
      else
        match page.orElse name, info.toMappingOrEmpty with
        | .str text, .ok info =>
          (compilePattern (pattern.orElse (.str ("/" ++ name.display))) sensitive strict).map
            fun p => ⟨name, p.source, Page.normalize text, info, sensitive, strict, p⟩
        | .str _, .error f => .error f
        | _, _ => .error .wrongKind := by
  have hbuild : Route.build name pattern page info sensitive strict =
      (pageOf name pattern page).bind fun page => (patternOf name pattern).bind fun pattern =>
        (normalizePage page).bind fun page => info.toMappingOrEmpty.bind fun info =>
          (compilePattern pattern sensitive strict).bind
            fun p => .ok ⟨name, p.source, page, info, sensitive, strict, p⟩ := rfl
  rw [hbuild, pageOf, patternOf_eq]
  generalize page.orElse name = page
  cases htruthy : page.truthy with
  | false => rfl
  | true =>
    rw [if_pos rfl, if_neg Bool.false_ne_true.symm]
    split
    · rfl
    · cases page with
      | str text =>
        cases info.toMappingOrEmpty with
        | error f => rfl
        | ok info =>
          show (compilePattern _ _ _).bind _ = (compilePattern _ _ _).map _
          cases compilePattern (pattern.orElse (.str ("/" ++ name.display))) sensitive strict <;>
            rfl
      | _ => rfl

/-- A route has the name that it is built with. -/
theorem build_name [CharacterNames] {name pattern page info sensitive strict : Value} {r : Route}
    (h : Route.build name pattern page info sensitive strict = .ok r) : r.name = name := by
  obtain ⟨page, -, h⟩ := bind_eq_ok.1 h
  obtain ⟨pattern, -, h⟩ := bind_eq_ok.1 h
  obtain ⟨page, -, h⟩ := bind_eq_ok.1 h
  obtain ⟨info, -, h⟩ := bind_eq_ok.1 h
  obtain ⟨compiled, -, h⟩ := bind_eq_ok.1 h
  cases h
  rfl

/-- The pattern of a built route is a text, and its compiled form that of the text. -/
theorem build_compiled [CharacterNames] {name pattern page info sensitive strict : Value}
    {r : Route}
    (h : Route.build name pattern page info sensitive strict = .ok r) :
    Pattern.compile r.pattern ⟨sensitive.truthy, strict.truthy, true⟩ = .ok r.compiled := by
  obtain ⟨page, -, h⟩ := bind_eq_ok.1 h
  obtain ⟨pattern, -, h⟩ := bind_eq_ok.1 h
  obtain ⟨page, -, h⟩ := bind_eq_ok.1 h
  obtain ⟨info, -, h⟩ := bind_eq_ok.1 h
  obtain ⟨compiled, hcompiled, h⟩ := bind_eq_ok.1 h
  cases h
  unfold compilePattern at hcompiled
  split at hcompiled
  · next s _ =>
    split at hcompiled
    · rwa [(Pattern.Compiled.madeFrom hcompiled).source]
    · cases hcompiled
  · cases hcompiled

end Route

end SiteRouter
