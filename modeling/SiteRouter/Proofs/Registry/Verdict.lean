import SiteRouter.Proofs.Registry.Register

/-!
# The order in which a registration is refused

A registration is refused for the first reason that applies. `Registry.verdict` writes the reasons
down in their order, down to what is wrong with an expression, and `Registry.add_eq_verdict` says
that a call whose arguments stand for a registration is decided so.
-/

namespace SiteRouter

/-! ## What is wrong with a pattern -/

namespace Pattern

/-- The steps of tokens, the expressions of the captures read in turn. -/
def readSteps [CharacterNames] : List Token → Except Regex.SyntaxFault (List Step)
  | [] => .ok []
  | .literal text :: ts => (readSteps ts).map (.literal text :: ·)
  | .capture c :: ts =>
    (Regex.parse c.segmentExpression).bind fun p => (readSteps ts).map (.capture c p.expr :: ·)

/-- The expression for a path, and the steps with the expressions of the captures. -/
def readExpressions [CharacterNames] (o : Options) (ts : List Token) :
    Except Regex.SyntaxFault (Regex.Program × List Step) :=
  (Regex.parse (expression o ts)).bind fun program => (readSteps ts).map (program, ·)

/-- The fault of steps is that of the first expression that is rejected. -/
theorem toSteps_eq_mapError [CharacterNames] (pattern : String) (ts : List Token) :
    toSteps pattern ts = (readSteps ts).mapError (expressionFault pattern) := by
  induction ts with
  | nil => rfl
  | cons t ts ih =>
    show ((t.toStep pattern).bind fun s => (toSteps pattern ts).bind fun ss => .ok (s :: ss)) = _
    rw [ih]
    cases t with
    | literal text =>
      rw [readSteps]
      cases readSteps ts <;> rfl
    | capture c =>
      rw [readSteps, Token.toStep, parseExpression]
      cases Regex.parse c.segmentExpression with
      | error f => rfl
      | ok p => cases readSteps ts <;> rfl

/-- A pattern is refused for its text, or else for the first of its expressions that is rejected. -/
theorem compile_eq_match [CharacterNames] (pattern : String) (o : Options) :
    compile pattern o =
      match parse pattern.toList with
      | .error reason => .error (.invalidPattern pattern reason)
      | .ok ts =>
        match readExpressions o ts with
        | .error f => .error (expressionFault pattern f)
        | .ok (program, steps) => .ok ⟨pattern, o, ts, steps, program⟩ := by
  have hcompile : compile pattern o =
      ((parse pattern.toList).mapError (Fault.invalidPattern pattern)).bind fun ts =>
        (parseExpression pattern (expression o ts)).bind fun program =>
          (toSteps pattern ts).bind fun steps => .ok ⟨pattern, o, ts, steps, program⟩ := rfl
  rw [hcompile]
  cases parse pattern.toList with
  | error reason => rfl
  | ok ts =>
    show (parseExpression pattern (expression o ts)).bind _ = _
    dsimp only
    rw [readExpressions, parseExpression, toSteps_eq_mapError]
    cases Regex.parse (expression o ts) with
    | error f => rfl
    | ok program => cases readSteps ts <;> rfl

end Pattern

/-! ## What becomes of a registration -/

namespace Registry

/-- What becomes of a registration. A closed registry refuses it first, a name that is held second,
a page that is missing third, each with a message that may be impossible to write; then a name that
is to be the pattern and is not written, a page that is no text, metadata that make no mapping, a
pattern that is no text or settings that are no keys, the text of the pattern, and its expressions,
in which a number may be too large or have too many digits. What none of these refuses is put at the
end of the table; then the name is reported, if it is written. -/
def verdict [CharacterNames] (g : Registry) (s : Registration) : Registry × Except Fault Route :=
  if g.frozen then (g, .error (Fault.raised (.registryFrozen (s.name.orElse s.pattern))))
  else if (g.named? s.name).isSome then (g, .error (Fault.raised (.duplicateRoute s.name)))
  else if (s.page.orElse s.name).truthy = false then
    (g, .error (Fault.raised (.missingPage s.pattern)))
  else if s.pattern.truthy = false ∧ s.name.isWritable = false then (g, .error .wrongValue)
  else
    match s.page.orElse s.name, s.info.toMappingOrEmpty,
      s.pattern.orElse (.str ("/" ++ s.name.display)) with
    | .str page, .ok info, .str pattern =>
      if g.config.caseSensitive.isKey && g.config.strict.isKey then
        let o : Pattern.Options := ⟨g.config.caseSensitive.truthy, g.config.strict.truthy, true⟩
        match Pattern.parse pattern.toList with
        | .error reason => (g, .error (.invalidPattern pattern reason))
        | .ok tokens =>
          match Pattern.readExpressions o tokens with
          | .error .countTooLarge | .error .codeTooLarge => (g, .error .outOfRange)
          | .error .countTooLong => (g, .error .wrongValue)
          | .error _ => (g, .error (.invalidExpression pattern))
          | .ok (program, steps) =>
            let r : Route := ⟨s.name, pattern, Page.normalize page, info, g.config.caseSensitive,
              g.config.strict, ⟨pattern, o, tokens, steps, program⟩⟩
            ({ g with routes := g.routes ++ [r] },
              if s.name.isWritable then .ok r else .error .wrongValue)
      else (g, .error .wrongKind)
    | .str _, .ok _, _ => (g, .error .wrongKind)
    | .str _, .error f, _ => (g, .error f)
    | _, _, _ => (g, .error .wrongKind)

/-- A call whose arguments stand for a registration makes it, and reports the name of the route. -/
theorem add_eq_match [CharacterNames] {g : Registry} {args : List Value} {options : Mapping}
    {s : Registration} (h : Registration.ofCall args options = .ok s) :
    g.add args options =
      match g.register s with
      | .error f => (g, .error f)
      | .ok (g', r) => (g', if r.name.isWritable then .ok r else .error .wrongValue) := by
  rw [add, h]
  rfl

/-- A call whose arguments stand for a registration is decided in this order. -/
theorem add_eq_verdict [CharacterNames] {g : Registry} {args : List Value} {options : Mapping}
    {s : Registration} (h : Registration.ofCall args options = .ok s) :
    g.add args options = g.verdict s := by
  rw [add_eq_match h, register, verdict, Registration.build, Route.build_eq]
  by_cases hfrozen : g.frozen = true
  · rw [if_pos hfrozen, if_pos hfrozen]
  rw [if_neg hfrozen, if_neg hfrozen]
  by_cases hheld : (g.named? s.name).isSome = true
  · rw [if_pos hheld, if_pos hheld]
  rw [if_neg hheld, if_neg hheld]
  by_cases hpage : (s.page.orElse s.name).truthy = false
  · rw [if_pos hpage, if_pos hpage]
    rfl
  rw [if_neg hpage, if_neg hpage]
  by_cases hname : s.pattern.truthy = false ∧ s.name.isWritable = false
  · rw [if_pos hname, if_pos hname]
    rfl
  rw [if_neg hname, if_neg hname]
  -- What is left is the kind of the page, the metadata and the pattern.
  generalize s.pattern.orElse (.str ("/" ++ s.name.display)) = pattern
  cases s.page.orElse s.name with
  | str page =>
    cases s.info.toMappingOrEmpty with
    | error f => rfl
    | ok info =>
      cases pattern with
      | str pattern =>
        dsimp only [Route.compilePattern]
        by_cases hkeys : (g.config.caseSensitive.isKey && g.config.strict.isKey) = true
        · rw [if_pos hkeys, if_pos hkeys, Pattern.compile_eq_match]
          cases Pattern.parse pattern.toList with
          | error reason => rfl
          | ok tokens =>
            dsimp only
            generalize Pattern.readExpressions _ tokens = expressions
            cases expressions with
            | error f => cases f <;> rfl
            | ok result => rfl
        · rw [if_neg hkeys, if_neg hkeys]
          rfl
      | _ => rfl
  | _ => rfl

end Registry

end SiteRouter
