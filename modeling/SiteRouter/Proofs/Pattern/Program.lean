import SiteRouter.Pattern.Compiled
import SiteRouter.Proofs.Regex.Text

/-!
# The program of a pattern

A pattern is compiled by writing the text of an expression and reading it back. Here the expression
is given directly, step by step: `Step.exprs` for a literal or a capture and `endExprs` for the end
of the pattern, and `parse_expression` shows that reading the text gives just these, with one group
for each capture. What a sub-pattern may read enters through `Step.Stands` alone.
-/

namespace SiteRouter.Pattern

open Regex (Denotes Closed sequence)

namespace Step

/-- The token of a step. -/
def token : Step → Token
  | literal text => .literal text
  | capture c _ => .capture c

/-- The text of what a capture may read denotes the expression for it. -/
def Stands [CharacterNames] : Step → Prop
  | literal _ => True
  | capture c segment => Closed c.segmentExpression 0 fun _ => segment

/-- A literal has characters, and a capture stands for what it may read. -/
def Valid [CharacterNames] (s : Step) : Prop := s.Stands ∧ s ≠ .literal []

/-- Whether the step is a literal that ends in a slash. -/
def endsInSlash : Step → Bool
  | literal text => text.getLast? == some '/'
  | capture _ _ => false

end Step

/-- The characters of a text as expressions. -/
def literalExprs (t : List Char) : List Regex := t.map fun c => .char c.toNat

/-- The values of a capture, with the lead between two of them. -/
def Capture.valueExprs (c : Capture) (segment : Regex) : List Regex :=
  if c.modifier.isRepeated then
    [segment, .repeated (sequence (literalExprs c.leadText ++ [segment])) 0 none .greedy]
  else [segment]

/-- A capture after `n` groups. -/
def Capture.exprs (c : Capture) (segment : Regex) (n : Nat) : List Regex :=
  let kept := Regex.group (n + 1) (sequence (c.valueExprs segment))
  if c.modifier.isOptional then
    if c.shared then literalExprs c.leadText ++ [.repeated kept 0 (some 1) .greedy]
    else [.repeated (sequence (literalExprs c.leadText ++ [kept])) 0 (some 1) .greedy]
  else literalExprs c.leadText ++ [kept]

/-- A step after `n` groups. -/
def Step.exprs (n : Nat) : Step → List Regex
  | literal text => literalExprs text
  | capture c segment => c.exprs segment n

/-- The number of groups of a step. -/
def Step.groups : Step → Nat
  | literal _ => 0
  | capture _ _ => 1

/-- Steps in turn after `n` groups. -/
def stepExprs : Nat → List Step → List Regex
  | _, [] => []
  | n, s :: ss => s.exprs n ++ stepExprs (n + s.groups) ss

/-- The number of groups of steps. -/
def groupCount : List Step → Nat
  | [] => 0
  | s :: ss => s.groups + groupCount ss

/-- One slash before the end of the path, or nothing. -/
def slashAtEnd : Regex :=
  .repeated (.seq (.char '/'.toNat) (.ahead (.anchor .finish))) 0 (some 1) .greedy

/-- A slash or the end of the path follows. -/
def segmentEdge : Regex := .ahead (.alt (.char '/'.toNat) (.anchor .finish))

/-- What stands after the steps; `slash` says whether the steps end in a slash. -/
def endExprs (o : Options) (slash : Bool) : List Regex :=
  (if o.strict then [] else [slashAtEnd]) ++
    if o.toEnd then [.anchor .finish] else if o.strict && slash then [] else [segmentEdge]

/-- Whether the last step is a literal that ends in a slash. -/
def endsInSlash (ss : List Step) : Bool := ss.getLast?.any Step.endsInSlash

/-- The steps without a slash at their end. -/
def dropSlash (ss : List Step) : List Step :=
  match ss.getLast? with
  | some (.literal t) => if t.getLast? = some '/' then ss.dropLast ++ [.literal t.dropLast] else ss
  | _ => ss

/-- The steps as they are matched: where a slash at the end does not count, it is left to the end
of the expression. -/
def matchedSteps (o : Options) (ss : List Step) : List Step :=
  if o.strict then ss else dropSlash ss

/-- The expression for a path. -/
def program (o : Options) (ss : List Step) : Regex.Program :=
  ⟨sequence (.anchor .start :: (stepExprs 0 (matchedSteps o ss) ++ endExprs o (endsInSlash ss))),
    groupCount ss⟩

/-! ## The texts of the parts -/

theorem isEscapable_of_special {c : Char} (h : c ∈ specialChars) : Regex.isEscapable c = true := by
  have hall : specialChars.all Regex.isEscapable = true := by decide
  exact List.all_eq_true.1 hall c h

theorem special_of_isSyntax {c : Char} (h : Regex.isSyntax c = true) : c ∈ specialChars := by
  have hall : "\\.^$|()[*+?\x7b".toList.all specialChars.contains = true := by decide
  exact List.contains_iff_mem.1 (List.all_eq_true.1 hall c (List.contains_iff_mem.1 h))

/-- An escaped literal denotes its characters. -/
theorem denotes_escapeLiteral [CharacterNames] (t : List Char) :
    Denotes (escapeLiteral t) 0 fun _ => literalExprs t := by
  induction t with
  | nil => exact .nil
  | cons c t ih =>
    -- A character that is escaped may be, and one with a meaning of its own is.
    have hchar : Denotes (if specialChars.contains c then ['\\', c] else [c]) 0
        fun _ => [.char c.toNat] := by
      split
      · next h =>
        exact (Closed.escaped (isEscapable_of_special (List.contains_iff_mem.1 h))).denotes
      · next h =>
        refine (Closed.char (Bool.eq_false_iff.2 fun hsyntax => h ?_)).denotes
        exact List.contains_iff_mem.2 (special_of_isSyntax hsyntax)
    rw [escapeLiteral, List.flatMap_cons]
    exact hchar.append ih

theorem plainGroup_eq (cs : List Char) : plainGroup cs = ['(', '?', ':'] ++ (cs ++ [')']) := rfl

theorem keptGroup_eq (cs : List Char) : keptGroup cs = ['('] ++ (cs ++ [')']) := rfl

theorem readLexeme_optional [CharacterNames] (cs : List Char) :
    Regex.readLexeme '?' cs = Regex.readCount 0 (some 1) 0 cs := rfl

theorem readLexeme_star [CharacterNames] (cs : List Char) :
    Regex.readLexeme '*' cs = Regex.readCount 0 none 0 cs :=
  rfl

/-- The values of a capture. -/
theorem denotes_valuesExpression [CharacterNames] {c : Capture} {segment : Regex}
    (h : Closed c.segmentExpression 0 fun _ => segment) :
    Denotes c.valuesExpression 0 fun _ => c.valueExprs segment := by
  unfold Capture.valuesExpression Capture.valueExprs
  split
  · have hround := ((denotes_escapeLiteral c.leadText).append h.denotes).body.plain
    rw [List.append_assoc, plainGroup_eq]
    exact h.denotes.append (hround.counted readLexeme_star)
  · exact h.denotes

/-- A step with its own expressions and groups. -/
theorem Step.denotes [CharacterNames] {s : Step} (h : s.Stands) :
    Denotes s.token.expression s.groups fun n => s.exprs n := by
  cases s with
  | literal t => exact denotes_escapeLiteral t
  | capture c segment =>
    have hlead := denotes_escapeLiteral c.leadText
    have hkept := (denotes_valuesExpression h).body.kept
    show Denotes (Token.expression (.capture c)) 1 fun n => c.exprs segment n
    unfold Token.expression Capture.exprs
    dsimp only
    rw [keptGroup_eq, plainGroup_eq]
    split
    · split
      · rw [List.append_assoc]
        exact hlead.append (hkept.counted readLexeme_optional)
      · exact (hlead.append hkept.denotes).body.plain.counted readLexeme_optional
    · exact hlead.append hkept.denotes

/-- Steps in turn. -/
theorem denotes_steps [CharacterNames] {ss : List Step} (h : ∀ s ∈ ss, s.Stands) :
    Denotes ((ss.map Step.token).flatMap Token.expression) (groupCount ss)
      fun n => stepExprs n ss := by
  induction ss with
  | nil => exact .nil
  | cons s ss ih =>
    rw [List.forall_mem_cons] at h
    exact (Step.denotes h.1).append (ih h.2)

/-- The text that stands after the steps. -/
def endText (o : Options) (slash : Bool) : List Char :=
  (if o.strict then [] else "(?:/(?=\\Z))?".toList) ++
    if o.toEnd then "\\Z".toList else if o.strict && slash then [] else "(?=/|\\Z)".toList

theorem denotes_finish [CharacterNames] : Denotes ['\\', 'Z'] 0 fun _ => [.anchor .finish] :=
  .of_anchor (.cons (by decide) _) fun _ => rfl

theorem denotes_endText [CharacterNames] (o : Options) (slash : Bool) :
    Denotes (endText o slash) 0 fun _ => endExprs o slash := by
  have hslash : Denotes ['/'] 0 fun _ => [.char '/'.toNat] := (Closed.char (by decide)).denotes
  have htolerant : Denotes "(?:/(?=\\Z))?".toList 0 fun _ => [slashAtEnd] :=
    (hslash.append denotes_finish.body.ahead.denotes).body.plain.counted readLexeme_optional
  have hedge : Denotes "(?=/|\\Z)".toList 0 fun _ => [segmentEdge] :=
    (hslash.bar denotes_finish).ahead.denotes
  have hfirst : Denotes (if o.strict then [] else "(?:/(?=\\Z))?".toList) 0
      fun _ => if o.strict then [] else [slashAtEnd] := by
    split
    · exact .nil
    · exact htolerant
  have hlast : Denotes
      (if o.toEnd then "\\Z".toList else if o.strict && slash then [] else "(?=/|\\Z)".toList) 0
      fun _ =>
        if o.toEnd then [.anchor .finish] else if o.strict && slash then [] else [segmentEdge] := by
    split
    · exact denotes_finish
    · split
      · exact .nil
      · exact hedge
  exact hfirst.append hlast

/-! ## The slash at the end -/

/-- The steps end in a slash if the last of them is a literal that does. -/
theorem endsInSlash_iff {ss : List Step} :
    endsInSlash ss = true ↔ ∃ init t, ss = init ++ [.literal (t ++ ['/'])] := by
  rcases List.eq_nil_or_concat ss with rfl | ⟨init, last, rfl⟩
  · simp [endsInSlash]
  · cases last with
    | capture c segment => simp [endsInSlash, Step.endsInSlash]
    | literal t => simp [endsInSlash, Step.endsInSlash, List.getLast?_eq_some_iff]

/-- The slash at the end is dropped where there is one. -/
theorem dropSlash_concat (init : List Step) (t : List Char) :
    dropSlash (init ++ [.literal (t ++ ['/'])]) = init ++ [.literal t] := by
  simp [dropSlash]

/-- Steps that do not end in a slash stay as they are. -/
theorem dropSlash_of_not_endsInSlash {ss : List Step} (h : endsInSlash ss = false) :
    dropSlash ss = ss := by
  unfold dropSlash
  split
  · next t ht =>
    rw [endsInSlash, ht] at h
    rw [if_neg (by simpa [Step.endsInSlash] using h)]
  · rfl

/-- The text of a step ends in a slash if the step does. -/
theorem getLast?_expression {s : Step} (h : s ≠ .literal []) :
    ∃ x, s.token.expression.getLast? = some x ∧ (x = '/' ↔ s.endsInSlash = true) := by
  cases s with
  | literal t =>
    obtain ⟨t, x, rfl⟩ : ∃ t' x, t = t' ++ [x] := by
      simpa using List.eq_nil_or_concat t |>.resolve_left fun ht => h (by rw [ht])
    refine ⟨x, ?_, by simp [Step.endsInSlash]⟩
    show (escapeLiteral (t ++ [x])).getLast? = some x
    rw [escapeLiteral, List.flatMap_append, List.getLast?_append]
    simp only [List.flatMap_cons, List.flatMap_nil, List.append_nil]
    split <;> rfl
  | capture c segment =>
    -- A capture ends in a count or a parenthesis.
    refine ⟨if c.modifier.isOptional then '?' else ')', ?_, ?_⟩
    · show (Token.expression (.capture c)).getLast? = _
      unfold Token.expression
      dsimp only
      split
      · split <;> simp
      · simp only [keptGroup_eq, List.getLast?_append, List.getLast?_singleton, Option.some_or]
    · split <;> simp [Step.endsInSlash]

/-- The text of steps ends in a slash if the steps do. -/
theorem getLast?_expressions {ss : List Step} (h : ∀ s ∈ ss, s ≠ .literal []) :
    (((ss.map Step.token).flatMap Token.expression).getLast? == some '/') = endsInSlash ss := by
  rcases List.eq_nil_or_concat ss with rfl | ⟨init, last, rfl⟩
  · rfl
  · obtain ⟨x, hx, hslash⟩ := getLast?_expression (h last (by simp))
    rw [Bool.eq_iff_iff]
    simp [List.getLast?_append, hx, hslash, endsInSlash]

/-! ## Reading the expression of a pattern -/

/-- The expression of a pattern is its steps without the slash that is left to the end, and the
end. -/
theorem expression_eq (o : Options) {ss : List Step} (h : ∀ s ∈ ss, s ≠ .literal []) :
    expression o (ss.map Step.token) =
      '^' :: (((matchedSteps o ss).map Step.token).flatMap Token.expression
        ++ endText o (endsInSlash ss)) := by
  unfold expression endText matchedSteps
  dsimp only
  rw [getLast?_expressions h]
  cases o.strict with
  | true => cases o.toEnd <;> cases endsInSlash ss <;> simp
  | false =>
    cases hslash : endsInSlash ss with
    | false =>
      rw [dropSlash_of_not_endsInSlash hslash]
      cases o.toEnd <;> simp
    | true =>
      -- A slash needs no escape, so dropping it from the text is dropping it from the literal.
      obtain ⟨init, t, rfl⟩ := endsInSlash_iff.1 hslash
      have hescape : escapeLiteral (t ++ ['/']) = escapeLiteral t ++ ['/'] := by
        rw [escapeLiteral, List.flatMap_append]
        rfl
      have hroute :
          ((init ++ [Step.literal (t ++ ['/'])]).map Step.token).flatMap Token.expression
            = ((init ++ [Step.literal t]).map Step.token).flatMap Token.expression ++ ['/'] := by
        simp [Step.token, Token.expression, hescape]
      rw [dropSlash_concat, hroute]
      cases o.toEnd <;>
        simp only [Bool.false_eq_true, if_true, if_false, List.dropLast_concat,
          List.append_assoc, Bool.false_and]

/-- The steps are matched as they are, or without the slash at their end that does not count. -/
theorem matchedSteps_cases (o : Options) (ss : List Step) :
    matchedSteps o ss = ss ∨ (o.strict = false ∧ ∃ init t,
      ss = init ++ [.literal (t ++ ['/'])] ∧ matchedSteps o ss = init ++ [.literal t]) := by
  unfold matchedSteps
  split
  · exact .inl rfl
  · next hstrict =>
    cases hslash : endsInSlash ss with
    | false => exact .inl (dropSlash_of_not_endsInSlash hslash)
    | true =>
      obtain ⟨init, t, rfl⟩ := endsInSlash_iff.1 hslash
      exact .inr ⟨Bool.eq_false_iff.2 hstrict, init, t, rfl, dropSlash_concat init t⟩

/-- Steps that do not end in a slash are matched as they are. -/
theorem matchedSteps_of_not_endsInSlash (o : Options) {ss : List Step}
    (h : endsInSlash ss = false) : matchedSteps o ss = ss := by
  unfold matchedSteps
  split
  · rfl
  · exact dropSlash_of_not_endsInSlash h

/-- What holds of all literals and of the steps holds of the steps as they are matched. -/
theorem forall_matchedSteps (o : Options) {ss : List Step} {P : Step → Prop}
    (hliteral : ∀ t, P (.literal t)) (h : ∀ s ∈ ss, P s) : ∀ s ∈ matchedSteps o ss, P s := by
  rcases matchedSteps_cases o ss with hsame | ⟨-, init, t, rfl, hdropped⟩
  · rwa [hsame]
  · rw [hdropped]
    rw [List.forall_mem_append] at h ⊢
    exact ⟨h.1, List.forall_mem_singleton.2 (hliteral t)⟩

theorem groupCount_append (ss ss' : List Step) :
    groupCount (ss ++ ss') = groupCount ss + groupCount ss' := by
  induction ss with
  | nil => simp [groupCount]
  | cons s ss ih => rw [List.cons_append, groupCount, groupCount, ih, Nat.add_assoc]

/-- Steps in two parts have the expressions of the first part, and those of the second after its
groups. -/
theorem stepExprs_append (n : Nat) (ss ss' : List Step) :
    stepExprs n (ss ++ ss') = stepExprs n ss ++ stepExprs (n + groupCount ss) ss' := by
  induction ss generalizing n with
  | nil => rfl
  | cons s ss ih =>
    rw [List.cons_append, stepExprs, stepExprs, ih, groupCount, Nat.add_assoc, List.append_assoc]

/-- Leaving a slash to the end takes no capture away. -/
theorem groupCount_matchedSteps (o : Options) (ss : List Step) :
    groupCount (matchedSteps o ss) = groupCount ss := by
  rcases matchedSteps_cases o ss with hsame | ⟨-, init, t, rfl, hdropped⟩
  · rw [hsame]
  · rw [hdropped, groupCount_append, groupCount_append]
    rfl

/-- Reading the expression of a pattern gives its program. -/
theorem parse_expression [CharacterNames] (o : Options) {ss : List Step} (h : ∀ s ∈ ss, s.Valid) :
    Regex.parse (expression o (ss.map Step.token)) = .ok (program o ss) := by
  have hstands := forall_matchedSteps o (P := Step.Stands) (fun _ => trivial) fun s hs => (h s hs).1
  -- The text is the start, the steps and the end, each read as what it denotes.
  have hstart : Denotes ['^'] 0 fun _ => [.anchor .start] :=
    .of_anchor (.cons (by decide) _) fun _ => rfl
  have hall := hstart.append ((denotes_steps hstands).append (denotes_endText o (endsInSlash ss)))
  rw [expression_eq o fun s hs => (h s hs).2, program, ← groupCount_matchedSteps o]
  rw [← List.singleton_append, ← Nat.zero_add (groupCount _)]
  exact hall.body.parse

end SiteRouter.Pattern
