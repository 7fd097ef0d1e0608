import SiteRouter.Pattern.Compiled
import SiteRouter.Proofs.Regex.Counts

/-!
# Oversized counts in a pattern

An oversized count in the expression of a pattern can only come from a sub-pattern. The braces of
literals are escaped, and around the sub-patterns stand parentheses, which no count reaches over: so
whatever count the expression has lies in one of its sub-patterns (`countsWithin_expression`), and
escaping a sub-pattern adds none (`infix_of_infix_escapeBody`).
-/

namespace SiteRouter.Pattern

open Regex (HasOversizedCount IsOversizedCount isAsciiDigit)

/-- The sub-patterns of tokens. -/
def bodies (ts : List Token) : Set (List Char) := {text | ∃ c ∈ captures ts, c.body = .custom text}

/-! ## Counts in a text -/

/-- Whether the character may stand in a count. -/
def isCountChar (c : Char) : Bool := c == '{' || c == '}' || c == ',' || isAsciiDigit c

/-- No character of the text may stand in a count. -/
def IsForeign (cs : List Char) : Prop := cs.any isCountChar = false

instance : DecidablePred IsForeign :=
  fun cs => inferInstanceAs (Decidable (cs.any isCountChar = false))

theorem isForeign_cons {c : Char} {cs : List Char} :
    IsForeign (c :: cs) ↔ isCountChar c = false ∧ IsForeign cs := by
  unfold IsForeign
  rw [List.any_cons, Bool.or_eq_false_iff]

section Count

variable {u : List Char}

/-- A count starts with a brace, and another one follows. -/
theorem exists_tail_of_isOversizedCount (hu : IsOversizedCount u) :
    ∃ tail, u = '{' :: tail ∧ '}' ∈ tail := by
  cases hu with
  | one _ _ => exact ⟨_, rfl, by simp⟩
  | two _ _ _ => exact ⟨_, rfl, by simp⟩

theorem isCountChar_of_mem (hu : IsOversizedCount u) : ∀ c ∈ u, isCountChar c = true := by
  have hdigit : ∀ {digits : List Char}, (∀ c ∈ digits, isAsciiDigit c = true) →
      ∀ c ∈ digits, isCountChar c = true := by
    intro digits hdigits c hc
    unfold isCountChar
    rw [hdigits c hc, Bool.or_true]
  cases hu with
  | one hdigits _ =>
    rw [List.forall_mem_cons, List.forall_mem_append, List.forall_mem_singleton]
    exact ⟨rfl, hdigit hdigits, rfl⟩
  | two hlo hhi _ =>
    rw [List.forall_mem_cons, List.forall_mem_append, List.forall_mem_cons,
      List.forall_mem_append, List.forall_mem_singleton]
    exact ⟨rfl, hdigit hlo, rfl, hdigit hhi, rfl⟩

/-- A character that may not stand in a count does not. -/
theorem not_mem_of_isCountChar {x : Char} (hu : ∀ c ∈ u, isCountChar c = true)
    (hx : isCountChar x = false) : x ∉ u :=
  fun hmem => Bool.false_ne_true (hx.symm.trans (hu x hmem))

/-- A start of a text does not reach over a character that it lacks. -/
theorem prefix_of_prefix_append_cons {x : Char} (hx : x ∉ u) {s t : List Char}
    (h : u <+: s ++ x :: t) : u <+: s := by
  have hle : u.length ≤ s.length := by
    by_contra hlonger
    have hreach : s ++ [x] <+: u := by
      refine List.prefix_of_prefix_length_le ⟨t, by simp⟩ h ?_
      rw [List.length_append, List.length_singleton]
      omega
    exact hx (hreach.subset (by simp))
  exact List.prefix_of_prefix_length_le h (List.prefix_append s _) hle

/-- Neither does a text anywhere in it. -/
theorem infix_of_infix_append_cons {x : Char} (hx : x ∉ u) {s t : List Char}
    (h : u <:+: s ++ x :: t) : u <:+: s ∨ u <:+: t := by
  induction s with
  | nil =>
    rcases List.infix_cons_iff.1 h with hstart | hrest
    · exact .inl (prefix_of_prefix_append_cons hx (s := []) hstart).isInfix
    · exact .inr hrest
  | cons c s ih =>
    rcases List.infix_cons_iff.1 h with hstart | hrest
    · exact .inl (prefix_of_prefix_append_cons hx (s := c :: s) hstart).isInfix
    · exact (ih hrest).imp_left fun hinfix => List.infix_cons hinfix

/-! ## Escaped texts -/

/-- Among the characters of a start of a literal that has no backslash none is special. -/
theorem not_special_of_prefix_escapeLiteral {cs : List Char} (hu : '\\' ∉ u)
    (h : u <+: escapeLiteral cs) : ∀ c ∈ u, specialChars.contains c = false := by
  induction cs generalizing u with
  | nil =>
    rw [List.prefix_nil.1 h]
    nofun
  | cons x cs ih =>
    rw [escapeLiteral, List.flatMap_cons] at h
    by_cases hx : specialChars.contains x = true
    · rw [if_pos hx, List.cons_append] at h
      rcases List.prefix_cons_iff.1 h with rfl | ⟨v, rfl, -⟩
      · nofun
      · exact absurd List.mem_cons_self hu
    · rw [if_neg hx, List.singleton_append] at h
      rcases List.prefix_cons_iff.1 h with rfl | ⟨v, rfl, hrest⟩
      · nofun
      · rw [List.forall_mem_cons]
        exact ⟨Bool.eq_false_iff.2 hx, ih (fun hmem => hu (List.mem_cons_of_mem x hmem)) hrest⟩

/-- A literal has no count: its braces are escaped. -/
theorem not_infix_escapeLiteral (hu : IsOversizedCount u) (cs : List Char) :
    ¬ u <:+: escapeLiteral cs := by
  have hslash : '\\' ∉ u := not_mem_of_isCountChar (isCountChar_of_mem hu) rfl
  obtain ⟨tail, rfl, hbrace⟩ := exists_tail_of_isOversizedCount hu
  rw [List.mem_cons, not_or] at hslash
  -- The second brace of a count has no backslash before it, wherever the first one stands.
  have htail : ∀ cs, ¬ tail <+: escapeLiteral cs := fun cs h =>
    absurd (not_special_of_prefix_escapeLiteral hslash.2 h _ hbrace) (by decide)
  intro h
  induction cs with
  | nil => cases List.infix_nil.1 h
  | cons x cs ih =>
    rw [escapeLiteral, List.flatMap_cons] at h
    have hstart : ¬ '{' :: tail <:+: x :: escapeLiteral cs := by
      intro h
      rcases List.infix_cons_iff.1 h with h | h
      · exact htail cs (List.cons_prefix_cons.1 h).2
      · exact ih h
    by_cases hx : specialChars.contains x = true
    · rw [if_pos hx, List.cons_append] at h
      rcases List.infix_cons_iff.1 h with h | h
      · exact hslash.1 (List.cons_prefix_cons.1 h).1.symm
      · exact hstart h
    · rw [if_neg hx, List.singleton_append] at h
      exact hstart h

/-- The characters that a sub-pattern is escaped for are none of a count. -/
theorem isCountChar_of_guarded {c : Char} (h : guardedChars.contains c = true) :
    isCountChar c = false := by
  have hforeign : IsForeign guardedChars := by decide
  exact Bool.eq_false_iff.2 (List.any_eq_false.1 hforeign c (List.contains_iff_mem.1 h))

/-- A start of an escaped sub-pattern without a backslash is one of the sub-pattern as it is. -/
theorem prefix_of_prefix_escapeBody (hu : '\\' ∉ u) {cs : List Char}
    (h : u <+: escapeBody cs) : u <+: cs := by
  induction cs generalizing u with
  | nil => exact h
  | cons x cs ih =>
    rw [escapeBody, List.flatMap_cons] at h
    by_cases hx : guardedChars.contains x = true
    · rw [if_pos hx, List.cons_append] at h
      rcases List.prefix_cons_iff.1 h with rfl | ⟨v, rfl, -⟩
      · exact List.nil_prefix
      · exact absurd List.mem_cons_self hu
    · rw [if_neg hx, List.singleton_append] at h
      rcases List.prefix_cons_iff.1 h with rfl | ⟨v, rfl, hrest⟩
      · exact List.nil_prefix
      · rw [List.mem_cons, not_or] at hu
        exact List.cons_prefix_cons.2 ⟨rfl, ih hu.2 hrest⟩

/-- So escaping a sub-pattern makes no count. -/
theorem infix_of_infix_escapeBody (hu : ∀ c ∈ u, isCountChar c = true) {cs : List Char}
    (h : u <:+: escapeBody cs) : u <:+: cs := by
  induction cs with
  | nil => exact h
  | cons x cs ih =>
    have hslash : '\\' ∉ u := not_mem_of_isCountChar hu rfl
    have hstart : u <+: escapeBody (x :: cs) → u <+: x :: cs := prefix_of_prefix_escapeBody hslash
    rw [escapeBody, List.flatMap_cons] at h hstart
    by_cases hx : guardedChars.contains x = true
    · rw [if_pos hx] at h
      have hrest : u <:+: [] ∨ u <:+: escapeBody cs := by
        obtain hempty | hafter := infix_of_infix_append_cons hslash (s := []) h
        · exact .inl hempty
        · have hguarded : x ∉ u := not_mem_of_isCountChar hu (isCountChar_of_guarded hx)
          exact infix_of_infix_append_cons hguarded (s := []) hafter
      rcases hrest with hempty | hrest
      · rw [List.infix_nil.1 hempty]
        exact List.nil_infix
      · exact List.infix_cons (ih hrest)
    · rw [if_neg hx] at h hstart
      rcases List.infix_cons_iff.1 h with hprefix | hrest
      · exact (hstart hprefix).isInfix
      · exact List.infix_cons (ih hrest)

end Count

/-! ## The expression of a pattern -/

/-- The counts of a text are those of some of the given texts. -/
def CountsWithin (texts : Set (List Char)) (cs : List Char) : Prop :=
  ∀ u, IsOversizedCount u → u <:+: cs → ∃ t ∈ texts, u <:+: t

namespace CountsWithin

variable {texts : Set (List Char)} {s t : List Char}

theorem literal (texts : Set (List Char)) (cs : List Char) :
    CountsWithin texts (escapeLiteral cs) :=
  fun _ hu h => absurd h (not_infix_escapeLiteral hu cs)

theorem nil (texts : Set (List Char)) : CountsWithin texts [] := literal texts []

theorem body {cs : List Char} (h : cs ∈ texts) : CountsWithin texts (escapeBody cs) :=
  fun _ hu hinfix => ⟨cs, h, infix_of_infix_escapeBody (isCountChar_of_mem hu) hinfix⟩

theorem mono (ht : CountsWithin texts t) (hst : s <:+: t) : CountsWithin texts s :=
  fun u hu h => ht u hu (h.trans hst)

/-- A character that no count has keeps the counts before and after it apart. -/
theorem append_cons {x : Char} (hx : isCountChar x = false) (hs : CountsWithin texts s)
    (ht : CountsWithin texts t) : CountsWithin texts (s ++ x :: t) := by
  intro u hu h
  have hforeign : x ∉ u := not_mem_of_isCountChar (isCountChar_of_mem hu) hx
  rcases infix_of_infix_append_cons hforeign h with h | h
  · exact hs u hu h
  · exact ht u hu h

theorem foreign_append {cs : List Char} (hcs : IsForeign cs)
    (ht : CountsWithin texts t) : CountsWithin texts (cs ++ t) := by
  induction cs with
  | nil => exact ht
  | cons x cs ih =>
    rw [isForeign_cons] at hcs
    exact append_cons hcs.1 (nil texts) (ih hcs.2)

/-- So does a text of such characters. -/
theorem append_foreign_append {cs : List Char} (hcs : IsForeign cs) (hne : cs ≠ [])
    (hs : CountsWithin texts s) (ht : CountsWithin texts t) :
    CountsWithin texts (s ++ (cs ++ t)) := by
  obtain ⟨x, cs, rfl⟩ := List.exists_cons_of_ne_nil hne
  rw [isForeign_cons] at hcs
  exact append_cons hcs.1 hs (foreign_append hcs.2 ht)

theorem append_foreign {cs : List Char} (hcs : IsForeign cs)
    (hs : CountsWithin texts s) : CountsWithin texts (s ++ cs) := by
  cases cs with
  | nil => rwa [List.append_nil]
  | cons x cs =>
    have := append_foreign_append hcs (List.cons_ne_nil x cs) hs (nil texts)
    rwa [List.append_nil] at this

/-- And so does a group, whose counts are kept apart from those around it. -/
theorem append_plainGroup {cs : List Char} (hs : CountsWithin texts s)
    (hcs : CountsWithin texts cs) (ht : CountsWithin texts t) :
    CountsWithin texts (s ++ (plainGroup cs ++ t)) := by
  have hrest : CountsWithin texts (cs ++ ')' :: t) := append_cons (by decide) hcs ht
  have hgroup : CountsWithin texts (s ++ ("(?:".toList ++ (cs ++ ')' :: t))) :=
    append_foreign_append (by decide) (by decide) hs hrest
  simpa only [plainGroup, List.append_assoc, List.singleton_append] using hgroup

theorem append_keptGroup {cs : List Char} (hs : CountsWithin texts s)
    (hcs : CountsWithin texts cs) (ht : CountsWithin texts t) :
    CountsWithin texts (s ++ (keptGroup cs ++ t)) := by
  have hrest : CountsWithin texts (cs ++ ')' :: t) := append_cons (by decide) hcs ht
  have hgroup : CountsWithin texts (s ++ '(' :: (cs ++ ')' :: t)) :=
    append_cons (by decide) hs hrest
  simpa only [keptGroup, List.cons_append, List.append_assoc, List.nil_append] using hgroup

end CountsWithin

section Expression

variable {texts : Set (List Char)} {c : Capture}

/-- What a capture may read has the counts of its sub-pattern. -/
theorem countsWithin_expression_of_capture (hc : ∀ text, c.body = .custom text → text ∈ texts) :
    CountsWithin texts c.expression := by
  unfold Capture.expression
  split
  · rw [List.append_assoc]
    exact .foreign_append (by decide) (.append_foreign (by decide) (.literal texts _))
  · exact .append_foreign (s := []) (by decide) (.nil texts)
  · next text hbody => exact .body (hc text hbody)

theorem countsWithin_segmentExpression (hc : ∀ text, c.body = .custom text → text ∈ texts) :
    CountsWithin texts c.segmentExpression := by
  have hgroup := CountsWithin.append_plainGroup (.nil texts)
    (countsWithin_expression_of_capture hc) (.nil texts)
  rwa [List.append_nil, List.nil_append] at hgroup

theorem countsWithin_valuesExpression (hc : ∀ text, c.body = .custom text → text ∈ texts) :
    CountsWithin texts c.valuesExpression := by
  have hsegment := countsWithin_segmentExpression hc
  unfold Capture.valuesExpression
  split
  · have hnext := CountsWithin.append_plainGroup (.literal texts c.leadText)
      (countsWithin_expression_of_capture hc) (.nil texts)
    rw [List.append_nil] at hnext
    rw [List.append_assoc]
    exact .append_plainGroup hsegment hnext (.append_foreign (s := []) (by decide) (.nil texts))
  · exact hsegment

/-- A capture keeps the counts of the literal before it and of what follows it apart. -/
theorem countsWithin_capture (hc : ∀ text, c.body = .custom text → text ∈ texts)
    (before : List Char) {rest : List Char} (hrest : CountsWithin texts rest) :
    CountsWithin texts (escapeLiteral before ++ ((Token.capture c).expression ++ rest)) := by
  have hvalues := countsWithin_valuesExpression hc
  have hmark : CountsWithin texts ('?' :: rest) :=
    .append_cons (s := []) (by decide) (.nil texts) hrest
  have hlead : ∀ {t}, CountsWithin texts t →
      CountsWithin texts (escapeLiteral before ++
        (escapeLiteral c.leadText ++ (keptGroup c.valuesExpression ++ t))) := by
    intro t ht
    have hgroup := CountsWithin.append_keptGroup (.literal texts (before ++ c.leadText)) hvalues ht
    rwa [escapeLiteral, List.flatMap_append, List.append_assoc] at hgroup
  unfold Token.expression
  dsimp only
  split
  · split
    · simpa only [List.append_assoc, List.singleton_append] using hlead hmark
    · have hinner := CountsWithin.append_keptGroup (.literal texts c.leadText) hvalues (.nil texts)
      rw [List.append_nil] at hinner
      simpa only [List.append_assoc, List.singleton_append]
        using CountsWithin.append_plainGroup (.literal texts before) hinner hmark
  · simpa only [List.append_assoc] using hlead hrest

/-- The counts of tokens are those of the sub-patterns of their captures. The induction carries the
literal text before the tokens, as literals may stand side by side. -/
theorem countsWithin_tokens {ts : List Token}
    (hts : ∀ c ∈ captures ts, ∀ text, c.body = .custom text → text ∈ texts) (before : List Char) :
    CountsWithin texts (escapeLiteral before ++ ts.flatMap Token.expression) := by
  induction ts generalizing before with
  | nil =>
    rw [List.flatMap_nil, List.append_nil]
    exact .literal texts before
  | cons t ts ih =>
    rw [List.flatMap_cons]
    cases t with
    | literal text =>
      have hrest := ih hts (before ++ text)
      rwa [escapeLiteral, List.flatMap_append, List.append_assoc] at hrest
    | capture c =>
      have hts : ∀ c' ∈ c :: captures ts, ∀ text, c'.body = .custom text → text ∈ texts := hts
      rw [List.forall_mem_cons] at hts
      exact countsWithin_capture hts.1 before (ih hts.2 [])

/-- So are the counts of the whole expression. -/
theorem countsWithin_expression {ts : List Token}
    (hts : ∀ c ∈ captures ts, ∀ text, c.body = .custom text → text ∈ texts) (o : Options) :
    CountsWithin texts (expression o ts) := by
  have htokens : CountsWithin texts (ts.flatMap Token.expression) := countsWithin_tokens hts []
  have hshorter : CountsWithin texts (ts.flatMap Token.expression).dropLast :=
    htokens.mono (List.dropLast_prefix _).isInfix
  unfold expression
  dsimp only
  refine .append_cons (s := []) (by decide) (.nil texts) ?_
  have hslash : CountsWithin texts
      (if o.strict then ts.flatMap Token.expression
        else (if (ts.flatMap Token.expression).getLast? == some '/'
          then (ts.flatMap Token.expression).dropLast else ts.flatMap Token.expression) ++
            "(?:/(?=\\Z))?".toList) := by
    split
    · exact htokens
    · refine .append_foreign (by decide) ?_
      split
      · exact hshorter
      · exact htokens
  split
  · exact .append_foreign (by decide) hslash
  · split
    · exact hslash
    · exact .append_foreign (by decide) hslash

end Expression

end SiteRouter.Pattern
