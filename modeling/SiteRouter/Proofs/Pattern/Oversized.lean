import SiteRouter.Proofs.Pattern.Counts
import SiteRouter.Proofs.Pattern.Program
import SiteRouter.Proofs.Pattern.Tokens
import SiteRouter.Proofs.Regex.Codes

/-!
# Oversized numbers in a pattern

A pattern whose expression is rejected is an invalid pattern, but for a number that is too long or
too large: that fault keeps its own kind. Such a number can only come from a sub-pattern
(`compile_eq_error`). For counts this is known already. An oversized code starts with a backslash
and a letter, and the backslashes that are put into an expression stand before other characters;
they leave those of a sub-pattern in their pairs, as does the parenthesis at its end
(`hasOversizedCode_of_escapeBody`).
-/

namespace SiteRouter.Pattern

open Regex (HasOversizedCount HasOversizedCode StartsOversized fixedHex?)

/-- One of the sub-patterns of the pattern has an oversized number. -/
def HasOversizedBody (pattern : String) : Prop :=
  ∃ ts, parse pattern.toList = .ok ts ∧
    ∃ text ∈ bodies ts, HasOversizedCount text ∨ HasOversizedCode text

/-! ## Codes in a text -/

/-- The oversized codes at the start of a text are those of some of the given texts, whatever
follows. -/
def CodesFrom (texts : Set (List Char)) (s : List Char) : Prop :=
  ∀ rest, HasOversizedCode (s ++ rest) → (∃ t ∈ texts, HasOversizedCode t) ∨ HasOversizedCode rest

/-- Behind a character that is no backslash the rest is read by itself. -/
theorem hasOversizedCode_of_cons {c : Char} (hc : c ≠ '\\') {cs : List Char}
    (h : HasOversizedCode (c :: cs)) : HasOversizedCode cs := by
  cases h with
  | here => exact absurd rfl hc
  | pair => exact absurd rfl hc
  | plain _ h => exact h

/-- Behind a backslash and another character than the letter of a code it is so too. -/
theorem hasOversizedCode_of_pair {c : Char} (hc : c ≠ 'U') {cs : List Char}
    (h : HasOversizedCode ('\\' :: c :: cs)) : HasOversizedCode cs := by
  cases h with
  | here => exact absurd rfl hc
  | pair h => exact h
  | plain hslash => exact absurd rfl hslash

/-- A number in an escaped sub-pattern is one of the sub-pattern: no digit is escaped. -/
theorem startsOversized_of_escapeBody {cs rest : List Char}
    (h : StartsOversized (escapeBody cs ++ ')' :: rest)) : StartsOversized cs := by
  obtain ⟨n, hn, hlarge⟩ := h
  rw [Regex.fixedHex?_closing] at hn
  have hslash : '\\' ∉ (escapeBody cs).take 8 := Regex.noneWithin_of_fixedHex? hn
  have hwidth : 8 ≤ (escapeBody cs).length := Regex.fixedHex?_le hn
  have hstart : (escapeBody cs).take 8 <+: cs :=
    prefix_of_prefix_escapeBody hslash (List.take_prefix 8 _)
  have htake : cs.take 8 = (escapeBody cs).take 8 := by
    rw [List.prefix_iff_eq_take.1 hstart, List.length_take, Nat.min_eq_left hwidth]
  have hlonger : 8 ≤ cs.length := by
    have hle := hstart.length_le
    rwa [List.length_take, Nat.min_eq_left hwidth] at hle
  refine ⟨n, ?_, hlarge⟩
  rw [fixedHex?, if_pos hwidth] at hn
  rw [fixedHex?, if_pos hlonger, htake, hn]

theorem escapeBody_cons (c : Char) (cs : List Char) :
    escapeBody (c :: cs) =
      if guardedChars.contains c then '\\' :: c :: escapeBody cs else c :: escapeBody cs := by
  rw [escapeBody, List.flatMap_cons]
  split <;> rfl

/-- What gets a backslash in a sub-pattern is neither a backslash nor the letter of a code. -/
theorem ne_of_guarded {c : Char} (h : guardedChars.contains c = true) : c ≠ '\\' ∧ c ≠ 'U' := by
  constructor
  · rintro rfl
    exact absurd h (by decide)
  · rintro rfl
    exact absurd h (by decide)

/-- Escaping a sub-pattern and ending it with a parenthesis makes no code. The cases are those of
reading backslashes in pairs. -/
theorem hasOversizedCode_of_escapeBody {rest : List Char} :
    ∀ {text : List Char}, HasOversizedCode (escapeBody text ++ ')' :: rest) →
      HasOversizedCode text ∨ HasOversizedCode rest
  | [], h => .inr (hasOversizedCode_of_cons (by decide) h)
  | c :: text, h => by
    rw [escapeBody_cons] at h
    split at h
    · next hc =>
      obtain ⟨hslash, hletter⟩ := ne_of_guarded hc
      have hrest := hasOversizedCode_of_pair hletter h
      exact (hasOversizedCode_of_escapeBody hrest).imp_left (.plain hslash)
    · by_cases hslash : c = '\\'
      · subst hslash
        match text with
        | [] => exact .inr (hasOversizedCode_of_pair (by decide) h)
        | d :: text =>
          rw [List.cons_append, escapeBody_cons] at h
          split at h
          · next hd =>
            have hrest := hasOversizedCode_of_pair (by decide) h
            have hrest := hasOversizedCode_of_cons (ne_of_guarded hd).1 hrest
            exact (hasOversizedCode_of_escapeBody hrest).imp_left .pair
          · cases h with
            | here hstart => exact .inl (.here (startsOversized_of_escapeBody hstart))
            | pair hrest => exact (hasOversizedCode_of_escapeBody hrest).imp_left .pair
            | plain hslash => exact absurd rfl hslash
      · have hrest := hasOversizedCode_of_cons hslash h
        exact (hasOversizedCode_of_escapeBody hrest).imp_left (.plain hslash)

namespace CodesFrom

variable {texts : Set (List Char)} {s t : List Char}

theorem nil : CodesFrom texts [] := fun _ h => .inr h

theorem append (hs : CodesFrom texts s) (ht : CodesFrom texts t) : CodesFrom texts (s ++ t) := by
  intro rest h
  rw [List.append_assoc] at h
  obtain hcode | h := hs _ h
  · exact .inl hcode
  · exact ht rest h

theorem cons {c : Char} (hc : c ≠ '\\') (ht : CodesFrom texts t) : CodesFrom texts (c :: t) :=
  fun rest h => ht rest (hasOversizedCode_of_cons hc h)

theorem pair {c : Char} (hc : c ≠ 'U') (ht : CodesFrom texts t) :
    CodesFrom texts ('\\' :: c :: t) :=
  fun rest h => ht rest (hasOversizedCode_of_pair hc h)

theorem of_not_mem (h : '\\' ∉ s) : CodesFrom texts s := by
  induction s with
  | nil => exact nil
  | cons c s ih =>
    rw [List.mem_cons, not_or] at h
    exact cons (Ne.symm h.1) (ih h.2)

/-- A literal has no code: the letter of a code is not escaped. -/
theorem literal (cs : List Char) : CodesFrom texts (escapeLiteral cs) := by
  have hspecial : 'U' ∉ specialChars := by decide
  induction cs with
  | nil => exact nil
  | cons c cs ih =>
    rw [escapeLiteral, List.flatMap_cons]
    split
    · next hc =>
      refine pair ?_ ih
      rintro rfl
      exact hspecial (List.contains_iff_mem.1 hc)
    · next hc =>
      refine cons ?_ ih
      rintro rfl
      exact hc (by decide)

/-- A sub-pattern has its own codes. -/
theorem body {text : List Char} (h : text ∈ texts) :
    CodesFrom texts (escapeBody text ++ [')']) := by
  intro rest hcode
  rw [List.append_assoc] at hcode
  exact (hasOversizedCode_of_escapeBody hcode).imp_left fun htext => ⟨text, h, htext⟩

/-- A group has the codes of what is in it. -/
theorem plainGroup {cs : List Char} (h : CodesFrom texts (cs ++ [')'])) :
    CodesFrom texts (plainGroup cs) := by
  rw [plainGroup_eq]
  exact append (of_not_mem (by decide)) h

theorem keptGroup {cs : List Char} (h : CodesFrom texts (cs ++ [')'])) :
    CodesFrom texts (keptGroup cs) := by
  rw [keptGroup_eq]
  exact cons (by decide) h

/-- So does a group around what has codes by itself. -/
theorem closed (hs : CodesFrom texts s) : CodesFrom texts (s ++ [')']) :=
  hs.append (of_not_mem (by decide))

/-- Where nothing follows, the codes are those of the given texts. -/
theorem within (hs : CodesFrom texts s) (h : HasOversizedCode s) :
    ∃ t ∈ texts, HasOversizedCode t := by
  rw [← List.append_nil s] at h
  exact (hs [] h).resolve_right nofun

end CodesFrom

/-! ## The expression of a pattern -/

section Expression

variable {texts : Set (List Char)} {c : Capture}

/-- What a capture may read has the codes of its sub-pattern. -/
theorem codesFrom_segmentExpression (hc : ∀ text, c.body = .custom text → text ∈ texts) :
    CodesFrom texts c.segmentExpression := by
  refine .plainGroup ?_
  unfold Capture.expression
  split
  · exact .closed (.append (.append (.of_not_mem (by decide)) (.literal _))
      (.of_not_mem (by decide)))
  · exact .closed (.of_not_mem (by decide))
  · next text hbody => exact .body (hc text hbody)

theorem codesFrom_valuesExpression (hc : ∀ text, c.body = .custom text → text ∈ texts) :
    CodesFrom texts c.valuesExpression := by
  have hsegment := codesFrom_segmentExpression hc
  unfold Capture.valuesExpression
  split
  · have hround : CodesFrom texts (plainGroup (escapeLiteral c.leadText ++ c.segmentExpression)) :=
      .plainGroup (.closed (.append (.literal _) hsegment))
    exact .append (.append hsegment hround) (.of_not_mem (by decide))
  · exact hsegment

theorem codesFrom_token {t : Token}
    (ht : ∀ c, t = .capture c → ∀ text, c.body = .custom text → text ∈ texts) :
    CodesFrom texts t.expression := by
  cases t with
  | literal text => exact .literal text
  | capture c =>
    have hkept : CodesFrom texts (keptGroup c.valuesExpression) :=
      .keptGroup (.closed (codesFrom_valuesExpression (ht c rfl)))
    have hmark : CodesFrom texts ['?'] := .of_not_mem (by decide)
    unfold Token.expression
    dsimp only
    split
    · split
      · exact .append (.append (.literal _) hkept) hmark
      · exact .append (.plainGroup (.closed (.append (.literal _) hkept))) hmark
    · exact .append (.literal _) hkept

theorem codesFrom_tokens {ts : List Token}
    (hts : ∀ c, .capture c ∈ ts → ∀ text, c.body = .custom text → text ∈ texts) :
    CodesFrom texts (ts.flatMap Token.expression) := by
  induction ts with
  | nil => exact .nil
  | cons t ts ih =>
    rw [List.flatMap_cons]
    refine .append (codesFrom_token fun c hc => hts c (hc ▸ List.mem_cons_self)) ?_
    exact ih fun c hc => hts c (List.mem_cons_of_mem t hc)

theorem codesFrom_endText (o : Options) (slash : Bool) : CodesFrom texts (endText o slash) := by
  have hfinish : CodesFrom texts "\\Z".toList := .pair (by decide) .nil
  have hslash : CodesFrom texts ("(?:/(?=".toList ++ ('\\' :: 'Z' :: "))?".toList)) :=
    .append (.of_not_mem (by decide)) (.pair (by decide) (.of_not_mem (by decide)))
  have hedge : CodesFrom texts ("(?=/|".toList ++ ['\\', 'Z', ')']) :=
    .append (.of_not_mem (by decide)) (.pair (by decide) (.of_not_mem (by decide)))
  unfold endText
  refine .append ?_ ?_
  · split
    · exact .nil
    · exact hslash
  · split
    · exact hfinish
    · split
      · exact .nil
      · exact hedge

/-- The steps of tokens, with some expression for every capture: what the captures may read does
not matter to the text of the expression. -/
def Token.bareStep : Token → Step
  | literal text => .literal text
  | capture c => .capture c .empty

theorem map_token_bareStep (ts : List Token) : (ts.map Token.bareStep).map Step.token = ts := by
  rw [List.map_map]
  have hid : Step.token ∘ Token.bareStep = id := by
    funext t
    cases t <;> rfl
  rw [hid, List.map_id]

/-- The codes of an expression are those of the sub-patterns. -/
theorem codesFrom_expression {ts : List Token} (hts : ∀ t ∈ ts, t.WellFormed)
    (htexts : ∀ c, .capture c ∈ ts → ∀ text, c.body = .custom text → text ∈ texts)
    (o : Options) : CodesFrom texts (expression o ts) := by
  have hliteral : ∀ s ∈ ts.map Token.bareStep, s ≠ .literal [] := by
    intro s hs
    obtain ⟨t, ht, rfl⟩ := List.mem_map.1 hs
    cases t with
    | literal text =>
      rintro ⟨⟩
      exact hts _ ht rfl
    | capture c => nofun
  -- A slash that is dropped at the end is part of a literal, so the captures stay as they are.
  have hmatched : ∀ s ∈ matchedSteps o (ts.map Token.bareStep), ∀ c, s.token = .capture c →
      ∀ text, c.body = .custom text → text ∈ texts := by
    refine forall_matchedSteps o (by rintro t c ⟨⟩) fun s hs c hc => ?_
    obtain ⟨t, ht, rfl⟩ := List.mem_map.1 hs
    cases t with
    | literal text => cases hc
    | capture c =>
      cases hc
      exact htexts _ ht
  rw [← map_token_bareStep ts, expression_eq o hliteral]
  refine .cons (by decide) (.append (codesFrom_tokens ?_) (codesFrom_endText o _))
  intro c hc
  obtain ⟨s, hs, hsc⟩ := List.mem_map.1 hc
  exact hmatched s hs c hsc

end Expression

/-! ## Faults of a pattern -/

/-- The faults of a pattern that is no pattern. -/
def IsPatternFault (pattern : String) (f : Fault) : Prop :=
  (∃ reason, f = .invalidPattern pattern reason) ∨ f = .invalidExpression pattern

theorem IsPatternFault.isConfiguration {pattern : String} {f : Fault}
    (h : IsPatternFault pattern f) : f.isConfiguration = true := by
  obtain ⟨reason, rfl⟩ | rfl := h
  · rfl
  · rfl

/-- The faults of a number that is too large or too long. -/
def IsNumberFault (f : Fault) : Prop := f = .outOfRange ∨ f = .wrongValue

/-- The text of an expression is rejected as a pattern, or for an oversized number in it. -/
theorem parseExpression_eq_error [CharacterNames] {pattern : String} {cs : List Char} {f : Fault}
    (h : parseExpression pattern cs = .error f) :
    f = .invalidExpression pattern ∨
      (IsNumberFault f ∧ (HasOversizedCount cs ∨ HasOversizedCode cs)) := by
  obtain ⟨e, hparse, rfl⟩ := mapError_eq_error.1 h
  by_cases he : e.IsOversized
  · refine .inr ⟨?_, Regex.hasOversized_of_parse he hparse⟩
    obtain rfl | rfl | rfl := he
    · exact .inl rfl
    · exact .inr rfl
    · exact .inl rfl
  · refine .inl ?_
    unfold expressionFault
    split
    · exact absurd (.inr (.inr rfl)) he
    · exact absurd (.inl rfl) he
    · exact absurd (.inr (.inl rfl)) he
    · rfl

/-- Steps fail for the expression of a capture. -/
theorem toSteps_eq_error [CharacterNames] {pattern : String} {ts : List Token} {f : Fault}
    (h : toSteps pattern ts = .error f) :
    ∃ c ∈ captures ts, parseExpression pattern c.segmentExpression = .error f := by
  induction ts with
  | nil => cases h
  | cons t ts ih =>
    have hrest : (∃ c ∈ captures ts, parseExpression pattern c.segmentExpression = .error f) →
        ∃ c ∈ captures (t :: ts), parseExpression pattern c.segmentExpression = .error f := by
      rintro ⟨c, hc, hfault⟩
      exact ⟨c, List.Sublist.mem hc ((List.sublist_cons_self t ts).filterMap _), hfault⟩
    obtain hstep | ⟨s, -, h⟩ := bind_eq_error.1 h
    · cases t with
      | literal text => cases hstep
      | capture c => exact ⟨c, List.mem_cons_self, map_eq_error.1 hstep⟩
    · obtain hsteps | ⟨ss, -, h⟩ := bind_eq_error.1 h
      · exact hrest (ih hsteps)
      · cases h

/-- A text is refused as no pattern, unless one of its sub-patterns has an oversized number. -/
theorem compile_eq_error [CharacterNames] {pattern : String} {o : Options} {f : Fault}
    (h : compile pattern o = .error f) :
    IsPatternFault pattern f ∨ (IsNumberFault f ∧ HasOversizedBody pattern) := by
  obtain hparse | ⟨ts, hparse, h⟩ := bind_eq_error.1 h
  · obtain ⟨reason, -, rfl⟩ := mapError_eq_error.1 hparse
    exact .inl (.inl ⟨reason, rfl⟩)
  · have hparse := mapError_eq_ok.1 hparse
    -- Each of the expressions that are read has numbers of sub-patterns only.
    have hbodies : ∀ c ∈ captures ts, ∀ text, c.body = .custom text → text ∈ bodies ts :=
      fun c hc text hbody => ⟨c, hc, hbody⟩
    have hfault : ∀ {cs}, CountsWithin (bodies ts) cs → CodesFrom (bodies ts) cs →
        parseExpression pattern cs = .error f →
        IsPatternFault pattern f ∨ (IsNumberFault f ∧ HasOversizedBody pattern) := by
      intro cs hcounts hcodes hread
      obtain rfl | ⟨hnumber, ⟨u, hu, hinfix⟩ | hcode⟩ := parseExpression_eq_error hread
      · exact .inl (.inr rfl)
      · obtain ⟨text, hbody, htext⟩ := hcounts u hu hinfix
        exact .inr ⟨hnumber, ts, hparse, text, hbody, .inl ⟨u, hu, htext⟩⟩
      · obtain ⟨text, hbody, htext⟩ := hcodes.within hcode
        exact .inr ⟨hnumber, ts, hparse, text, hbody, .inr htext⟩
    obtain hprogram | ⟨program, -, h⟩ := bind_eq_error.1 h
    · refine hfault (countsWithin_expression hbodies o) (codesFrom_expression ?_ ?_ o) hprogram
      · exact parse_wellFormed hparse
      · exact fun c hc => hbodies c (mem_captures.2 hc)
    · obtain hsteps | ⟨steps, -, h⟩ := bind_eq_error.1 h
      · obtain ⟨c, hc, hsegment⟩ := toSteps_eq_error hsteps
        exact hfault (countsWithin_segmentExpression (hbodies c hc))
          (codesFrom_segmentExpression (hbodies c hc)) hsegment
      · cases h

end SiteRouter.Pattern
