import SiteRouter.Proofs.Pattern.Values
import SiteRouter.Text.BasicLatin

/-!
# Parameters with words to choose from

The sub-pattern of a parameter may be words with bars between them. Their text denotes alternatives
(`Slot.closed`), and the group around it holds them together, so the parameter reads one of the
words and nothing else (`Slot.spells_iff`), whichever word stands first and whatever the words have
in common. In a row of segments each takes one part of the path, so that a path is matched if every
segment accepts its part (`compile_words`). A value that is written is checked for itself: a word
needs no escape, and a text with an escape in it is no word, so a parameter takes the words and what
differs from one in the case of letters only, if case is ignored.
-/

namespace SiteRouter.Pattern

open Regex (Closed sequence alternatives)
open Text (isWord foldAscii)

variable {ignoreCase : Bool}

/-! ## Characters of words -/

/-- Whether the character may stand in a word: ASCII letters and digits, `_` and `-`. -/
def isWordChar (c : Char) : Bool := c.isAlphanum || c == '_' || c == '-'

theorem isWordChar_ascii {c : Char} (h : isWordChar c = true) : c.toNat < 0x80 := by
  have hle : ∀ last : Char, c.val ≤ last.val → last.toNat < 0x80 → c.toNat < 0x80 :=
    fun last hc hlast => Nat.lt_of_le_of_lt hc hlast
  unfold isWordChar Char.isAlphanum Char.isAlpha Char.isUpper Char.isLower Char.isDigit at h
  simp only [Bool.or_eq_true, Bool.and_eq_true, decide_eq_true_eq, beq_iff_eq] at h
  rcases h with (((⟨-, h⟩ | ⟨-, h⟩) | ⟨-, h⟩) | rfl) | rfl
  · exact hle 'Z' h (by decide)
  · exact hle 'z' h (by decide)
  · exact hle '9' h (by decide)
  · decide
  · decide

/-- What holds of the characters of words among the ASCII characters holds of all of them. -/
theorem forall_isWordChar {P : Char → Prop}
    (h : ∀ n < 0x80, isWordChar (Char.ofNat n) = true → P (Char.ofNat n)) {c : Char}
    (hc : isWordChar c = true) : P c := by
  have hcode := h c.toNat (isWordChar_ascii hc)
  rw [Char.ofNat_toNat] at hcode
  exact hcode hc

/-- A sub-pattern without guarded characters gets no backslash. -/
theorem escapeBody_eq_self {cs : List Char} (h : ∀ c ∈ cs, guardedChars.contains c = false) :
    escapeBody cs = cs := by
  induction cs with
  | nil => rfl
  | cons c cs ih =>
    rw [List.forall_mem_cons] at h
    rw [escapeBody, List.flatMap_cons, h.1, if_neg Bool.false_ne_true]
    exact congrArg (c :: ·) (ih h.2)

/-! ## Segments -/

/-- A segment of a pattern with words for sub-patterns. -/
inductive Slot where
  /-- A text. -/
  | literal (text : List Char)
  /-- A parameter of one value, with the words to choose from, if there are any. -/
  | parameter (name : List Char) (words : Option (List (List Char)))
deriving DecidableEq, Repr

namespace Slot

/-- The segment that is written. -/
def toSegment : Slot → Segment
  | literal t => .literal t
  | parameter name words => .parameter name (words.map (['|'].intercalate ·)) .once

/-- A text is plain, a name is made of word characters, and words to choose from are not empty. -/
def WellFormed : Slot → Prop
  | literal t => (Segment.literal t).WellFormed
  | parameter name words => (name ≠ [] ∧ ∀ c ∈ name, isWord c = true) ∧
      ∀ ws, words = some ws → ws ≠ [] ∧ ∀ w ∈ ws, w ≠ [] ∧ ∀ c ∈ w, isWordChar c = true

instance (s : Slot) : Decidable s.WellFormed :=
  match s with
  | literal t => inferInstanceAs (Decidable (Segment.literal t).WellFormed)
  | parameter name none =>
    decidable_of_iff (name ≠ [] ∧ name.all isWord = true) (by simp [WellFormed])
  | parameter name (some ws) =>
    decidable_of_iff ((name ≠ [] ∧ name.all isWord = true) ∧
      ws ≠ [] ∧ ∀ w ∈ ws, w ≠ [] ∧ w.all isWordChar = true) (by simp [WellFormed])

/-- What a segment accepts for its part of a path. -/
def Accepts (ignoreCase : Bool) : Slot → List Char → Prop
  | literal t, u => SameText ignoreCase t u
  | parameter _ none, u => IsPart u
  | parameter _ (some ws), u => ∃ w ∈ ws, SameText ignoreCase w u

/-- The parts of a path that are taken by parameters. -/
def taken : List Slot → List (List Char) → List (List Char)
  | literal _ :: ss, _ :: ps => taken ss ps
  | parameter _ _ :: ss, u :: ps => u :: taken ss ps
  | _, _ => []

end Slot

/-! ## Steps -/

/-- The expression for words with bars between them. -/
def wordsExpr (text : List Char) : Regex :=
  alternatives ((text.splitOn '|').map fun w => sequence (literalExprs w))

/-- The expression for one value of a capture whose sub-pattern is words, if it has one. -/
def Capture.wordsExpr (c : Capture) : Regex :=
  match c.body with
  | .custom text => Pattern.wordsExpr text
  | _ => c.defaultExpr

/-- The step of a token whose sub-pattern is words, if it has one. -/
def Token.wordsStep : Token → Step
  | literal text => .literal text
  | capture c => .capture c c.wordsExpr

@[simp] theorem Token.token_wordsStep (t : Token) : t.wordsStep.token = t := by
  cases t <;> rfl

theorem isRegular_wordsExpr (c : Capture) : c.wordsExpr.IsRegular := by
  unfold Capture.wordsExpr
  split
  · refine Regex.isRegular_alternatives fun r hr => ?_
    obtain ⟨w, -, rfl⟩ := List.mem_map.1 hr
    exact Regex.isRegular_sequence (isRegular_literalExprs w)
  · exact Capture.IsDefault.isRegular c

namespace Slot

variable {name : List Char} {words : Option (List (List Char))} {ws : List (List Char)}

/-- A word is a text that could be a segment. -/
theorem WellFormed.word (h : (parameter name (some ws)).WellFormed) {w : List Char} (hw : w ∈ ws) :
    (Segment.literal w).WellFormed := by
  obtain ⟨hne, hchars⟩ := (h.2 ws rfl).2 w hw
  exact ⟨hne, fun c hc =>
    forall_isWordChar (P := (Segment.isPlain · = true)) (by decide) (hchars c hc)⟩

/-- The characters of words and the bars between them. -/
theorem WellFormed.mem_intercalate (h : (parameter name (some ws)).WellFormed) {c : Char}
    (hc : c ∈ ['|'].intercalate ws) : isWordChar c = true ∨ c = '|' := by
  obtain ⟨hne, hws⟩ := h.2 ws rfl
  obtain ⟨w, ws, rfl⟩ := List.exists_cons_of_ne_nil hne
  rw [List.forall_mem_cons] at hws
  rw [intercalate_singleton_cons, List.mem_append, List.mem_flatMap] at hc
  rcases hc with hc | ⟨w', hw', hc⟩
  · exact .inl (hws.1.2 c hc)
  · rcases List.mem_cons.1 hc with rfl | hc
    · exact .inr rfl
    · exact .inl ((hws.2 w' hw').2 c hc)

/-- A slot is written as a segment. -/
theorem WellFormed.toSegment {s : Slot} (h : s.WellFormed) : s.toSegment.WellFormed := by
  cases s with
  | literal t => exact h
  | parameter name words =>
    refine ⟨h.1, ?_⟩
    rintro b hb
    obtain ⟨ws, rfl, rfl⟩ := Option.map_eq_some_iff.1 hb
    constructor
    · obtain ⟨hne, hws⟩ := h.2 ws rfl
      obtain ⟨w, ws, rfl⟩ := List.exists_cons_of_ne_nil hne
      rw [intercalate_singleton_cons]
      exact List.append_ne_nil_of_left_ne_nil (hws w List.mem_cons_self).1 _
    · intro c hc
      rcases h.mem_intercalate hc with hc | rfl
      · exact forall_isWordChar (P := (Segment.isPlainBody · = true)) (by decide) hc
      · decide

/-- The expression for words is that for one of them. -/
theorem WellFormed.wordsExpr_eq (h : (parameter name (some ws)).WellFormed) :
    wordsExpr (['|'].intercalate ws) =
      alternatives (ws.map fun w => sequence (literalExprs w)) := by
  obtain ⟨hne, hws⟩ := h.2 ws rfl
  have hbar : ∀ w ∈ ws, '|' ∉ w := by
    intro w hw hmem
    exact absurd ((hws w hw).2 _ hmem) (by decide)
  rw [wordsExpr, List.splitOn_intercalate '|' hbar hne]

/-- The text of words in a group denotes their expression. -/
theorem WellFormed.closed [CharacterNames] (h : (parameter name words).WellFormed) :
    Closed (Segment.capture name (words.map (['|'].intercalate ·)) .once).segmentExpression 0
      fun _ => (Segment.capture name (words.map (['|'].intercalate ·)) .once).wordsExpr := by
  cases words with
  | none =>
    have hdefault : (Segment.capture name none .once).IsDefault :=
      ⟨nofun, by rintro x ⟨⟩; exact .inl rfl⟩
    exact hdefault.closed
  | some ws =>
    obtain ⟨hne, hws⟩ := h.2 ws rfl
    -- No character of the text is given a backslash.
    have hescape : escapeBody (['|'].intercalate ws) = ['|'].intercalate ws := by
      refine escapeBody_eq_self fun c hc => ?_
      rcases h.mem_intercalate hc with hc | rfl
      · exact forall_isWordChar (P := (guardedChars.contains · = false)) (by decide) hc
      · decide
    show Closed (plainGroup (escapeBody (['|'].intercalate ws))) 0 fun _ =>
      wordsExpr (['|'].intercalate ws)
    rw [hescape, h.wordsExpr_eq, plainGroup_eq]
    obtain ⟨w, ws, rfl⟩ := List.exists_cons_of_ne_nil hne
    have hplain : ∀ u ∈ w :: ws, ∀ c ∈ u, Regex.isSyntax c = false := fun u hu c hc =>
      forall_isWordChar (P := (Regex.isSyntax · = false)) (by decide) ((hws u hu).2 c hc)
    exact (Regex.offers_chars hplain).body.plain

/-- A parameter reads what its slot accepts. -/
theorem WellFormed.spells_iff (h : (parameter name words).WellFormed) (u : List Char) :
    (Segment.capture name (words.map (['|'].intercalate ·)) .once).wordsExpr.Spells ignoreCase u ↔
      (parameter name words).Accepts ignoreCase u := by
  cases words with
  | none => exact spells_parameter ignoreCase name .once u
  | some ws =>
    have hne : (ws.map fun w => sequence (literalExprs w)) ≠ [] :=
      List.map_eq_nil_iff.not.2 (h.2 ws rfl).1
    show (wordsExpr (['|'].intercalate ws)).Spells ignoreCase u ↔ ∃ w ∈ ws, SameText ignoreCase w u
    rw [h.wordsExpr_eq, Regex.spells_alternatives ignoreCase hne]
    simp only [List.mem_map, exists_exists_and_eq_and, Regex.spells_sequence,
      spellsAll_literalExprs]

/-- What a slot accepts is a part. -/
theorem WellFormed.isPart {s : Slot} (h : s.WellFormed) {u : List Char}
    (hu : s.Accepts ignoreCase u) : IsPart u := by
  match s, hu with
  | .literal t, hu => exact SameText.isPart h hu
  | .parameter _ none, hu => exact hu
  | .parameter _ (some ws), ⟨w, hw, hu⟩ => exact SameText.isPart (h.word hw) hu

end Slot

/-! ## Deriving is accepting -/

/-- A parameter of one value behind a slash takes a slash and the value. -/
theorem derives_once_iff {name w : List Char} {body : Option (List Char)} {segment : Regex}
    {ss : List Step} {vs : List (Option (List Char))} :
    Derives ignoreCase (.capture (Segment.capture name body .once) segment :: ss) w vs ↔
      ∃ u w' vs', w = '/' :: (u ++ w') ∧ vs = some u :: vs' ∧ segment.Spells ignoreCase u ∧
        Derives ignoreCase ss w' vs' := by
  rw [derives_capture_iff]
  simp only [Capture.takes_once_iff (c := Segment.capture name body .once) rfl]
  constructor
  · rintro ⟨_, w', _, vs', rfl, rfl, ⟨u, rfl, rfl, hu⟩, hw'⟩
    exact ⟨u, w', vs', rfl, rfl, hu, hw'⟩
  · rintro ⟨u, w', vs', rfl, rfl, hu, hw'⟩
    exact ⟨'/' :: u, w', some u, vs', rfl, rfl, ⟨u, rfl, rfl, hu⟩, hw'⟩

/-- Deriving a text from the tokens of slots is having each accept a part. -/
theorem derives_slots_iff {ss : List Slot} (h : ∀ s ∈ ss, s.WellFormed) {w : List Char}
    {vs : List (Option (List Char))} :
    Derives ignoreCase ((Segment.tokens (ss.map Slot.toSegment)).map Token.wordsStep) w vs ↔
      ∃ ps, w = slashed ps ∧ List.Forall₂ (Slot.Accepts ignoreCase) ss ps ∧
        vs = (Slot.taken ss ps).map some := by
  induction ss generalizing w vs with
  | nil =>
    constructor
    · rintro ⟨⟩
      exact ⟨[], rfl, .nil, rfl⟩
    · rintro ⟨_, rfl, ⟨⟩, rfl⟩
      exact .nil
  | cons s ss ih =>
    rw [List.forall_mem_cons] at h
    have ih := @ih h.2
    cases s with
    | literal t =>
      rw [List.map_cons, Slot.toSegment, Segment.tokens, derives_prependLiteral fun _ => rfl,
        derives_slash_literal_iff h.1]
      simp only [ih]
      constructor
      · rintro ⟨u, _, rfl, -, ht, ps, rfl, hps, rfl⟩
        exact ⟨u :: ps, rfl, .cons ht hps, rfl⟩
      · rintro ⟨_, rfl, _ | ⟨ht, hps⟩, rfl⟩
        exact ⟨_, _, rfl, SameText.isPart h.1 ht, ht, _, rfl, hps, rfl⟩
    | parameter name words =>
      show Derives ignoreCase (.capture (Segment.capture name _ .once) _ :: _) w vs ↔ _
      rw [derives_once_iff]
      simp only [ih, h.1.spells_iff]
      constructor
      · rintro ⟨u, _, _, rfl, rfl, hu, ps, rfl, hps, rfl⟩
        exact ⟨u :: ps, rfl, .cons hu hps, rfl⟩
      · rintro ⟨_, rfl, _ | ⟨hu, hps⟩, rfl⟩
        exact ⟨_, _, _, rfl, rfl, hu, _, rfl, hps, rfl⟩

/-- What slots accept are parts. -/
theorem isPart_of_accepts {ss : List Slot} (h : ∀ s ∈ ss, s.WellFormed) {ps : List (List Char)}
    (hps : List.Forall₂ (Slot.Accepts ignoreCase) ss ps) : ∀ u ∈ ps, IsPart u := by
  induction hps with
  | nil => nofun
  | cons hu _ ih =>
    rw [List.forall_mem_cons] at h
    exact List.forall_mem_cons.2 ⟨h.1.isPart hu, ih h.2⟩

/-! ## Patterns with words -/

/-- Slots that can be written, with different names. -/
structure Worded (ss : List Slot) : Prop where
  /-- The slots can be written. -/
  wellFormed : ∀ s ∈ ss, s.WellFormed
  /-- No name is used twice. -/
  names : ((ss.map Slot.toSegment).filterMap Segment.name?).Nodup

instance (ss : List Slot) : Decidable (Worded ss) :=
  decidable_of_iff ((∀ s ∈ ss, s.WellFormed) ∧
      ((ss.map Slot.toSegment).filterMap Segment.name?).Nodup)
    ⟨fun ⟨a, b⟩ => ⟨a, b⟩, fun ⟨a, b⟩ => ⟨a, b⟩⟩

/-- The pattern that slots are written as. -/
def Slot.pattern (ss : List Slot) : String := Segment.pattern (ss.map toSegment)

/-- The tokens of slots. -/
def Slot.tokens (ss : List Slot) : List Token := Segment.tokens (ss.map toSegment)

/-- The compiled form of slots. -/
def compiledWords (ss : List Slot) (o : Options) : Compiled :=
  ⟨Slot.pattern ss, o, Slot.tokens ss, (Slot.tokens ss).map Token.wordsStep,
    program o ((Slot.tokens ss).map Token.wordsStep)⟩

namespace Worded

variable {ss : List Slot}

theorem wellFormed_toSegment (h : Worded ss) : ∀ s ∈ ss.map Slot.toSegment, s.WellFormed :=
  List.forall_mem_map.2 fun s hs => (h.wellFormed s hs).toSegment

/-- Each token has a step that stands for it. -/
theorem valid [CharacterNames] (h : Worded ss) :
    ∀ t ∈ Slot.tokens ss, t.wordsStep.Valid ∧ t.wordsStep.Regular := by
  refine forall_tokens (fun t _ => ⟨⟨trivial, nofun⟩, trivial⟩)
    (fun t u _ _ => ⟨⟨trivial, nofun⟩, trivial⟩) fun name body m hm => ?_
  obtain ⟨s, hs, heq⟩ := List.mem_map.1 hm
  cases s with
  | literal t => cases heq
  | parameter name words =>
    cases heq
    refine ⟨⟨(h.wellFormed _ hs).closed, nofun⟩, isRegular_wordsExpr _, ?_⟩
    rintro x ⟨⟩
    decide

/-- A pattern with words compiles. -/
theorem compile_eq [CharacterNames] (h : Worded ss) (o : Options) :
    compile (Slot.pattern ss) o = .ok (compiledWords ss o) := by
  refine compile_map Token.token_wordsStep o ?_ fun t ht => (h.valid t ht).1
  rw [Slot.pattern, Segment.pattern, String.toList_ofList]
  exact parse_textAll h.wellFormed_toSegment h.names

theorem faithful [CharacterNames] (h : Worded ss) (o : Options) : (compiledWords ss o).Faithful :=
  faithful_map Token.token_wordsStep _ o fun t ht => (h.valid t ht).2

/-- A match that must reach the end of the path leaves nothing, or a slash that does not count. -/
theorem derives_iff (h : Worded ss) {o : Options} (hend : o.toEnd = true) {w rest : List Char}
    {vs : List (Option (List Char))} :
    (Derives (!o.sensitive) (matchedSteps o (compiledWords ss o).steps) w vs ∧
        EndsAt o (endsInSlash (compiledWords ss o).steps) rest) ↔
      (∃ ps, w = slashed ps ∧ List.Forall₂ (Slot.Accepts (!o.sensitive)) ss ps ∧
          vs = (Slot.taken ss ps).map some) ∧
        (rest = [] ∨ (o.strict = false ∧ rest = ['/'])) := by
  have hsteps : matchedSteps o (compiledWords ss o).steps =
      (Segment.tokens (ss.map Slot.toSegment)).map Token.wordsStep :=
    matchedSteps_of_not_endsInSlash o
      (endsInSlash_tokens Token.token_wordsStep h.wellFormed_toSegment)
  rw [hsteps, endsAt_toEnd hend, derives_slots_iff h.wellFormed]

/-- The groups of a match are the parts that the parameters take. -/
theorem groups?_eq_some_iff [CharacterNames] (h : Worded ss) {o : Options} (hend : o.toEnd = true)
    {path : String}
    {gs : List (Option String)} :
    (compiledWords ss o).groups? path = some gs ↔
      ∃ ps rest, path.toList = slashed ps ++ rest ∧
        (rest = [] ∨ (o.strict = false ∧ rest = ['/'])) ∧
        List.Forall₂ (Slot.Accepts (!o.sensitive)) ss ps ∧
        gs = (Slot.taken ss ps).map fun u => some (String.ofList u) := by
  constructor
  · intro hgs
    obtain ⟨w, rest, vs, hpath, hw, hrest, rfl⟩ := (h.faithful o).groups?_sound hgs
    obtain ⟨⟨ps, rfl, hps, rfl⟩, hrest⟩ := (h.derives_iff hend).1 ⟨hw, hrest⟩
    exact ⟨ps, rest, hpath, hrest, hps, List.map_map⟩
  · rintro ⟨ps, rest, hpath, hrest, hps, rfl⟩
    obtain ⟨hw, hends⟩ := (h.derives_iff hend).2 ⟨⟨ps, rfl, hps, rfl⟩, hrest⟩
    refine ((h.faithful o).groups?_eq hpath hw hends fun w' rest' vs' hpath' hw' hends' => ?_).trans
      (congrArg some List.map_map)
    -- The path settles the parts, and these what the parameters take.
    obtain ⟨⟨qs, rfl, hqs, rfl⟩, hrest'⟩ := (h.derives_iff hend).1 ⟨hw', hends'⟩
    obtain ⟨rfl, rfl⟩ := slashed_append_inj (isPart_of_accepts h.wellFormed hps)
      (isPart_of_accepts h.wellFormed hqs)
      (hrest.imp_right And.right) (hrest'.imp_right And.right) (hpath.symm.trans hpath')
    rfl

end Worded

/-! ## Values that are words -/

/-- ASCII texts are the same if they are folded the same. -/
theorem sameText_ascii {w t : List Char} (hw : ∀ c ∈ w, c.toNat < 0x80)
    (ht : ∀ c ∈ t, c.toNat < 0x80) :
    SameText ignoreCase w t ↔ w.map (foldAscii ignoreCase) = t.map (foldAscii ignoreCase) := by
  induction w generalizing t with
  | nil => cases t <;> simp [SameText]
  | cons a w ih =>
    cases t with
    | nil => simp [SameText]
    | cons x t =>
      rw [List.forall_mem_cons] at hw ht
      rw [SameText, List.forall₂_cons, Regex.fitsCode_ascii ignoreCase hw.1 ht.1, List.map_cons,
        List.map_cons, List.cons.injEq]
      exact and_congr_right fun _ => ih hw.2 ht.2

/-- A word is the same as a text in a path if it is the same as the text but for the case of ASCII
letters. -/
theorem sameText_encodePart_iff {w t : List Char} (hw : ∀ c ∈ w, isWordChar c = true) :
    SameText ignoreCase w (encodePart t) ↔
      t.map (foldAscii ignoreCase) = w.map (foldAscii ignoreCase) := by
  have hascii : ∀ c ∈ w, c.toNat < 0x80 := fun c hc => isWordChar_ascii (hw c hc)
  rw [eq_comm]
  constructor
  · intro h
    -- There is no percent sign in a word, so the text was written without escapes.
    have hplain : '%' ∉ encodePart t := by
      intro hmem
      exact absurd (hw '%' (h.mem_of_mem (by decide) hmem)) (by decide)
    have ht := Text.Percent.isPlain_of_not_mem hplain
    rw [encodePart, Text.Percent.encodeChars_of_isPlain ht] at h
    exact (sameText_ascii hascii fun c hc => (ht c hc).1).1 h
  · intro h
    -- The characters of the text are those of the word in another case.
    have ht : ∀ x ∈ t, isWordChar x = true := by
      intro x hx
      have hmem : foldAscii ignoreCase x ∈ w.map (foldAscii ignoreCase) :=
        h ▸ List.mem_map_of_mem hx
      obtain ⟨a, ha, hfold⟩ := List.mem_map.1 hmem
      rw [← Text.eq_of_foldAscii_eq (f := isWordChar) (by decide) hfold]
      exact hw a ha
    have hplain : ∀ x ∈ t, x.toNat < 0x80 ∧ Text.Percent.isPlain componentSafe x.toNat = true :=
      fun x hx => ⟨isWordChar_ascii (ht x hx), forall_isWordChar
        (P := fun c => Text.Percent.isPlain componentSafe c.toNat = true) (by decide) (ht x hx)⟩
    rw [encodePart, Text.Percent.encodeChars_of_isPlain hplain]
    exact (sameText_ascii hascii fun x hx => (hplain x hx).1).2 h

/-- Whether the parameters have a value that the slot can write: one whose text has characters, or
one whose text is a word but for the case of ASCII letters where case is ignored. -/
def Slot.Filled (ignoreCase : Bool) (params : Mapping) : Slot → Prop
  | literal _ => True
  | parameter name none => (paramOf params name).IsSingle ∧ (paramOf params name).HasText
  | parameter name (some ws) => (paramOf params name).IsSingle ∧
      ∃ t, (paramOf params name).stringify = .ok t ∧
        ∃ w ∈ ws, t.toList.map (foldAscii ignoreCase) = w.map (foldAscii ignoreCase)

/-- A slot writes what it is filled with. -/
theorem Slot.WellFormed.exists_writeCapture {name : List Char} {words : Option (List (List Char))}
    (h : (Slot.parameter name words).WellFormed) (p : Compiled) (params : Mapping) :
    (∃ text, p.writeStep params (Token.wordsStep (.capture
        (Segment.capture name (words.map (['|'].intercalate ·)) .once))) = .ok text) ↔
      (Slot.parameter name words).Filled p.ignoreCase params := by
  cases words with
  | none => exact p.exists_writeCapture_parameter name
  | some ws =>
    have hmatches : (Segment.capture name (some (['|'].intercalate ws)) .once).wordsExpr.matchesAll
        p.ignoreCase (encodePart (paramOf params name).text.toList) = true ↔
        ∃ w ∈ ws, (paramOf params name).text.toList.map (foldAscii p.ignoreCase) =
          w.map (foldAscii p.ignoreCase) := by
      rw [Regex.matchesAll_iff_spells _ (isRegular_wordsExpr _)]
      refine (h.spells_iff _).trans (exists_congr fun w => and_congr_right fun hw => ?_)
      exact sameText_encodePart_iff ((h.2 ws rfl).2 w hw).2
    have htext : (paramOf params name).isWritable = true ∧
        (Segment.capture name (some (['|'].intercalate ws)) .once).wordsExpr.matchesAll
          p.ignoreCase (encodePart (paramOf params name).text.toList) = true ↔
        ∃ t, (paramOf params name).stringify = .ok t ∧
          ∃ w ∈ ws, t.toList.map (foldAscii p.ignoreCase) = w.map (foldAscii p.ignoreCase) := by
      rw [hmatches, Value.stringify]
      cases (paramOf params name).isWritable <;> simp
    exact (Compiled.exists_writeCapture_once rfl rfl).trans (and_congr_right fun _ => htext)

namespace Worded

variable {ss : List Slot}

/-- A path can be written where each slot is filled. -/
theorem exists_toPath_iff (h : Worded ss) (o : Options) (params : Mapping) :
    (∃ path, (compiledWords ss o).toPath params = .ok path) ↔
      ∀ s ∈ ss, s.Filled (!o.sensitive) params := by
  have hwrites : (∃ w, (compiledWords ss o).writeSteps params (compiledWords ss o).steps = .ok w) ↔
      ∀ c ∈ captures (Slot.tokens ss), ∃ text,
        (compiledWords ss o).writeStep params (Token.wordsStep (.capture c)) = .ok text :=
    Compiled.exists_writeSteps_map_iff fun _ => rfl
  rw [Compiled.exists_toPath_iff, hwrites, Slot.tokens, captures_tokens, List.filterMap_map]
  simp only [List.mem_filterMap]
  constructor
  · intro hall s hs
    cases s with
    | literal t => trivial
    | parameter name words =>
      exact ((h.wellFormed _ hs).exists_writeCapture _ params).1 (hall _ ⟨_, hs, rfl⟩)
  · rintro hall c ⟨s, hs, heq⟩
    cases s with
    | literal t => cases heq
    | parameter name words =>
      cases heq
      exact ((h.wellFormed _ hs).exists_writeCapture _ params).2 (hall _ hs)

end Worded

/-- A pattern of texts, parameters and parameters with words to choose from compiles. It matches a
path exactly if the path is a part for each segment, with a slash before each and one more slash
unless slashes at the end count, such that every segment accepts its part, and the groups are the
parts of the parameters. A path can be written exactly if every parameter has one value, whose text
has characters or, if there are words to choose from, is a word but for the case of ASCII letters
where case is ignored. -/
theorem compile_words [CharacterNames] {ss : List Slot} (h : Worded ss) (sensitive strict : Bool) :
    ∃ p, compile (Slot.pattern ss) ⟨sensitive, strict, true⟩ = .ok p ∧
      (∀ (path : String) (gs : List (Option String)), p.groups? path = some gs ↔
        ∃ ps rest, path.toList = slashed ps ++ rest ∧
          (rest = [] ∨ (strict = false ∧ rest = ['/'])) ∧
          List.Forall₂ (Slot.Accepts (!sensitive)) ss ps ∧
          gs = (Slot.taken ss ps).map fun u => some (String.ofList u)) ∧
      ∀ params : Mapping, (∃ path, p.toPath params = .ok path) ↔
        ∀ s ∈ ss, s.Filled (!sensitive) params :=
  ⟨_, h.compile_eq _, fun _ _ => h.groups?_eq_some_iff rfl, h.exists_toPath_iff _⟩

/-- In `/:lang(en|en-GB)/docs/:page` the second word is chosen though the first one starts it, and a
value may differ from it in case. -/
theorem compile_words_lang :
    ∃ p, compile "/:lang(en|en-GB)/docs/:page" ⟨false, false, true⟩ = .ok p ∧
      p.groups? "/EN-gb/Docs/intro/" = some [some "EN-gb", some "intro"] ∧
      (∃ path, p.toPath [(.str "lang", .str "En-Gb"), (.str "page", .int 1)] = .ok path) ∧
      ¬∃ path, p.toPath [(.str "lang", .str "e"), (.str "page", .int 1)] = .ok path := by
  let ss : List Slot := [.parameter "lang".toList (some ["en".toList, "en-GB".toList]),
    .literal "docs".toList, .parameter "page".toList none]
  obtain ⟨p, hp, hgroups, hwrites⟩ := compile_words (show Worded ss by decide) false false
  have hascii : ∀ t : List Char, t.all (fun c => decide (c.toNat < 0x80)) = true →
      ∀ c ∈ t, c.toNat < 0x80 :=
    fun t ht c hc => of_decide_eq_true (List.all_eq_true.1 ht c hc)
  have hlang : SameText true "en-GB".toList "EN-gb".toList :=
    (sameText_ascii (hascii _ (by decide)) (hascii _ (by decide))).2 (by decide)
  have hdocs : SameText true "docs".toList "Docs".toList :=
    (sameText_ascii (hascii _ (by decide)) (hascii _ (by decide))).2 (by decide)
  have hpage : IsPart "intro".toList := ⟨by decide, by decide⟩
  have haccepts : List.Forall₂ (Slot.Accepts true) ss
      ["EN-gb".toList, "Docs".toList, "intro".toList] :=
    .cons ⟨_, .tail _ (.head _), hlang⟩ (.cons hdocs (.cons hpage .nil))
  refine ⟨p, hp, (hgroups _ _).2 ⟨_, ['/'], rfl, .inr ⟨rfl, rfl⟩, haccepts, rfl⟩, ?_, ?_⟩
  · refine (hwrites _).2 (List.forall_mem_cons.2 ⟨⟨⟨rfl, rfl⟩, _, rfl, _, .tail _ (.head _), ?_⟩,
      List.forall_mem_cons.2 ⟨trivial, List.forall_mem_singleton.2 ⟨⟨rfl, rfl⟩, "1", rfl, ?_⟩⟩⟩)
    · decide
    · decide
  · intro hpath
    obtain ⟨-, t, ⟨⟩, w, hw, hsame⟩ := (hwrites _).1 hpath _ List.mem_cons_self
    revert w
    decide

end SiteRouter.Pattern
