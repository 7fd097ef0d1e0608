import SiteRouter.Proofs.Pattern.Parts

/-!
# Written segments come back as tokens

`parse_textAll` names the tokens of written segments by the recursion that reads them. `ReadAs` says
without it what they are: a row of texts, as long as it goes, is one literal, and each parameter is
the capture that `Segment.Describes` spells out field by field. That the recursion gives such tokens
is one lemma for a text, which goes on with the row behind it or starts one, and one for a parameter
(`readAs_tokens`).
-/

namespace SiteRouter.Pattern

namespace Segment

/-- What a parameter may read: the characters of a segment, or its sub-pattern with a backslash
before the characters that could change what a group means. -/
def bodyExpression : Option (List Char) → List Char
  | none => "[^/]+?".toList
  | some body => body.flatMap fun x => if x ∈ "=!:$/".toList then ['\\', x] else [x]

/-- The capture is that of a parameter with the name, the sub-pattern and the modifier. -/
structure Describes (name : List Char) (body : Option (List Char)) (m : Modifier) (c : Capture) :
    Prop where
  /-- It is bound under the name. -/
  key : c.key = .named (String.ofList name)
  /-- A slash stands before its first value. -/
  leadText : c.leadText = ['/']
  /-- A slash stands between two values. -/
  delimiter : c.delimiter = '/'
  /-- It has its segment for itself. -/
  shared : c.shared = false
  /-- It is no star. -/
  star : c.isStar = false
  /-- It may have no value where its sign is a question mark or a star. -/
  optional : c.modifier.isOptional = true ↔ m.sign = some '?' ∨ m.sign = some '*'
  /-- It may have several values where its sign is a plus or a star. -/
  repeated : c.modifier.isRepeated = true ↔ m.sign = some '+' ∨ m.sign = some '*'
  /-- It may read what is written for it, or the characters of a segment. -/
  expression : c.expression = bodyExpression body

end Segment

/-- The segments are read as the tokens: neighbouring texts as one literal, a parameter as its
capture. -/
inductive ReadAs : List Segment → List Token → Prop
  /-- No segment is left. -/
  | nil : ReadAs [] []
  /-- A row of texts, which no other text follows. -/
  | literals {row : List (List Char)} {ss : List Segment} {ts : List Token} :
    row ≠ [] → (∀ t, ss.head? ≠ some (.literal t)) → ReadAs ss ts →
    ReadAs (row.map .literal ++ ss) (.literal (slashed row) :: ts)
  /-- A parameter. -/
  | parameter {name : List Char} {body : Option (List Char)} {m : Modifier} {c : Capture}
    {ss : List Segment} {ts : List Token} :
    Segment.Describes name body m c → ReadAs ss ts →
    ReadAs (.parameter name body m :: ss) (.capture c :: ts)

/-- Without parentheses only the other characters of a sub-pattern are guarded. -/
theorem escapeBody_eq_bodyExpression {body : List Char}
    (h : ∀ x ∈ body, Segment.isPlainBody x = true) :
    escapeBody body = Segment.bodyExpression (some body) := by
  have hguarded : guardedChars = "=!:$/".toList ++ ['(', ')'] := rfl
  have hparentheses : ∀ x ∈ ['(', ')'], Segment.isPlainBody x = false :=
    List.forall_mem_cons.2 ⟨rfl, List.forall_mem_singleton.2 rfl⟩
  refine List.flatMap_congr fun x hx => if_congr ?_ rfl rfl
  rw [List.contains_iff_mem, hguarded, List.mem_append, or_iff_left]
  intro hmem
  cases (h x hx).symm.trans (hparentheses x hmem)

/-- The capture that a parameter is read as is the one that it describes. -/
theorem describes_capture {name : List Char} {body : Option (List Char)} {m : Modifier}
    (h : (Segment.parameter name body m).WellFormed) :
    Segment.Describes name body m (Segment.capture name body m) := by
  refine ⟨rfl, rfl, rfl, rfl, ?_, ?_, ?_, ?_⟩
  · cases body <;> rfl
  · show m.isOptional = true ↔ _
    cases m <;> decide
  · show m.isRepeated = true ↔ _
    cases m <;> decide
  · cases body with
    | none => rfl
    | some body => exact escapeBody_eq_bodyExpression (h.2 body rfl).2

/-- A text before segments goes on in the row of texts that they start with, or is a row alone. -/
theorem ReadAs.literal {ss : List Segment} {ts : List Token} (h : ReadAs ss ts) (t : List Char) :
    ReadAs (.literal t :: ss) (prependLiteral ('/' :: t) ts) := by
  have hrow : slashed [t] = '/' :: t := congrArg ('/' :: ·) (List.append_nil t)
  cases h with
  | nil =>
    have hread : ReadAs ([t].map .literal ++ []) [.literal (slashed [t])] :=
      .literals (List.cons_ne_nil t []) nofun .nil
    rwa [hrow] at hread
  | @literals row ss ts hne hlast hss =>
    have hread : ReadAs ((t :: row).map .literal ++ ss) (.literal (slashed (t :: row)) :: ts) :=
      .literals (List.cons_ne_nil t row) hlast hss
    exact hread
  | @parameter name body m c ss ts hc hss =>
    have hread : ReadAs ([t].map .literal ++ .parameter name body m :: ss)
        (.literal (slashed [t]) :: .capture c :: ts) :=
      .literals (List.cons_ne_nil t []) nofun (.parameter hc hss)
    rwa [hrow] at hread

/-- Segments are read as their tokens. -/
theorem readAs_tokens {ss : List Segment} (h : ∀ s ∈ ss, s.WellFormed) :
    ReadAs ss (Segment.tokens ss) := by
  induction ss with
  | nil => exact .nil
  | cons s ss ih =>
    rw [List.forall_mem_cons] at h
    cases s with
    | literal t => exact (ih h.2).literal t
    | parameter name body m => exact .parameter (describes_capture h.1) (ih h.2)

/-- Segments that are written one after the other, with different names, are read as what they
are. -/
theorem parse_textAll_readAs {ss : List Segment} (h : ∀ s ∈ ss, s.WellFormed)
    (hnames : (ss.filterMap Segment.name?).Nodup) :
    ∃ ts, parse (Segment.textAll ss) = .ok ts ∧ ReadAs ss ts :=
  ⟨Segment.tokens ss, parse_textAll h hnames, readAs_tokens h⟩

/-- A name, a sub-pattern and a sign stand side by side, and points and signs in a text mean
nothing. -/
theorem parse_textAll_readAs_docs :
    let ss : List Segment := [.literal "docs".toList, .literal "v1.0+?".toList,
      .parameter "id".toList (some "[a-z:/$]!=".toList) .repeated,
      .parameter "page".toList none .optionalRepeated, .parameter "é".toList none .optional,
      .literal "end".toList]
    (∀ s ∈ ss, s.WellFormed) ∧ (ss.filterMap Segment.name?).Nodup ∧
      ∃ ts, parse "/docs/v1.0+?/:id([a-z:/$]!=)+/:page*/:é?/end".toList = .ok ts ∧ ReadAs ss ts := by
  intro ss
  have h : ∀ s ∈ ss, s.WellFormed := by decide
  have hnames : (ss.filterMap Segment.name?).Nodup := by decide
  exact ⟨h, hnames, parse_textAll_readAs h hnames⟩

end SiteRouter.Pattern
