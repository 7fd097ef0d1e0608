import SiteRouter.Proofs.Pattern.Plain
import SiteRouter.Proofs.Pattern.Written
import SiteRouter.Proofs.Text.Percent

/-!
# What segments write

A parameter writes the texts of its value as parts, each escaped (`Compiled.Writes.parts`), so the
path that segments write is shared out among them in a known way (`writeSteps_shares`).
-/

namespace SiteRouter

open Text

/-! ## The texts of a value -/

/-- The texts of a value: none for nothing, one for each element of a sequence, and one for any
other value. -/
def Value.texts (v : Value) : List (List Char) :=
  if v.isNull then []
  else match v.sequence? with
    | some items => items.map fun i => i.text.toList
    | none => [v.text.toList]

theorem Value.texts_of_isNull {v : Value} (h : v.isNull = true) : v.texts = [] := by
  rw [texts, if_pos h]

theorem Value.texts_of_sequence {v : Value} (h : v.isNull = false) {items : List Value}
    (hitems : v.sequence? = some items) : v.texts = items.map fun i => i.text.toList := by
  rw [texts, h, if_neg Bool.false_ne_true, hitems]

theorem Value.texts_of_not_sequence {v : Value} (h : v.isNull = false)
    (hitems : v.sequence? = none) : v.texts = [v.text.toList] := by
  rw [texts, h, if_neg Bool.false_ne_true, hitems]

/-- Whether there is a value, and it is no empty sequence. -/
def Value.isGiven (v : Value) : Bool := !v.isNull && !v.sequence?.any List.isEmpty

theorem Value.isGiven_iff (v : Value) :
    v.isGiven = true ↔ v.isNull = false ∧ v.sequence? ≠ some [] := by
  rw [isGiven, Bool.and_eq_true, Bool.not_eq_true', Bool.not_eq_true']
  cases v.sequence? with
  | none => simp
  | some items => cases items <;> simp

/-- A value that is given has texts, and its text in a query is these with slashes between them. -/
theorem Value.texts_of_isGiven {v : Value} (h : v.isGiven = true) :
    ∃ t ts, v.texts = t :: ts ∧ (Query.valueText v).toList = ['/'].intercalate (t :: ts) := by
  obtain ⟨hnull, hne⟩ := v.isGiven_iff.1 h
  unfold Query.valueText
  cases hitems : v.sequence? with
  | none =>
    exact ⟨_, [], texts_of_not_sequence hnull hitems, List.intercalate_singleton.symm⟩
  | some items =>
    cases items with
    | nil => exact absurd hitems hne
    | cons i items =>
      refine ⟨_, _, texts_of_sequence hnull hitems, ?_⟩
      rw [String.toList_intercalate, List.map_map, List.map_cons]
      rfl

/-- A value that is not given has no texts. -/
theorem Value.texts_of_not_isGiven {v : Value} (h : v.isGiven = false) : v.texts = [] := by
  cases hnull : v.isNull with
  | true => exact texts_of_isNull hnull
  | false =>
    have hempty : v.sequence? = some [] := by
      by_contra hne
      rw [v.isGiven_iff.2 ⟨hnull, hne⟩] at h
      cases h
    exact texts_of_sequence hnull hempty

namespace Pattern

/-! ## What a parameter writes -/

/-- A text as a part of a path. -/
def encodePart (t : List Char) : List Char := Percent.encodeChars componentSafe t

/-- A text with characters is a part when it is escaped. -/
theorem isPart_encodePart {t : List Char} (h : t ≠ []) : IsPart (encodePart t) :=
  ⟨Percent.encodeChars_ne_nil _ h,
    Percent.not_mem_encodeChars (by decide) (by decide) (by decide) t⟩

/-- What a parameter writes are the texts of its value as parts, as many as its modifier allows. -/
theorem Compiled.Writes.parts {p : Compiled} {name : List Char} {m : Modifier} {v : Value}
    {text : List Char}
    (h : p.Writes (Segment.capture name none m) (Segment.capture name none m).defaultExpr v text) :
    (∀ u ∈ v.texts.map encodePart, IsPart u) ∧ m.Allows (v.texts.map encodePart).length ∧
      text = slashed (v.texts.map encodePart) := by
  -- Each text was checked before it was written.
  have hpart : ∀ u, (Segment.capture name none m).defaultExpr.matchesAll p.ignoreCase u = true →
      IsPart u := fun u hu =>
    (spells_parameter p.ignoreCase name m u).1 ((matchesAll_default _ u).1 hu)
  cases h with
  | absent hnull hoptional =>
    rw [Value.texts_of_isNull hnull]
    exact ⟨nofun, m.allows_zero.2 hoptional, rfl⟩
  | nothing hnull hoptional hnamed hempty => cases hnamed
  | empty hnull hitems hrepeated hoptional =>
    rw [Value.texts_of_sequence hnull hitems]
    exact ⟨nofun, m.allows_zero.2 hoptional, rfl⟩
  | @elements item items hnull hitems hrepeated hmatches =>
    rw [Value.texts_of_sequence hnull hitems]
    refine ⟨fun u hu => ?_, ?_, ?_⟩
    · rw [List.map_map] at hu
      obtain ⟨i, hi, rfl⟩ := List.mem_map.1 hu
      exact hpart _ (hmatches i hi)
    · exact (m.allows_succ _).2 fun hnot => absurd (hrepeated.symm.trans hnot) nofun
    · rw [List.map_map, slashed, List.flatMap_map, List.flatMap_cons]
      rfl
  | single hnull hitems hmatches =>
    rw [Value.texts_of_not_sequence hnull hitems]
    refine ⟨List.forall_mem_singleton.2 (hpart _ hmatches), (m.allows_succ 0).2 fun _ => rfl, ?_⟩
    exact congrArg ('/' :: ·) (List.append_nil _).symm

/-- A parameter without a sub-pattern writes a text with characters, whatever its modifier. -/
theorem Compiled.writeCapture_text (p : Compiled) (name : List Char) (m : Modifier) {s : String}
    (h : s.toList ≠ []) :
    p.writeCapture (Segment.capture name none m) (Segment.capture name none m).defaultExpr (.str s)
      = .ok ('/' :: encodePart s.toList) := by
  have hspells := (spells_parameter p.ignoreCase name m _).2 (isPart_encodePart h)
  have hmatches := (matchesAll_default _ _).2 hspells
  exact writeCapture_eq_ok.2 (.single rfl rfl hmatches (Value.isWritable_str s))

/-- A parameter without a sub-pattern and a modifier writes a value that is no sequence and has a
text with characters. -/
theorem Compiled.exists_writeCapture_parameter (p : Compiled) (name : List Char) {v : Value} :
    (∃ text, p.writeCapture (Segment.capture name none .once)
        (Segment.capture name none .once).defaultExpr v = .ok text) ↔
      v.IsSingle ∧ v.HasText := by
  have hfits : (Segment.capture name none .once).defaultExpr.matchesAll p.ignoreCase
      (encodeValue (Segment.capture name none .once) v) = true ↔ v.text ≠ "" := by
    rw [matchesAll_default, spells_parameter]
    constructor
    · rintro ⟨hne, -⟩ hempty
      refine hne ?_
      rw [encodeValue, hempty]
      rfl
    · exact fun hne => isPart_encodePart (mt String.toList_eq_nil_iff.1 hne)
  rw [exists_writeCapture_once rfl rfl, hfits, Value.hasText_iff]

/-- The value of a parameter. -/
def paramOf (params : Mapping) (name : List Char) : Value :=
  params.getD (.str (String.ofList name))

/-- The parts that a segment writes. -/
def Segment.parts (params : Mapping) : Segment → List (List Char)
  | literal t => [t]
  | parameter name _ _ => (paramOf params name).texts.map encodePart

/-- The group of a parameter in the path that is written. -/
def Segment.group? (params : Mapping) : Segment → Option (Option (List Char))
  | literal _ => none
  | parameter name _ _ => some (joined? ((paramOf params name).texts.map encodePart))

/-- A text joined to the literal after it is written as if it stood alone. -/
theorem Compiled.writeSteps_prependLiteral {p : Compiled} {params : Mapping} (t : List Char)
    (ts : List Token) {w : List Char} :
    p.writeSteps params ((prependLiteral t ts).map Token.defaultStep) = .ok w ↔
      ∃ w', p.writeSteps params (ts.map Token.defaultStep) = .ok w' ∧ w = t ++ w' := by
  match ts with
  | [] => exact writeSteps_literal_eq_ok
  | .capture c :: ts => exact writeSteps_literal_eq_ok
  | .literal u :: ts =>
    show p.writeSteps params (.literal (t ++ u) :: ts.map Token.defaultStep) = .ok w ↔
      ∃ w', p.writeSteps params (.literal u :: ts.map Token.defaultStep) = .ok w' ∧ w = t ++ w'
    simp only [writeSteps_literal_eq_ok]
    constructor
    · rintro ⟨w', hw', rfl⟩
      exact ⟨u ++ w', ⟨w', hw', rfl⟩, List.append_assoc t u w'⟩
    · rintro ⟨_, ⟨w', hw', rfl⟩, rfl⟩
      exact ⟨w', hw', (List.append_assoc t u w').symm⟩

/-- A written path is parts, which the segments share among them. -/
theorem Compiled.writeSteps_shares {p : Compiled} {params : Mapping} {ss : List Segment}
    (hss : ∀ s ∈ ss, s.WellFormed ∧ s.body? = none) {w : List Char}
    (h : p.writeSteps params ((Segment.tokens ss).map Token.defaultStep) = .ok w) :
    w = slashed (ss.flatMap (Segment.parts params)) ∧
      (∀ u ∈ ss.flatMap (Segment.parts params), IsPart u) ∧
      Shares p.ignoreCase ss (ss.flatMap (Segment.parts params))
        (ss.filterMap (Segment.group? params)) := by
  -- The parts of the first segment come before those of the others, for which the induction holds.
  induction ss generalizing w with
  | nil =>
    cases h
    exact ⟨rfl, nofun, .nil⟩
  | cons s ss ih =>
    rw [List.forall_mem_cons] at hss
    rw [List.flatMap_cons, slashed_append, List.forall_mem_append]
    cases s with
    | literal t =>
      obtain ⟨w', hw', rfl⟩ := (writeSteps_prependLiteral ('/' :: t) _).1 h
      obtain ⟨rfl, hparts, hshares⟩ := ih hss.2 hw'
      have ht : IsPart t := SameText.isPart hss.1.1 (SameText.refl p.ignoreCase t)
      refine ⟨?_, ⟨List.forall_mem_singleton.2 ht, hparts⟩, ?_⟩
      · rw [Segment.parts, slashed_cons, slashed_nil, List.append_nil]
      · exact .literal (SameText.refl p.ignoreCase t) hshares
    | parameter name body m =>
      obtain rfl : body = none := hss.1.2
      obtain ⟨u, w', hu, hw', rfl⟩ := writeSteps_cons_eq_ok.1 h
      obtain ⟨hparts, hallows, rfl⟩ := Writes.parts (writeCapture_eq_ok.1 hu)
      obtain ⟨rfl, hparts', hshares⟩ := ih hss.2 hw'
      exact ⟨rfl, ⟨hparts, hparts'⟩, .parameter hallows hshares⟩

end Pattern

end SiteRouter
