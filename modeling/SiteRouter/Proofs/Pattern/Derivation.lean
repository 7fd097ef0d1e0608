import Mathlib.Data.List.Forall2
import SiteRouter.Proofs.Pattern.Program
import SiteRouter.Proofs.Regex.First
import SiteRouter.Proofs.Text.Case

/-!
# What a pattern reads

`Derives` says, without any search, how the steps of a pattern share a text among them: each literal
takes its own characters, each capture a value with its lead, or nothing where it may be left out.
The places that the expressions of a step reach are those after what the step takes:
`ends_literal` and `mem_ends_capture`.
-/

namespace SiteRouter.Pattern

open Regex (Cursor Places Span sequence ends endsAll)

/-! ## Values and steps -/

/-- The texts are the same character by character, without regard to case if it is ignored. -/
def SameText (ignoreCase : Bool) (t w : List Char) : Prop :=
  List.Forall₂ (fun a x => Regex.fitsCode ignoreCase a.toNat x = true) t w

/-- The text is one value of the capture, or several with the lead between them where the capture
is repeated. -/
def Capture.ReadsValue (ignoreCase : Bool) (c : Capture) (segment : Regex) (v : List Char) : Prop :=
  ∃ u us, segment.Spells ignoreCase u ∧ (∀ u' ∈ us, segment.Spells ignoreCase u') ∧
    (c.modifier.isRepeated = false → us = []) ∧ v = u ++ us.flatMap (c.leadText ++ ·)

/-- The capture takes the text, with the given value or without one. -/
def Capture.Takes (ignoreCase : Bool) (c : Capture) (segment : Regex) (w : List Char) :
    Option (List Char) → Prop
  | some v => w = c.leadText ++ v ∧ c.ReadsValue ignoreCase segment v
  | none => c.modifier.isOptional = true ∧ w = if c.shared then c.leadText else []

/-- The steps take the text one after the other, the captures with the given values. -/
inductive Derives (ignoreCase : Bool) : List Step → List Char → List (Option (List Char)) → Prop
  /-- Nothing is left to take. -/
  | nil : Derives ignoreCase [] [] []
  /-- A literal takes its own characters. -/
  | literal {t u w : List Char} {ss : List Step} {vs : List (Option (List Char))} :
    SameText ignoreCase t u → Derives ignoreCase ss w vs →
    Derives ignoreCase (.literal t :: ss) (u ++ w) vs
  /-- A capture takes its value. -/
  | capture {c : Capture} {segment : Regex} {u w : List Char} {v : Option (List Char)}
    {ss : List Step} {vs : List (Option (List Char))} :
    c.Takes ignoreCase segment u v → Derives ignoreCase ss w vs →
    Derives ignoreCase (.capture c segment :: ss) (u ++ w) (v :: vs)

/-- Steps in two parts take a text in two parts. -/
theorem derives_append_iff {ignoreCase : Bool} {ss ss' : List Step} {w : List Char}
    {vs : List (Option (List Char))} :
    Derives ignoreCase (ss ++ ss') w vs ↔
      ∃ u u' us us', w = u ++ u' ∧ vs = us ++ us' ∧ Derives ignoreCase ss u us ∧
        Derives ignoreCase ss' u' us' := by
  constructor
  · intro h
    induction ss generalizing w vs with
    | nil => exact ⟨[], w, [], vs, rfl, rfl, .nil, h⟩
    | cons s ss ih =>
      cases h with
      | literal ht hw =>
        obtain ⟨u, u', us, us', rfl, rfl, hu, hu'⟩ := ih hw
        exact ⟨_, u', us, us', (List.append_assoc ..).symm, rfl, .literal ht hu, hu'⟩
      | capture ht hw =>
        obtain ⟨u, u', us, us', rfl, rfl, hu, hu'⟩ := ih hw
        exact ⟨_, u', _ :: us, us', (List.append_assoc ..).symm, rfl, .capture ht hu, hu'⟩
  · rintro ⟨u, u', us, us', rfl, rfl, hu, hu'⟩
    induction hu with
    | nil => exact hu'
    | literal ht _ ih =>
      rw [List.append_assoc]
      exact .literal ht ih
    | capture ht _ ih =>
      rw [List.append_assoc]
      exact .capture ht ih

/-- A literal alone takes its own characters. -/
theorem derives_literal_alone {ignoreCase : Bool} {t w : List Char}
    {vs : List (Option (List Char))} :
    Derives ignoreCase [.literal t] w vs ↔ SameText ignoreCase t w ∧ vs = [] := by
  constructor
  · rintro (_ | ⟨ht, ⟨⟩⟩)
    exact ⟨by rwa [List.append_nil], rfl⟩
  · rintro ⟨ht, rfl⟩
    have hw : Derives ignoreCase [.literal t] (w ++ []) [] := .literal ht .nil
    rwa [List.append_nil] at hw

/-- A capture of one value takes its lead and the value. -/
theorem Capture.takes_once_iff {ignoreCase : Bool} {c : Capture} (honce : c.modifier = .once)
    {segment : Regex} {w : List Char} {v : Option (List Char)} :
    c.Takes ignoreCase segment w v ↔
      ∃ u, w = c.leadText ++ u ∧ v = some u ∧ segment.Spells ignoreCase u := by
  constructor
  · intro h
    cases v with
    | none =>
      rw [Takes, honce] at h
      exact absurd h.1 nofun
    | some v =>
      obtain ⟨rfl, u, us, hu, -, hone, rfl⟩ := h
      obtain rfl := hone (by rw [honce]; rfl)
      rw [List.flatMap_nil, List.append_nil]
      exact ⟨u, rfl, rfl, hu⟩
  · rintro ⟨u, rfl, rfl, hu⟩
    exact ⟨rfl, u, [], hu, nofun, fun _ => rfl, (List.append_nil u).symm⟩

/-- What a capture may read does not depend on where it stands, and its lead has no case. -/
def Step.Regular : Step → Prop
  | .literal _ => True
  | .capture c segment => segment.IsRegular ∧ ∀ x, c.lead = some x → x.toNat < Text.firstLetter

/-! ## Texts of values -/

/-- Every text is the same as itself. -/
theorem SameText.refl (ignoreCase : Bool) (t : List Char) : SameText ignoreCase t t := by
  unfold SameText
  rw [List.forall₂_same]
  exact fun c _ => Regex.fitsCode_self ignoreCase c

theorem spellsAll_literalExprs (ignoreCase : Bool) (t w : List Char) :
    Regex.SpellsAll ignoreCase (literalExprs t) w ↔ SameText ignoreCase t w := by
  induction t generalizing w with
  | nil => simp [literalExprs, Regex.SpellsAll, SameText]
  | cons a t ih =>
    show (∃ u v, w = u ++ v ∧ (∃ x, u = [x] ∧ Regex.fitsCode ignoreCase a.toNat x = true) ∧
      Regex.SpellsAll ignoreCase (literalExprs t) v) ↔ _
    simp only [ih]
    constructor
    · rintro ⟨u, v, rfl, ⟨x, rfl, hx⟩, hv⟩
      exact .cons hx hv
    · rintro (_ | ⟨hx, hv⟩)
      exact ⟨[_], _, rfl, ⟨_, rfl, hx⟩, hv⟩

theorem isRegular_literalExprs (t : List Char) : ∀ r ∈ literalExprs t, r.IsRegular := by
  intro r hr
  obtain ⟨a, -, rfl⟩ := List.mem_map.1 hr
  trivial

/-- A text without case is read as it is. -/
theorem sameText_caseless (ignoreCase : Bool) {t : List Char}
    (h : ∀ x ∈ t, x.toNat < Text.firstLetter) (w : List Char) :
    SameText ignoreCase t w ↔ w = t := by
  constructor
  · intro hw
    induction hw with
    | nil => rfl
    | cons hx _ ih =>
      rw [List.forall_mem_cons] at h
      rw [(Regex.fitsCode_caseless_left ignoreCase h.1 _).1 hx, ih h.2]
  · rintro rfl
    exact .refl ignoreCase w

/-- A lead without case is read as it is. -/
theorem sameText_leadText (ignoreCase : Bool) {c : Capture}
    (h : ∀ x, c.lead = some x → x.toNat < Text.firstLetter) (w : List Char) :
    SameText ignoreCase c.leadText w ↔ w = c.leadText :=
  sameText_caseless ignoreCase (fun x hx => h x (Option.mem_toList.1 hx)) w

/-- A round of a repeated capture is its lead and another value. -/
theorem spells_round (ignoreCase : Bool) {c : Capture} {segment : Regex}
    (h : ∀ x, c.lead = some x → x.toNat < Text.firstLetter) (w : List Char) :
    (sequence (literalExprs c.leadText ++ [segment])).Spells ignoreCase w ↔
      ∃ u, segment.Spells ignoreCase u ∧ w = c.leadText ++ u := by
  rw [Regex.spells_sequence, Regex.spellsAll_append]
  simp only [spellsAll_literalExprs, sameText_leadText ignoreCase h, Regex.SpellsAll]
  constructor
  · rintro ⟨_, _, rfl, rfl, u, _, rfl, hu, rfl⟩
    exact ⟨u, hu, by rw [List.append_nil]⟩
  · rintro ⟨u, hu, rfl⟩
    exact ⟨_, u, rfl, rfl, u, [], by rw [List.append_nil], hu, rfl⟩

/-- Texts that are each a lead and a value are values with the lead before each. -/
theorem exists_values {L : List Char → Prop} {lead : List Char} {ws : List (List Char)}
    (h : ∀ w ∈ ws, ∃ u, L u ∧ w = lead ++ u) :
    ∃ us : List (List Char), (∀ u ∈ us, L u) ∧ ws.flatten = us.flatMap (lead ++ ·) := by
  induction ws with
  | nil => exact ⟨[], by simp, rfl⟩
  | cons w ws ih =>
    rw [List.forall_mem_cons] at h
    obtain ⟨u, hu, rfl⟩ := h.1
    obtain ⟨us, hus, hflat⟩ := ih h.2
    exact ⟨u :: us, by simpa using ⟨hu, hus⟩, by simp [hflat]⟩

/-- The expressions for the values of a capture spell its values. -/
theorem spellsAll_valueExprs (ignoreCase : Bool) {c : Capture} {segment : Regex}
    (h : ∀ x, c.lead = some x → x.toNat < Text.firstLetter) (v : List Char) :
    Regex.SpellsAll ignoreCase (c.valueExprs segment) v ↔
      c.ReadsValue ignoreCase segment v := by
  unfold Capture.valueExprs Capture.ReadsValue
  cases c.modifier.isRepeated with
  | false =>
    simp only [Bool.false_eq_true, if_false, Regex.SpellsAll]
    constructor
    · rintro ⟨u, _, rfl, hu, rfl⟩
      exact ⟨u, [], hu, by simp, fun _ => rfl, rfl⟩
    · rintro ⟨u, us, hu, -, hus, rfl⟩
      rw [hus trivial]
      exact ⟨u, [], rfl, hu, rfl⟩
  | true =>
    simp only [if_true, Regex.SpellsAll]
    constructor
    · rintro ⟨u, _, rfl, hu, _, _, rfl, ⟨ws, -, -, hws, rfl⟩, rfl⟩
      obtain ⟨us, hus, hflat⟩ := exists_values fun w hw => (spells_round ignoreCase h w).1 (hws w hw)
      exact ⟨u, us, hu, hus, by simp, by rw [hflat, List.append_nil]⟩
    · rintro ⟨u, us, hu, hus, -, rfl⟩
      -- Each value after the first is one round of the repetition, with the lead before it.
      refine ⟨u, _, rfl, hu, us.flatMap (c.leadText ++ ·), [], by rw [List.append_nil],
        ⟨us.map (c.leadText ++ ·), Nat.zero_le _, by simp, ?_, ?_⟩, rfl⟩
      · intro w hw
        obtain ⟨u', hu', rfl⟩ := List.mem_map.1 hw
        exact (spells_round ignoreCase h _).2 ⟨u', hus u' hu', rfl⟩
      · rw [List.flatMap_def]

theorem isRegular_valueExprs {c : Capture} {segment : Regex} (h : segment.IsRegular) :
    ∀ r ∈ c.valueExprs segment, r.IsRegular := by
  unfold Capture.valueExprs
  split
  · have hround : (sequence (literalExprs c.leadText ++ [segment])).IsRegular := by
      refine Regex.isRegular_sequence ?_
      rw [List.forall_mem_append]
      exact ⟨isRegular_literalExprs _, by simpa using h⟩
    intro r hr
    rw [List.mem_cons, List.mem_singleton] at hr
    rcases hr with rfl | rfl
    · exact h
    · exact ⟨hround, nofun, nofun⟩
  · simpa using h

/-! ## The places after a step -/

/-- The place with the value kept for a group, if there is one; the value stands before the
place. -/
def recorded (c : Cursor) (n : Nat) : Option (List Char) → Cursor
  | none => c
  | some v => { c with kept := (n, ⟨v ++ c.rest, v.length⟩) :: c.kept }

/-- Keeping what was read since a place is recording it. -/
theorem keep_reading {c : Cursor} {v rest : List Char} (hc : c.rest = v ++ rest) (n : Nat) :
    (c.reading v rest).keep n c = recorded (c.reading v rest) n (some v) := by
  simp [recorded, Cursor.keep, Cursor.reading, hc]

/-- A literal reaches the places after its characters. -/
theorem ends_literal (ignoreCase : Bool) (t : List Char) :
    (endsAll ignoreCase (literalExprs t)).Reads (SameText ignoreCase t) :=
  (Regex.endsAll_reads ignoreCase (isRegular_literalExprs t)).congr fun w =>
    spellsAll_literalExprs ignoreCase t w

/-- A literal reaches the place after a text that is the same first. -/
theorem head?_literalExprs (ignoreCase : Bool) {t u : List Char} (hu : SameText ignoreCase t u)
    {cur : Cursor} {rest : List Char} (hcur : cur.rest = u ++ rest) :
    (endsAll ignoreCase (literalExprs t) cur).head? = some (cur.reading u rest) := by
  refine (ends_literal ignoreCase t).head?_eq hcur hu fun w' rest' hcur' hw' => ?_
  -- Texts that are the same as the literal are as long as it.
  have hlength : w'.length = u.length := by rw [← hw'.length_eq, ← hu.length_eq]
  exact (List.append_inj (hcur'.symm.trans hcur) hlength).1

/-- The first place after a group is that after what its expression reads first, with the text
kept. -/
theorem head?_group (ignoreCase : Bool) {r : Regex} {cur : Cursor} {v rest : List Char}
    (hcur : cur.rest = v ++ rest)
    (h : (ends ignoreCase r cur).head? = some (cur.reading v rest)) (n : Nat) :
    (ends ignoreCase (.group n r) cur).head? = some (recorded (cur.reading v rest) n (some v)) := by
  show ((ends ignoreCase r cur).map (·.keep n cur)).head? = _
  rw [List.head?_map, h, Option.map_some, keep_reading hcur]

/-- A literal without case reaches the places after itself. -/
theorem mem_ends_caseless (ignoreCase : Bool) {t : List Char}
    (h : ∀ x ∈ t, x.toNat < Text.firstLetter) (cur cur' : Cursor) :
    cur' ∈ endsAll ignoreCase (literalExprs t) cur ↔
      ∃ rest, cur.rest = t ++ rest ∧ cur' = cur.reading t rest := by
  rw [ends_literal ignoreCase t cur cur']
  constructor
  · rintro ⟨w, rest, hrest, hw, rfl⟩
    rw [sameText_caseless ignoreCase h] at hw
    exact ⟨rest, by rw [hrest, hw], by rw [hw]⟩
  · rintro ⟨rest, hrest, rfl⟩
    exact ⟨t, rest, hrest, .refl ignoreCase t, rfl⟩

/-- What stands for no value has no case if the lead has none. -/
theorem caseless_absent {c : Capture} (h : ∀ x, c.lead = some x → x.toNat < Text.firstLetter) :
    ∀ x ∈ if c.shared then c.leadText else [], x.toNat < Text.firstLetter := by
  split
  · exact fun x hx => h x (Option.mem_toList.1 hx)
  · exact fun x hx => absurd hx List.not_mem_nil

/-- A capture reaches the places behind its lead and its group, and where it may be left out those
behind what stands for no value. -/
theorem mem_ends_exprs (ignoreCase : Bool) (c : Capture) (segment : Regex) (n : Nat)
    (cur cur' : Cursor) :
    cur' ∈ endsAll ignoreCase (c.exprs segment n) cur ↔
      cur' ∈ endsAll ignoreCase
        (literalExprs c.leadText ++ [.group (n + 1) (sequence (c.valueExprs segment))]) cur ∨
      (c.modifier.isOptional = true ∧
        cur' ∈ endsAll ignoreCase (literalExprs (if c.shared then c.leadText else [])) cur) := by
  unfold Capture.exprs
  cases c.modifier.isOptional with
  | false => simp
  | true =>
    cases c.shared with
    | false =>
      -- The lead and the group are left out together.
      simp only [if_true, Bool.false_eq_true, if_false, true_and, Regex.endsAll_singleton]
      rw [Regex.ends_optional, List.mem_append, Regex.ends_sequence]
      rfl
    | true =>
      -- The lead is read in any case, and the group may be left out after it.
      simp only [if_true, true_and, Regex.endsAll_append, Regex.endsAll_singleton,
        funext (Regex.ends_optional ignoreCase _), List.mem_flatMap, List.mem_append,
        List.mem_singleton, and_or_left, exists_or]
      refine or_congr_right ⟨?_, fun h => ⟨cur', h, rfl⟩⟩
      rintro ⟨m, hm, rfl⟩
      exact hm

/-- The group of a capture reaches the places after its values, with the value kept. -/
theorem mem_ends_group (ignoreCase : Bool) {c : Capture} {segment : Regex}
    (h : (Step.capture c segment).Regular) (n : Nat) (cur cur' : Cursor) :
    cur' ∈ ends ignoreCase (.group n (sequence (c.valueExprs segment))) cur ↔
      ∃ v rest, cur.rest = v ++ rest ∧ c.ReadsValue ignoreCase segment v ∧
        cur' = recorded (cur.reading v rest) n (some v) := by
  have hvalues := Regex.endsAll_reads ignoreCase (isRegular_valueExprs (c := c) h.1)
  simp only [ends, Regex.ends_sequence, List.mem_map]
  constructor
  · rintro ⟨m, hm, rfl⟩
    obtain ⟨v, rest, hrest, hv, rfl⟩ := (hvalues cur m).1 hm
    exact ⟨v, rest, hrest, (spellsAll_valueExprs ignoreCase h.2 v).1 hv, keep_reading hrest n⟩
  · rintro ⟨v, rest, hrest, hv, rfl⟩
    exact ⟨cur.reading v rest, (hvalues cur _).2
      ⟨v, rest, hrest, (spellsAll_valueExprs ignoreCase h.2 v).2 hv, rfl⟩, keep_reading hrest n⟩

/-- The group of a capture after its lead. -/
theorem mem_ends_lead_group (ignoreCase : Bool) {c : Capture} {segment : Regex}
    (h : (Step.capture c segment).Regular) (n : Nat) (cur cur' : Cursor) :
    cur' ∈ endsAll ignoreCase
        (literalExprs c.leadText ++ [.group n (sequence (c.valueExprs segment))]) cur ↔
      ∃ v rest, cur.rest = c.leadText ++ v ++ rest ∧ c.ReadsValue ignoreCase segment v ∧
        cur' = recorded (cur.reading (c.leadText ++ v) rest) n (some v) := by
  rw [Regex.endsAll_append, List.mem_flatMap]
  constructor
  -- The lead has no case, so it is read as it is, and the group starts behind it.
  · rintro ⟨m, hm, hcur'⟩
    obtain ⟨w, rest, hrest, hw, rfl⟩ := (ends_literal ignoreCase _ cur m).1 hm
    rw [sameText_leadText ignoreCase h.2] at hw
    rw [← Regex.ends_sequence, Regex.sequence, mem_ends_group ignoreCase h] at hcur'
    obtain ⟨v, rest', hrest', hv, rfl⟩ := hcur'
    rw [Cursor.reading_rest] at hrest'
    exact ⟨v, rest', by rw [hrest, hw, hrest', List.append_assoc], hv,
      by rw [Cursor.reading_reading, hw]⟩
  · rintro ⟨v, rest, hrest, hv, rfl⟩
    rw [List.append_assoc] at hrest
    refine ⟨cur.reading c.leadText (v ++ rest), (ends_literal ignoreCase _ cur _).2
      ⟨_, _, hrest, (sameText_leadText ignoreCase h.2 _).2 rfl, rfl⟩, ?_⟩
    rw [← Regex.ends_sequence, Regex.sequence, mem_ends_group ignoreCase h]
    exact ⟨v, rest, rfl, hv, by rw [Cursor.reading_reading]⟩

/-- What a capture takes is its lead and a value, or what stands for no value. -/
theorem exists_takes_iff (ignoreCase : Bool) (c : Capture) (segment : Regex) (n : Nat)
    (cur cur' : Cursor) :
    (∃ w v rest, cur.rest = w ++ rest ∧ c.Takes ignoreCase segment w v ∧
        cur' = recorded (cur.reading w rest) n v) ↔
      (∃ v rest, cur.rest = c.leadText ++ v ++ rest ∧ c.ReadsValue ignoreCase segment v ∧
        cur' = recorded (cur.reading (c.leadText ++ v) rest) n (some v)) ∨
      (c.modifier.isOptional = true ∧ ∃ rest,
        cur.rest = (if c.shared then c.leadText else []) ++ rest ∧
        cur' = cur.reading (if c.shared then c.leadText else []) rest) := by
  constructor
  · rintro ⟨w, v | v, rest, hrest, htakes, rfl⟩
    · obtain ⟨hopt, rfl⟩ := htakes
      exact .inr ⟨hopt, rest, hrest, rfl⟩
    · obtain ⟨rfl, hv⟩ := htakes
      exact .inl ⟨v, rest, hrest, hv, rfl⟩
  · rintro (⟨v, rest, hrest, hv, rfl⟩ | ⟨hopt, rest, hrest, rfl⟩)
    · exact ⟨_, some v, rest, hrest, ⟨rfl, hv⟩, rfl⟩
    · exact ⟨_, none, rest, hrest, ⟨hopt, rfl⟩, rfl⟩

/-- A capture reaches the places after what it takes, with its value kept. -/
theorem mem_ends_capture (ignoreCase : Bool) {c : Capture} {segment : Regex}
    (h : (Step.capture c segment).Regular) (n : Nat) (cur cur' : Cursor) :
    cur' ∈ endsAll ignoreCase (c.exprs segment n) cur ↔
      ∃ w v rest, cur.rest = w ++ rest ∧ c.Takes ignoreCase segment w v ∧
        cur' = recorded (cur.reading w rest) (n + 1) v := by
  rw [mem_ends_exprs, exists_takes_iff, mem_ends_lead_group ignoreCase h,
    mem_ends_caseless ignoreCase (caseless_absent h.2)]

end SiteRouter.Pattern
