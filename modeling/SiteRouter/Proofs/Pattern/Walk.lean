import SiteRouter.Proofs.Pattern.Default
import SiteRouter.Proofs.Pattern.Tokens
import SiteRouter.Proofs.Regex.Unnested

/-!
# What captures with sub-patterns read

A sub-pattern may have anchors and possessive counts, and then what it reads depends on where it
stands. So there is no derivation of the path from texts that each capture may read, as there is for
captures that are regular; but there is a walk over the steps, from place to place, on which each
capture reads its value from where the steps before it stopped. As long as no sub-pattern opens a
group of its own (`Capture.OpensNoGroup`), what a match returns is the values of such a walk, one
for each capture (`Compiled.walks_of_groups?`).
-/

namespace SiteRouter.Pattern

open Regex (Cursor Span sequence ends endsAll)

/-! ## Sub-patterns without a group -/

/-- The sub-pattern of the capture, as it is written into the expression, opens and ends no
group. -/
def Capture.OpensNoGroup [CharacterNames] (c : Capture) : Prop :=
  ∀ text, c.body = .custom text → Regex.Unnested (Regex.lexemes (escapeBody text))

instance [CharacterNames] (c : Capture) : Decidable c.OpensNoGroup :=
  match hbody : c.body with
  | .custom text =>
    decidable_of_iff (Regex.Unnested (Regex.lexemes (escapeBody text)))
      ⟨fun h _ heq => Body.custom.inj (hbody.symm.trans heq) ▸ h, fun h => h text hbody⟩
  | .segment => isTrue fun _ heq => nomatch hbody.symm.trans heq
  | .anything => isTrue fun _ heq => nomatch hbody.symm.trans heq

/-- What a capture may read is what its expression says, which has no group. -/
def Step.Own [CharacterNames] : Step → Prop
  | .literal _ => True
  | .capture c segment =>
    IsLead c.lead ∧ Regex.parse c.segmentExpression = .ok ⟨segment, 0⟩ ∧
      Regex.Closed c.segmentExpression 0 (fun _ => segment) ∧ segment.KeepsNothing

theorem Capture.keepsNothing_defaultExpr (c : Capture) : c.defaultExpr.KeepsNothing := by
  unfold defaultExpr
  split <;> trivial

/-- What a capture may read is what its expression says. -/
theorem own_of_parse [CharacterNames] {c : Capture} (hlead : IsLead c.lead) (hown : c.OpensNoGroup)
    {program : Regex.Program} (h : Regex.parse c.segmentExpression = .ok program) :
    (Step.capture c program.expr).Own := by
  obtain ⟨hclosed, hkeeps⟩ : Regex.Closed c.segmentExpression 0 (fun _ => program.expr) ∧
      program.expr.KeepsNothing := by
    by_cases hbody : ∃ text, c.body = .custom text
    · obtain ⟨text, htext⟩ := hbody
      have hexpression : c.segmentExpression
          = ['(', '?', ':'] ++ (escapeBody text ++ [')']) := by
        rw [Capture.segmentExpression, Capture.expression, htext, plainGroup_eq]
      rw [hexpression] at h ⊢
      exact Regex.closed_of_parse (hown text htext) h
    · have hdefault : c.IsDefault := ⟨fun text htext => hbody ⟨text, htext⟩, hlead⟩
      rw [hdefault.closed.denotes.body.parse] at h
      cases h
      exact ⟨hdefault.closed, c.keepsNothing_defaultExpr⟩
  refine ⟨hlead, ?_, hclosed, hkeeps⟩
  rw [hclosed.denotes.body.parse]
  rfl

/-- The steps of tokens have these tokens and read their own texts. -/
theorem own_of_toSteps [CharacterNames] {pattern : String} {ts : List Token} {ss : List Step}
    (hts : ∀ t ∈ ts, t.WellFormed) (hown : ∀ c ∈ captures ts, c.OpensNoGroup)
    (h : toSteps pattern ts = .ok ss) : ss.map Step.token = ts ∧ ∀ s ∈ ss, s.Own := by
  induction ts generalizing ss with
  | nil =>
    cases h
    exact ⟨rfl, nofun⟩
  | cons t ts ih =>
    rw [List.forall_mem_cons] at hts
    obtain ⟨s, hs, h⟩ := bind_eq_ok.1 h
    obtain ⟨ss', hss', h⟩ := bind_eq_ok.1 h
    cases h
    cases t with
    | literal text =>
      cases hs
      obtain ⟨htokens, hall⟩ := ih hts.2 hown hss'
      exact ⟨by rw [List.map_cons, htokens]; rfl, List.forall_mem_cons.2 ⟨trivial, hall⟩⟩
    | capture c =>
      have hown : ∀ d ∈ c :: captures ts, d.OpensNoGroup := hown
      rw [List.forall_mem_cons] at hown
      obtain ⟨htokens, hall⟩ := ih hts.2 hown.2 hss'
      obtain ⟨program, hprogram, rfl⟩ := map_eq_ok.1 hs
      have hstep := own_of_parse hts.1.lead hown.1 (mapError_eq_ok.1 hprogram)
      exact ⟨by rw [List.map_cons, htokens]; rfl, List.forall_mem_cons.2 ⟨hstep, hall⟩⟩

theorem Step.Own.valid [CharacterNames] {s : Step} (h : s.Own) (htoken : s.token.WellFormed) :
    s.Valid := by
  cases s with
  | literal text => exact ⟨trivial, fun heq => htoken (Step.literal.inj heq)⟩
  | capture c segment => exact ⟨h.2.2.1, nofun⟩

/-! ## The walk over the steps -/

/-- From the place, the capture can read the value and be followed by the rest. -/
def Capture.ReadsAt (ignoreCase : Bool) (c : Capture) (segment : Regex) (cur : Cursor)
    (v rest : List Char) : Prop :=
  cur.rest = v ++ rest ∧ cur.reading v rest ∈ endsAll ignoreCase (c.valueExprs segment) cur

/-- From the first place to the last, the steps after `n` groups read one after the other, each
where the one before it stopped: a literal its characters, and a capture its lead and its value, or
what stands for no value. -/
inductive Walks (ignoreCase : Bool) :
    Nat → List Step → Cursor → List (Option (List Char)) → Cursor → Prop
  /-- No step is left. -/
  | nil {n : Nat} {cur : Cursor} : Walks ignoreCase n [] cur [] cur
  /-- A literal reads its characters. -/
  | literal {n : Nat} {t u rest : List Char} {ss : List Step} {vs : List (Option (List Char))}
    {cur cur' : Cursor} : cur.rest = u ++ rest → SameText ignoreCase t u →
    Walks ignoreCase n ss (cur.reading u rest) vs cur' →
    Walks ignoreCase n (.literal t :: ss) cur vs cur'
  /-- A capture reads its value behind its lead. -/
  | present {n : Nat} {c : Capture} {segment : Regex} {v rest : List Char} {ss : List Step}
    {vs : List (Option (List Char))} {cur cur' : Cursor} : cur.rest = c.leadText ++ (v ++ rest) →
    c.ReadsAt ignoreCase segment (cur.reading c.leadText (v ++ rest)) v rest →
    Walks ignoreCase (n + 1) ss (recorded (cur.reading (c.leadText ++ v) rest) (n + 1) (some v)) vs
      cur' →
    Walks ignoreCase n (.capture c segment :: ss) cur (some v :: vs) cur'
  /-- A capture is left out. -/
  | absent {n : Nat} {c : Capture} {segment : Regex} {rest : List Char} {ss : List Step}
    {vs : List (Option (List Char))} {cur cur' : Cursor} : c.modifier.isOptional = true →
    cur.rest = (if c.shared then c.leadText else []) ++ rest →
    Walks ignoreCase (n + 1) ss (cur.reading (if c.shared then c.leadText else []) rest) vs cur' →
    Walks ignoreCase n (.capture c segment :: ss) cur (none :: vs) cur'

/-- A walk has a value, or none, for each capture. -/
theorem Walks.length_eq {ignoreCase : Bool} {n : Nat} {ss : List Step} {cur cur' : Cursor}
    {vs : List (Option (List Char))} (h : Walks ignoreCase n ss cur vs cur') :
    vs.length = groupCount ss := by
  induction h with
  | nil => rfl
  | literal _ _ _ ih => simpa [groupCount, Step.groups] using ih
  | present _ _ _ ih => simp [groupCount, Step.groups, ih, Nat.add_comm]
  | absent _ _ _ ih => simp [groupCount, Step.groups, ih, Nat.add_comm]

/-- What a walk keeps is its values, each for the group of its capture. -/
theorem Walks.kept {ignoreCase : Bool} {n : Nat} {ss : List Step} {cur cur' : Cursor}
    {vs : List (Option (List Char))} (h : Walks ignoreCase n ss cur vs cur') :
    Kept n vs cur.kept cur'.kept := by
  induction h with
  | nil => exact .nil
  | literal _ _ _ ih => exact ih
  | @present n c segment v rest _ _ cur _ _ _ _ ih =>
    exact (kept_recorded n (some v) (cur.reading (c.leadText ++ v) rest)).append ih
  | absent _ _ _ ih => exact .absent ih

/-- The values of a capture have no group. -/
theorem keepsNothing_valueExprs {c : Capture} {segment : Regex} (h : segment.KeepsNothing) :
    ∀ r ∈ c.valueExprs segment, r.KeepsNothing := by
  have hlead : ∀ r ∈ literalExprs c.leadText, r.KeepsNothing := by
    intro r hr
    obtain ⟨a, -, rfl⟩ := List.mem_map.1 hr
    trivial
  have hround : (sequence (literalExprs c.leadText ++ [segment])).KeepsNothing :=
    Regex.keepsNothing_sequence (List.forall_mem_append.2 ⟨hlead, by simpa using h⟩)
  unfold Capture.valueExprs
  split
  · exact List.forall_mem_cons.2 ⟨h, by simpa [Regex.KeepsNothing] using hround⟩
  · simpa using h

/-- The group of a capture keeps a value that the capture reads. -/
theorem exists_value_of_mem_ends {ignoreCase : Bool} {c : Capture} {segment : Regex}
    (h : segment.KeepsNothing) {n : Nat} {cur cur' : Cursor}
    (hcur : cur' ∈ ends ignoreCase (.group n (sequence (c.valueExprs segment))) cur) :
    ∃ v rest, c.ReadsAt ignoreCase segment cur v rest ∧
      cur' = recorded (cur.reading v rest) n (some v) := by
  rw [ends, Regex.ends_sequence, List.mem_map] at hcur
  obtain ⟨m, hm, rfl⟩ := hcur
  have hmoves := Regex.endsAll_moves ignoreCase (keepsNothing_valueExprs (c := c) h)
  obtain ⟨v, rest, hrest, rfl⟩ := hmoves cur m hm
  exact ⟨v, rest, ⟨hrest, hm⟩, keep_reading hrest n⟩

/-- The leads have no case. -/
theorem IsLead.caseless {lead : Option Char} (h : IsLead lead) :
    ∀ x, lead = some x → x.toNat < Text.firstLetter := by
  intro x hx
  rcases h x hx with rfl | rfl <;> decide

/-- A place behind the group of a capture and its lead. -/
theorem exists_value_of_mem_ends_lead {ignoreCase : Bool} {c : Capture} {segment : Regex}
    (hlead : IsLead c.lead) (h : segment.KeepsNothing) {n : Nat} {cur cur' : Cursor}
    (hcur : cur' ∈ endsAll ignoreCase
      (literalExprs c.leadText ++ [.group n (sequence (c.valueExprs segment))]) cur) :
    ∃ v rest, cur.rest = c.leadText ++ (v ++ rest) ∧
      c.ReadsAt ignoreCase segment (cur.reading c.leadText (v ++ rest)) v rest ∧
      cur' = recorded (cur.reading (c.leadText ++ v) rest) n (some v) := by
  rw [Regex.endsAll_append, List.mem_flatMap] at hcur
  obtain ⟨m, hm, hcur⟩ := hcur
  have hcaseless : ∀ x ∈ c.leadText, x.toNat < Text.firstLetter :=
    fun x hx => hlead.caseless x (Option.mem_toList.1 hx)
  obtain ⟨rest, hrest, rfl⟩ := (mem_ends_caseless ignoreCase hcaseless cur m).1 hm
  rw [Regex.endsAll_singleton] at hcur
  obtain ⟨v, rest', hreads, rfl⟩ := exists_value_of_mem_ends h hcur
  obtain rfl : rest = v ++ rest' := hreads.1
  exact ⟨v, rest', hrest, hreads, by rw [Cursor.reading_reading]⟩

/-- A place behind a capture: the capture has read a value, or it is left out. -/
theorem cases_of_mem_ends_capture {ignoreCase : Bool} {c : Capture} {segment : Regex}
    (hlead : IsLead c.lead) (h : segment.KeepsNothing) {n : Nat} {cur cur' : Cursor}
    (hcur : cur' ∈ endsAll ignoreCase (c.exprs segment n) cur) :
    (∃ v rest, cur.rest = c.leadText ++ (v ++ rest) ∧
      c.ReadsAt ignoreCase segment (cur.reading c.leadText (v ++ rest)) v rest ∧
      cur' = recorded (cur.reading (c.leadText ++ v) rest) (n + 1) (some v)) ∨
    (c.modifier.isOptional = true ∧ ∃ rest,
      cur.rest = (if c.shared then c.leadText else []) ++ rest ∧
      cur' = cur.reading (if c.shared then c.leadText else []) rest) := by
  rw [mem_ends_exprs, mem_ends_caseless ignoreCase (caseless_absent hlead.caseless)] at hcur
  exact hcur.imp_left (exists_value_of_mem_ends_lead hlead h)

/-- A place that the steps reach is the end of a walk. -/
theorem walks_of_mem_ends [CharacterNames] {ignoreCase : Bool} {ss : List Step}
    (h : ∀ s ∈ ss, s.Own) {n : Nat}
    {cur cur' : Cursor} (hcur : cur' ∈ endsAll ignoreCase (stepExprs n ss) cur) :
    ∃ vs, Walks ignoreCase n ss cur vs cur' := by
  induction ss generalizing n cur with
  | nil =>
    rw [stepExprs, endsAll, List.mem_singleton] at hcur
    exact ⟨[], hcur ▸ .nil⟩
  | cons s ss ih =>
    rw [List.forall_mem_cons] at h
    rw [stepExprs, Regex.endsAll_append, List.mem_flatMap] at hcur
    obtain ⟨m, hm, hcur⟩ := hcur
    obtain ⟨vs, hwalk⟩ := ih h.2 hcur
    cases s with
    | literal t =>
      obtain ⟨u, rest, hu, ht, rfl⟩ := (ends_literal ignoreCase t cur m).1 hm
      exact ⟨vs, .literal hu ht hwalk⟩
    | capture c segment =>
      rcases cases_of_mem_ends_capture h.1.1 h.1.2.2.2 hm with
        ⟨v, rest, hrest, hreads, rfl⟩ | ⟨hoptional, rest, hrest, rfl⟩
      · exact ⟨_, .present hrest hreads hwalk⟩
      · exact ⟨_, .absent hoptional hrest hwalk⟩

/-! ## Compiled patterns -/

/-- The pattern reads a path with the values: its steps are those of its tokens, what each capture
may read is what its own expression says, and the steps walk with the values from the start of the
path to an end that the options allow. -/
structure Compiled.Walks [CharacterNames] (p : Compiled) (path : String)
    (vs : List (Option (List Char))) :
    Prop where
  /-- The steps are those of the tokens. -/
  tokens : p.tokens = p.steps.map Step.token
  /-- What a capture may read is what its expression says. -/
  segments : ∀ c segment, .capture c segment ∈ p.steps →
    Regex.parse c.segmentExpression = .ok ⟨segment, 0⟩
  /-- The steps read one after the other. -/
  walk : ∃ cur, Pattern.Walks p.ignoreCase 0 (matchedSteps p.options p.steps) (.atStart path.toList)
    vs cur ∧ EndsAt p.options (endsInSlash p.steps) cur.rest

/-- The parts of a compiled pattern belong together. -/
theorem compile_own [CharacterNames] {pattern : String} {o : Options} {p : Compiled}
    (h : compile pattern o = .ok p) (hown : ∀ c ∈ p.captures, c.OpensNoGroup) :
    p.tokens = p.steps.map Step.token ∧ (∀ s ∈ p.steps, s.Own) ∧
      p.program = program p.options p.steps := by
  have hmade := Compiled.madeFrom h
  have hwell := parse_wellFormed hmade.tokens
  obtain ⟨htokens, hall⟩ := own_of_toSteps hwell hown hmade.steps
  have hprogram := hmade.program
  rw [← htokens] at hwell hprogram
  have hparse := parse_expression o fun s hs => (hall s hs).valid (hwell _ (List.mem_map_of_mem hs))
  rw [hprogram] at hparse
  refine ⟨htokens.symm, hall, ?_⟩
  rw [hmade.options]
  exact Except.ok.inj hparse

/-- There is a group for each capture. -/
theorem length_captures (ss : List Step) :
    (captures (ss.map Step.token)).length = groupCount ss := by
  induction ss with
  | nil => rfl
  | cons s ss ih =>
    cases s with
    | literal t => rw [groupCount, Step.groups, Nat.zero_add, ← ih]; rfl
    | capture c segment => rw [groupCount, Step.groups, Nat.add_comm, ← ih]; rfl

/-- Each capture has its own group: a match returns the values of a walk. -/
theorem Compiled.walks_of_groups? [CharacterNames] {pattern : String} {o : Options} {p : Compiled}
    (h : compile pattern o = .ok p) (hown : ∀ c ∈ p.captures, c.OpensNoGroup) {path : String}
    {gs : List (Option String)} (hgroups : p.groups? path = some gs) :
    ∃ vs, p.Walks path vs ∧ gs = vs.map (Option.map String.ofList) ∧
      vs.length = p.captures.length := by
  obtain ⟨htokens, hsteps, hprogram⟩ := compile_own h hown
  obtain ⟨cur, hcur, hend, hvalues⟩ := exists_place hprogram hgroups
  obtain ⟨vs, hwalk⟩ := walks_of_mem_ends
    (forall_matchedSteps p.options (P := Step.Own) (fun _ => trivial) hsteps) hcur
  have hlength : vs.length = groupCount p.steps := by
    rw [hwalk.length_eq, groupCount_matchedSteps]
  refine ⟨vs, ⟨htokens, fun c segment hstep => (hsteps _ hstep).2.1, cur, hwalk, hend⟩,
    hvalues vs hlength hwalk.kept, ?_⟩
  rw [hlength, Compiled.captures, htokens, length_captures]

end SiteRouter.Pattern
