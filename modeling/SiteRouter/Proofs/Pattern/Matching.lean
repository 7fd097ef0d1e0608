import SiteRouter.Proofs.Pattern.Derivation

/-!
# Matching is derivation

A compiled pattern and the derivations of its steps. `groups?_sound` shows that the groups which a
match returns are the values of a derivation of the path up to the end that the options ask for,
and `groups?_complete` that a match returns something where there is such a derivation. Which of
several derivations is returned is left open; where a path has one only, the groups are known.
-/

namespace SiteRouter.Pattern

open Regex (Cursor Span sequence ends endsAll)

/-! ## What is kept -/

/-- After `n` groups, the values are kept for the groups that follow, on top of what was kept. -/
inductive Kept : Nat → List (Option (List Char)) → List (Nat × Span) → List (Nat × Span) → Prop
  /-- Nothing more is kept. -/
  | nil {n : Nat} {ks : List (Nat × Span)} : Kept n [] ks ks
  /-- A capture without a value keeps nothing. -/
  | absent {n : Nat} {vs : List (Option (List Char))} {ks ks' : List (Nat × Span)} :
    Kept (n + 1) vs ks ks' → Kept n (none :: vs) ks ks'
  /-- A value is kept for the next group. -/
  | present {n : Nat} {s : Span} {vs : List (Option (List Char))} {ks ks' : List (Nat × Span)} :
    Kept (n + 1) vs ((n + 1, s) :: ks) ks' → Kept n (some s.chars :: vs) ks ks'

/-- What is kept for a group is not what is kept for another. -/
theorem lookup_cons_of_ne {m n : Nat} (h : m ≠ n) (s : Span) (ks : List (Nat × Span)) :
    List.lookup m ((n, s) :: ks) = ks.lookup m := by
  rw [List.lookup_cons, beq_eq_false_iff_ne.2 h]

/-- What was kept for earlier groups stays. -/
theorem Kept.lookup_le {n : Nat} {vs : List (Option (List Char))} {ks ks' : List (Nat × Span)}
    (h : Kept n vs ks ks') {m : Nat} (hm : m ≤ n) : ks'.lookup m = ks.lookup m := by
  induction h with
  | nil => rfl
  | absent _ ih => exact ih (by omega)
  | present _ ih => rw [ih (by omega), lookup_cons_of_ne (by omega)]

/-- The values are kept for their groups. -/
theorem Kept.lookup {n : Nat} {vs : List (Option (List Char))} {ks ks' : List (Nat × Span)}
    (h : Kept n vs ks ks') (hks : ∀ m, n < m → ks.lookup m = none) :
    (List.range vs.length).map (fun i => (ks'.lookup (n + 1 + i)).map Span.chars) = vs := by
  -- The first value is looked up at the first number, and the others one number later.
  have hsplit : ∀ (n : Nat) (v : Option (List Char)) (vs : List (Option (List Char)))
      (ks' : List (Nat × Span)), (ks'.lookup (n + 1)).map Span.chars = v →
      (List.range vs.length).map (fun i => (ks'.lookup (n + 1 + 1 + i)).map Span.chars) = vs →
      (List.range (v :: vs).length).map (fun i => (ks'.lookup (n + 1 + i)).map Span.chars)
        = v :: vs := by
    intro n v vs ks' hv hvs
    rw [List.length_cons, List.range_succ_eq_map, List.map_cons, List.map_map]
    refine List.cons_eq_cons.2 ⟨hv, Eq.trans (List.map_congr_left fun i _ => ?_) hvs⟩
    rw [Function.comp_apply, Nat.add_assoc (n + 1), Nat.add_comm 1]
  induction h with
  | nil => rfl
  | @absent n vs ks ks' h ih =>
    refine hsplit n none vs ks' ?_ (ih fun m hm => hks m (by omega))
    rw [h.lookup_le (Nat.le_refl _), hks _ (Nat.lt_succ_self n)]
    rfl
  | @present n s vs ks ks' h ih =>
    refine hsplit n (some s.chars) vs ks' ?_ (ih fun m hm => ?_)
    · rw [h.lookup_le (Nat.le_refl _), List.lookup_cons_self]
      rfl
    · rw [lookup_cons_of_ne (by omega)]
      exact hks m (by omega)

/-- Values are kept one after the other. -/
theorem Kept.append {n : Nat} {vs vs' : List (Option (List Char))} {ks ks' ks'' : List (Nat × Span)}
    (h : Kept n vs ks ks') (h' : Kept (n + vs.length) vs' ks' ks'') :
    Kept n (vs ++ vs') ks ks'' := by
  induction h with
  | nil => exact h'
  | absent _ ih =>
    rw [List.length_cons, Nat.add_comm _ 1, ← Nat.add_assoc] at h'
    exact .absent (ih h')
  | present _ ih =>
    rw [List.length_cons, Nat.add_comm _ 1, ← Nat.add_assoc] at h'
    exact .present (ih h')

/-- What is recorded is kept for the next group. -/
theorem kept_recorded (n : Nat) (v : Option (List Char)) (c : Cursor) :
    Kept n [v] c.kept (recorded c (n + 1) v).kept := by
  cases v with
  | none => exact .absent .nil
  | some v =>
    have hchars : Span.chars ⟨v ++ c.rest, v.length⟩ = v := by simp [Span.chars]
    have hkept : Kept n [some (Span.chars ⟨v ++ c.rest, v.length⟩)] c.kept
      ((n + 1, ⟨v ++ c.rest, v.length⟩) :: c.kept) := .present .nil
    rwa [hchars] at hkept

/-- The groups of a place are the values kept for them. -/
theorem groups_of_kept {vs : List (Option (List Char))} {c : Cursor} (h : Kept 0 vs [] c.kept) :
    c.groups vs.length = vs := by
  have hlookup := h.lookup fun m _ => by simp
  rw [Cursor.groups]
  simpa [Cursor.group?, Nat.add_comm 1] using hlookup

/-! ## Steps in turn -/

/-- A place that the steps reach lies after a text that they derive, with the values kept. -/
theorem derives_of_mem_ends (ignoreCase : Bool) {ss : List Step} (h : ∀ s ∈ ss, s.Regular)
    (n : Nat) {cur cur' : Cursor} (hcur : cur' ∈ endsAll ignoreCase (stepExprs n ss) cur) :
    ∃ w vs, cur.rest = w ++ cur'.rest ∧ Derives ignoreCase ss w vs ∧
      Kept n vs cur.kept cur'.kept := by
  -- The place after the first step is where the others start, and what they keep comes on top of
  -- what it keeps.
  induction ss generalizing n cur with
  | nil =>
    rw [stepExprs, endsAll, List.mem_singleton] at hcur
    exact ⟨[], [], by rw [hcur]; rfl, .nil, by rw [hcur]; exact .nil⟩
  | cons s ss ih =>
    rw [List.forall_mem_cons] at h
    rw [stepExprs, Regex.endsAll_append, List.mem_flatMap] at hcur
    obtain ⟨m, hm, hcur⟩ := hcur
    obtain ⟨w, vs, hrest, hw, hkept⟩ := ih h.2 _ hcur
    cases s with
    | literal t =>
      obtain ⟨u, rest, hu, ht, rfl⟩ := (ends_literal ignoreCase t cur m).1 hm
      rw [Cursor.reading_rest] at hrest
      exact ⟨u ++ w, vs, by rw [hu, hrest, List.append_assoc], .literal ht hw, hkept⟩
    | capture c segment =>
      obtain ⟨u, v, rest, hu, htakes, rfl⟩ := (mem_ends_capture ignoreCase h.1 n cur m).1 hm
      refine ⟨u ++ w, v :: vs, ?_, .capture htakes hw, ?_⟩
      · rw [hu, List.append_assoc, ← hrest]
        cases v <;> rfl
      · exact (kept_recorded n v (cur.reading u rest)).append hkept

/-- Steps that derive a text reach a place after it, with the values kept. -/
theorem mem_ends_of_derives {ignoreCase : Bool} {ss : List Step} {w : List Char}
    {vs : List (Option (List Char))} (h : Derives ignoreCase ss w vs)
    (hreg : ∀ s ∈ ss, s.Regular) (n : Nat) (cur : Cursor) {rest : List Char}
    (hcur : cur.rest = w ++ rest) :
    ∃ cur' ∈ endsAll ignoreCase (stepExprs n ss) cur, cur'.rest = rest := by
  induction h generalizing n cur with
  | nil => exact ⟨cur, List.mem_singleton_self cur, hcur⟩
  | @literal t u w ss vs ht _ ih =>
    rw [List.forall_mem_cons] at hreg
    rw [List.append_assoc] at hcur
    obtain ⟨cur', hmem, hrest⟩ := ih hreg.2 (n + 0) (cur.reading u (w ++ rest)) rfl
    refine ⟨cur', ?_, hrest⟩
    rw [stepExprs, Regex.endsAll_append, List.mem_flatMap]
    exact ⟨_, (ends_literal ignoreCase t cur _).2 ⟨u, _, hcur, ht, rfl⟩, hmem⟩
  | @capture c segment u w v ss vs ht _ ih =>
    rw [List.forall_mem_cons] at hreg
    rw [List.append_assoc] at hcur
    obtain ⟨cur', hmem, hrest⟩ := ih hreg.2 (n + 1)
      (recorded (cur.reading u (w ++ rest)) (n + 1) v) (by cases v <;> rfl)
    refine ⟨cur', ?_, hrest⟩
    rw [stepExprs, Regex.endsAll_append, List.mem_flatMap]
    exact ⟨_, (mem_ends_capture ignoreCase hreg.1 n cur _).2 ⟨u, v, _, hcur, ht, rfl⟩, hmem⟩

/-- A derivation has a value, or none, for each capture. -/
theorem Derives.length_eq {ignoreCase : Bool} {ss : List Step} {w : List Char}
    {vs : List (Option (List Char))} (h : Derives ignoreCase ss w vs) :
    vs.length = groupCount ss := by
  induction h with
  | nil => rfl
  | literal _ _ ih => simpa [groupCount, Step.groups] using ih
  | capture _ _ ih => simp [groupCount, Step.groups, ih, Nat.add_comm]

/-! ## The end of a pattern -/

/-- Whether a match may stop before the text; `slash` says whether the pattern ends in a slash. A
match that must reach the end stops there only; any other match stops at the edge of a segment, or
anywhere after a slash of its own that counts. -/
def StopsAt (o : Options) (slash : Bool) (rest : List Char) : Prop :=
  if o.toEnd then rest = []
  else (o.strict = true ∧ slash = true) ∨ rest = [] ∨ rest.head? = some '/'

/-- Whether a match may end before the text: it may stop there, or only a slash that does not count
is left. -/
def EndsAt (o : Options) (slash : Bool) (rest : List Char) : Prop :=
  StopsAt o slash rest ∨ (o.strict = false ∧ rest = ['/'])

/-- A match that must reach the end leaves nothing, or a slash that does not count. -/
theorem endsAt_toEnd {o : Options} (h : o.toEnd = true) {slash : Bool} {rest : List Char} :
    EndsAt o slash rest ↔ rest = [] ∨ (o.strict = false ∧ rest = ['/']) := by
  unfold EndsAt StopsAt
  rw [if_pos h]

/-- A match may stop at the end of the text. -/
theorem stopsAt_nil (o : Options) (slash : Bool) : StopsAt o slash [] := by
  unfold StopsAt
  split
  · rfl
  · exact .inr (.inl rfl)

/-- The end of a text is a place only where nothing is left. -/
theorem ends_finish (ignoreCase : Bool) (cur : Cursor) :
    ends ignoreCase (.anchor .finish) cur = if cur.rest = [] then [cur] else [] := by
  simp [ends, Cursor.isAt]

/-- A slash is read where there is one. -/
theorem ends_slash (ignoreCase : Bool) (cur : Cursor) :
    ends ignoreCase (.char '/'.toNat) cur =
      if cur.rest.head? = some '/' then [cur.reading ['/'] cur.rest.tail] else [] := by
  show (cur.advance (Regex.fitsCode ignoreCase '/'.toNat)).toList = _
  unfold Cursor.advance
  cases hrest : cur.rest with
  | nil => rfl
  | cons x rest =>
    have hfits := Regex.fitsCode_caseless_left ignoreCase (a := '/') (by decide) x
    dsimp only
    by_cases hx : x = '/'
    · rw [if_pos (hfits.2 hx), hx]
      rfl
    · rw [if_neg fun h => hx (hfits.1 h), if_neg (by simpa using hx)]
      rfl

/-- A slash that ends the text may be read or left. -/
theorem ends_slashAtEnd (ignoreCase : Bool) (cur : Cursor) :
    ends ignoreCase slashAtEnd cur =
      (if cur.rest = ['/'] then [cur.reading ['/'] []] else []) ++ [cur] := by
  -- The condition behind the slash holds where nothing is left.
  have hahead : ∀ m : Cursor, ends ignoreCase (.ahead (.anchor .finish)) m
      = if m.rest = [] then [m] else [] := by
    intro m
    show ((ends ignoreCase (.anchor .finish) m).head?.map fun c' =>
      { m with kept := c'.kept }).toList = _
    rw [ends_finish]
    split <;> rfl
  rw [slashAtEnd, Regex.ends_optional]
  show (ends ignoreCase (.char '/'.toNat) cur).flatMap _ ++ [cur] = _
  rw [ends_slash, funext hahead]
  cases hrest : cur.rest with
  | nil => rfl
  | cons x rest =>
    by_cases hx : x = '/'
    · subst hx
      cases rest <;> simp
    · simp [hx]

/-- The edge of a segment is before a slash or at the end. -/
theorem ends_segmentEdge (ignoreCase : Bool) (cur : Cursor) :
    ends ignoreCase segmentEdge cur =
      if cur.rest = [] ∨ cur.rest.head? = some '/' then [cur] else [] := by
  show ((ends ignoreCase (.char '/'.toNat) cur ++ ends ignoreCase (.anchor .finish) cur).head?.map
    fun c' => { cur with kept := c'.kept }).toList = _
  rw [ends_slash, ends_finish]
  obtain ⟨pos, prev, _ | ⟨x, rest⟩, kept⟩ := cur
  · simp
  · by_cases hx : x = '/' <;> simp [hx]

/-- The slash at the end is read only where it does not count. -/
theorem mem_ends_tolerant (ignoreCase strict : Bool) (cur cur' : Cursor) :
    cur' ∈ endsAll ignoreCase (if strict then [] else [slashAtEnd]) cur ↔
      cur' = cur ∨ (strict = false ∧ cur.rest = ['/'] ∧ cur' = cur.reading ['/'] []) := by
  cases strict with
  | true => simp [endsAll]
  | false =>
    rw [if_neg Bool.false_ne_true, Regex.endsAll_singleton, ends_slashAtEnd, List.mem_append,
      List.mem_singleton, or_comm]
    split <;> simp [*]

/-- The last expression stays in place, where a match may stop. -/
theorem mem_ends_last (ignoreCase : Bool) (o : Options) (slash : Bool) (cur cur' : Cursor) :
    cur' ∈ endsAll ignoreCase
        (if o.toEnd then [.anchor .finish] else if o.strict && slash then [] else [segmentEdge])
        cur ↔
      cur' = cur ∧ StopsAt o slash cur.rest := by
  unfold StopsAt
  cases o.toEnd with
  | true =>
    rw [if_pos rfl, if_pos rfl, Regex.endsAll_singleton, ends_finish]
    split <;> simp [*]
  | false =>
    rw [if_neg Bool.false_ne_true, if_neg Bool.false_ne_true]
    cases hslash : o.strict && slash with
    | true => simp [endsAll, Bool.and_eq_true_iff.1 hslash]
    | false =>
      rw [if_neg Bool.false_ne_true, Regex.endsAll_singleton, ends_segmentEdge]
      rw [← Bool.and_eq_true_iff, hslash]
      split <;> simp [*]

/-- There is a place at the end of a match where it may end, and nothing more is kept there. -/
theorem mem_ends_endExprs (ignoreCase : Bool) (o : Options) (slash : Bool) (cur cur' : Cursor) :
    cur' ∈ endsAll ignoreCase (endExprs o slash) cur ↔
      (cur' = cur ∧ StopsAt o slash cur.rest) ∨
        (o.strict = false ∧ cur.rest = ['/'] ∧ cur' = cur.reading ['/'] []) := by
  rw [endExprs, Regex.endsAll_append, List.mem_flatMap]
  simp only [mem_ends_tolerant, mem_ends_last]
  constructor
  · rintro ⟨m, rfl | ⟨hstrict, hrest, rfl⟩, rfl, hstop⟩
    · exact .inl ⟨rfl, hstop⟩
    · exact .inr ⟨hstrict, hrest, rfl⟩
  · rintro (⟨rfl, hstop⟩ | ⟨hstrict, hrest, rfl⟩)
    · exact ⟨_, .inl rfl, rfl, hstop⟩
    · exact ⟨_, .inr ⟨hstrict, hrest, rfl⟩, rfl, stopsAt_nil o slash⟩

/-- At the end of the text a match ends right there. -/
theorem head?_endExprs (ignoreCase : Bool) (o : Options) (slash : Bool) {cur : Cursor}
    (h : cur.rest = []) : (endsAll ignoreCase (endExprs o slash) cur).head? = some cur := by
  have hstop : StopsAt o slash cur.rest := h ▸ stopsAt_nil o slash
  have hmem := (mem_ends_endExprs ignoreCase o slash cur cur).2 (.inl ⟨rfl, hstop⟩)
  obtain ⟨cur', hcur'⟩ := Option.isSome_iff_exists.1 (List.isSome_head?.2 (List.ne_nil_of_mem hmem))
  rcases (mem_ends_endExprs _ _ _ _ _).1 (List.mem_of_head? hcur') with ⟨rfl, -⟩ | ⟨-, hrest, -⟩
  · exact hcur'
  · rw [h] at hrest
    cases hrest

/-- The program reads the steps from the start of the text, and then its end. -/
theorem ends_program (ignoreCase : Bool) (o : Options) (ss : List Step) (cs : List Char) :
    ends ignoreCase (program o ss).expr (.atStart cs) =
      (endsAll ignoreCase (stepExprs 0 (matchedSteps o ss)) (.atStart cs)).flatMap
        (endsAll ignoreCase (endExprs o (endsInSlash ss))) := by
  have hstart : ends ignoreCase (.anchor .start) (.atStart cs) = [.atStart cs] := rfl
  rw [program, Regex.ends_sequence, ← Regex.endsAll_append]
  show (ends ignoreCase (.anchor .start) (.atStart cs)).flatMap _ = _
  rw [hstart, List.flatMap_singleton]

/-! ## Compiled patterns -/

/-- The pattern stands for its steps: the expression for a path is their program, and what each
capture may read depends on nothing but its expression. -/
structure Compiled.Faithful (p : Compiled) : Prop where
  /-- The steps are those of the tokens. -/
  tokens : p.tokens = p.steps.map Step.token
  /-- The expression for a path is the program of the steps. -/
  program : p.program = Pattern.program p.options p.steps
  /-- The steps can be matched one after the other. -/
  regular : ∀ s ∈ p.steps, s.Regular

/-- The expressions of captures are read one by one. -/
theorem toSteps_eq [CharacterNames] (pattern : String) {ss : List Step} (h : ∀ s ∈ ss, s.Stands) :
    toSteps pattern (ss.map Step.token) = .ok ss := by
  induction ss with
  | nil => rfl
  | cons s ss ih =>
    rw [List.forall_mem_cons] at h
    have hstep : s.token.toStep pattern = .ok s := by
      cases s with
      | literal t => rfl
      | capture c segment =>
        have hclosed : Regex.Closed c.segmentExpression 0 fun _ => segment := h.1
        show (parseExpression pattern c.segmentExpression).map _ = _
        rw [parseExpression, hclosed.denotes.body.parse]
        rfl
    rw [List.map_cons, toSteps, hstep, ih h.2]
    rfl

/-- A pattern whose captures stand for what they may read compiles. -/
theorem compile_eq [CharacterNames] {pattern : String} (o : Options) (ss : List Step)
    (hparse : parse pattern.toList = .ok (ss.map Step.token)) (h : ∀ s ∈ ss, s.Valid) :
    compile pattern o = .ok ⟨pattern, o, ss.map Step.token, ss, program o ss⟩ := by
  rw [compile, hparse]
  show (parseExpression pattern (expression o (ss.map Step.token))).bind _ = _
  rw [parseExpression, parse_expression o h]
  show (toSteps pattern (ss.map Step.token)).bind _ = _
  rw [toSteps_eq pattern fun s hs => (h s hs).1]
  rfl

namespace Compiled

variable {p : Compiled}

/-- A match finds a place behind the steps where it may end, and what it returns is what is kept
there. -/
theorem exists_place (hprogram : p.program = Pattern.program p.options p.steps) {path : String}
    {gs : List (Option String)} (h : p.groups? path = some gs) :
    ∃ cur ∈ endsAll p.ignoreCase (stepExprs 0 (matchedSteps p.options p.steps))
        (.atStart path.toList),
      EndsAt p.options (endsInSlash p.steps) cur.rest ∧
        ∀ vs, vs.length = groupCount p.steps → Kept 0 vs [] cur.kept →
          gs = vs.map (Option.map String.ofList) := by
  rw [groups?, Option.map_eq_some_iff] at h
  -- The match is the first place behind the steps and the end.
  obtain ⟨cur', hcur', rfl⟩ := h
  rw [Regex.matchStart_eq_head?, hprogram, ends_program] at hcur'
  obtain ⟨cur, hcur, hend⟩ := List.mem_flatMap.1 (List.mem_of_head? hcur')
  rw [mem_ends_endExprs] at hend
  refine ⟨cur, hcur, hend.imp And.right fun h => ⟨h.1, h.2.1⟩, fun vs hlength hkept => ?_⟩
  -- The end of the expression keeps nothing, so the groups are those of the steps.
  have hgroups : cur'.groups p.program.groups = vs := by
    have hcount : p.program.groups = vs.length := by
      rw [hlength, hprogram]
      rfl
    rw [hcount]
    rcases hend with ⟨rfl, -⟩ | ⟨-, -, rfl⟩ <;> exact groups_of_kept hkept
  rw [hgroups]

/-- What a match returns is the values of a derivation of the path, up to an end that the options
allow. -/
theorem Faithful.groups?_sound (hp : p.Faithful) {path : String} {gs : List (Option String)}
    (h : p.groups? path = some gs) :
    ∃ w rest vs, path.toList = w ++ rest ∧
      Derives p.ignoreCase (matchedSteps p.options p.steps) w vs ∧
      EndsAt p.options (endsInSlash p.steps) rest ∧ gs = vs.map (Option.map String.ofList) := by
  have hregular := forall_matchedSteps p.options (P := Step.Regular) (fun _ => trivial) hp.regular
  obtain ⟨cur, hcur, hend, hgroups⟩ := exists_place hp.program h
  obtain ⟨w, vs, hpath, hw, hkept⟩ := derives_of_mem_ends p.ignoreCase hregular 0 hcur
  have hlength : vs.length = groupCount p.steps := by
    rw [hw.length_eq, groupCount_matchedSteps]
  exact ⟨w, cur.rest, vs, hpath, hw, hend, hgroups vs hlength hkept⟩

/-- A path that can be derived up to an end that the options allow is matched. -/
theorem Faithful.groups?_complete (hp : p.Faithful) {path : String} {w rest : List Char}
    {vs : List (Option (List Char))} (hpath : path.toList = w ++ rest)
    (hw : Derives p.ignoreCase (matchedSteps p.options p.steps) w vs)
    (hrest : EndsAt p.options (endsInSlash p.steps) rest) : (p.groups? path).isSome = true := by
  have hregular := forall_matchedSteps p.options (P := Step.Regular) (fun _ => trivial) hp.regular
  -- The derivation leads to a place where the end can be read.
  obtain ⟨cur, hcur, rfl⟩ := mem_ends_of_derives hw hregular 0 (.atStart path.toList) hpath
  have hend : ∃ cur', cur' ∈ endsAll p.ignoreCase (endExprs p.options (endsInSlash p.steps)) cur :=
    hrest.elim (fun hstop => ⟨cur, (mem_ends_endExprs _ _ _ _ _).2 (.inl ⟨rfl, hstop⟩)⟩)
      fun h => ⟨_, (mem_ends_endExprs _ _ _ _ _).2 (.inr ⟨h.1, h.2, rfl⟩)⟩
  obtain ⟨cur', hend⟩ := hend
  rw [groups?, Option.isSome_map, Regex.matchStart_eq_head?, hp.program, ends_program,
    List.isSome_head?]
  exact List.ne_nil_of_mem (List.mem_flatMap.2 ⟨cur, hcur, hend⟩)

/-- Where the derivations of a path agree on the values, these are what a match returns. -/
theorem Faithful.groups?_eq (hp : p.Faithful) {path : String} {w rest : List Char}
    {vs : List (Option (List Char))} (hpath : path.toList = w ++ rest)
    (hw : Derives p.ignoreCase (matchedSteps p.options p.steps) w vs)
    (hrest : EndsAt p.options (endsInSlash p.steps) rest)
    (hunique : ∀ w' rest' vs', path.toList = w' ++ rest' →
      Derives p.ignoreCase (matchedSteps p.options p.steps) w' vs' →
      EndsAt p.options (endsInSlash p.steps) rest' → vs' = vs) :
    p.groups? path = some (vs.map (Option.map String.ofList)) := by
  obtain ⟨gs, hgs⟩ := Option.isSome_iff_exists.1 (hp.groups?_complete hpath hw hrest)
  -- Whichever derivation the match found, its values are the given ones.
  obtain ⟨w', rest', vs', hpath', hw', hrest', rfl⟩ := hp.groups?_sound hgs
  rw [hgs, hunique w' rest' vs' hpath' hw' hrest']

end Compiled

end SiteRouter.Pattern
