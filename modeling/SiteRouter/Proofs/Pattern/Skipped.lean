import SiteRouter.Proofs.Pattern.Slashes
import SiteRouter.Proofs.Pattern.Written
import SiteRouter.Text.BasicLatin

/-!
# Captures that are left out

A capture without a name that reads anything, be it a star or a sub-pattern that says the same, needs
no value: it may read nothing. Where it has none it is left out of the path together with its lead.
A match reads the lead, though, unless a modifier lets it go. So a path without such captures is
matched if none of them has a lead to lose (`Writes.takes_basic`), and it is not if it has fewer
slashes or points than a match reads (`leastCount`): a slash was lost that no slash at the end makes
up for, or a point that no value has.
-/

namespace SiteRouter.Pattern

namespace Capture

/-- Whether the capture is a parameter that takes one value and has no sub-pattern. -/
def IsRequired (c : Capture) : Prop := c.isNamed = true ∧ c.body = .segment ∧ c.modifier = .once

/-- Whether the capture has no name and reads anything. -/
def IsCatchAll (c : Capture) : Prop :=
  c.isNamed = false ∧ (c.body = .anything ∨ c.body = .custom ".*".toList)

instance (c : Capture) : Decidable c.IsRequired := inferInstanceAs (Decidable (_ ∧ _))

instance (c : Capture) : Decidable c.IsCatchAll := inferInstanceAs (Decidable (_ ∧ _))

/-- The capture with a star in place of a sub-pattern that says the same. -/
def asDefault (c : Capture) : Capture :=
  if c.body = .custom ".*".toList then { c with body := .anything } else c

/-- The star and the sub-pattern are written the same way. -/
theorem segmentExpression_asDefault (c : Capture) :
    c.asDefault.segmentExpression = c.segmentExpression := by
  unfold asDefault
  split
  · next hbody =>
    have hescape : ".*".toList = escapeBody ".*".toList := by decide
    have hexpression : c.expression = escapeBody ".*".toList := by rw [expression, hbody]
    rw [segmentExpression, segmentExpression, hexpression]
    exact congrArg plainGroup hescape
  · rfl

/-- Whether the capture is left out with a lead that a match reads. -/
def drops (x : Char) (c : Capture) : Bool :=
  !c.isNamed && !c.modifier.isOptional && c.lead == some x

/-- The value of a capture with a name as it stands in a path. -/
def valueText (params : Mapping) (c : Capture) : List Char :=
  if c.isNamed then Compiled.encodeValue c (params.getD c.key.toValue) else []

variable {c : Capture}

theorem isDefault_asDefault (hlead : IsLead c.lead) (h : c.IsRequired ∨ c.IsCatchAll) :
    c.asDefault.IsDefault := by
  unfold asDefault
  split
  · exact ⟨nofun, hlead⟩
  · next hbody =>
    refine ⟨fun text htext => ?_, hlead⟩
    rcases h with ⟨-, hc, -⟩ | ⟨-, hc | hc⟩
    · rw [hc] at htext
      cases htext
    · rw [hc] at htext
      cases htext
    · exact hbody hc

end Capture

/-! ## Tokens -/

namespace Token

/-- A literal has characters, and a capture is required or reads anything. -/
def IsBasic : Token → Prop
  | literal text => text ≠ []
  | capture c => IsLead c.lead ∧ (c.IsRequired ∨ c.IsCatchAll)

/-- The step of such a token. -/
def basicStep : Token → Step
  | literal text => .literal text
  | capture c => .capture c c.asDefault.defaultExpr

@[simp] theorem token_basicStep (t : Token) : t.basicStep.token = t := by
  cases t <;> rfl

theorem IsBasic.valid [CharacterNames] {t : Token} (h : t.IsBasic) : t.basicStep.Valid := by
  cases t with
  | literal text => exact ⟨trivial, fun heq => h (Step.literal.inj heq)⟩
  | capture c =>
    have hclosed := (Capture.isDefault_asDefault h.1 h.2).closed
    rw [Capture.segmentExpression_asDefault] at hclosed
    exact ⟨hclosed, nofun⟩

theorem IsBasic.regular {t : Token} (h : t.IsBasic) : t.basicStep.Regular := by
  cases t with
  | literal text => trivial
  | capture c =>
    refine ⟨Capture.IsDefault.isRegular c.asDefault, fun x hx => ?_⟩
    rcases h.1 x hx with rfl | rfl <;> decide

end Token

/-! ## What is written without captures is taken -/

namespace Compiled

variable {p : Compiled} {c : Capture} {v : Value} {text : List Char}

/-- What a capture with a name writes is its lead and its value. -/
theorem Writes.required {segment : Regex} (hc : c.IsRequired) (h : p.Writes c segment v text) :
    v.isNull = false ∧ v.sequence? = none ∧
      segment.matchesAll p.ignoreCase (encodeValue c v) = true ∧
      text = c.leadText ++ encodeValue c v := by
  obtain ⟨⟨hnull, hitems⟩, -, hmatches, htext⟩ := (writes_once_iff hc.1 hc.2.2).1 h
  exact ⟨hnull, hitems, hmatches, htext⟩

/-- Without a value a capture that may be left out writes a lead that its segment keeps, and any
other one nothing. -/
theorem Writes.skipped {segment : Regex} (hnull : v.isNull = true)
    (h : p.Writes c segment v text) :
    (c.modifier.isOptional = true ∧ text = if c.shared then c.leadText else []) ∨
      (c.modifier.isOptional = false ∧ segment.matchesAll p.ignoreCase [] = true ∧ text = []) := by
  cases h with
  | absent _ hoptional => exact .inl ⟨hoptional, rfl⟩
  | nothing _ hoptional _ hempty => exact .inr ⟨hoptional, hempty, rfl⟩
  | empty hgiven => cases hnull.symm.trans hgiven
  | elements hgiven => cases hnull.symm.trans hgiven
  | single hgiven => cases hnull.symm.trans hgiven

/-- What such a capture writes it takes, unless it is left out with a lead that a match reads. -/
theorem Writes.takes_basic (hc : c.IsRequired ∨ c.IsCatchAll)
    (hskip : c.isNamed = false → v.isNull = true)
    (hlead : c.isNamed = false → c.modifier.isOptional = true ∨ c.lead = none)
    (h : p.Writes c c.asDefault.defaultExpr v text) :
    ∃ u, c.Takes p.ignoreCase c.asDefault.defaultExpr text u := by
  rcases hc with hc | ⟨hunnamed, -⟩
  · obtain ⟨-, -, hmatches, rfl⟩ := h.required hc
    exact ⟨_, Capture.takes_one ((matchesAll_default _ _).1 hmatches)⟩
  · rcases h.skipped (hskip hunnamed) with ⟨hoptional, rfl⟩ | ⟨hoptional, hempty, rfl⟩
    · exact ⟨none, hoptional, rfl⟩
    · have hnone : c.lead = none :=
        (hlead hunnamed).resolve_left (ne_true_of_eq_false hoptional)
      have htakes := Capture.takes_one (c := c) ((matchesAll_default _ _).1 hempty)
      rw [Capture.leadText, hnone] at htakes
      exact ⟨_, htakes⟩

/-- What basic tokens write in turn can be derived from them. -/
theorem writeSteps_derives_basic {params : Mapping} {ts : List Token} (hts : ∀ t ∈ ts, t.IsBasic)
    (hskip : ∀ c ∈ Pattern.captures ts, c.isNamed = false →
      (params.getD c.key.toValue).isNull = true)
    (hlead : ∀ c ∈ Pattern.captures ts, c.isNamed = false →
      c.modifier.isOptional = true ∨ c.lead = none) {w : List Char}
    (h : p.writeSteps params (ts.map Token.basicStep) = .ok w) :
    ∃ vs, Derives p.ignoreCase (ts.map Token.basicStep) w vs := by
  refine derives_of_writeSteps (fun c segment text hmem hwrites => ?_) h
  obtain ⟨t, ht, hstep⟩ := List.mem_map.1 hmem
  cases t with
  | literal t => cases hstep
  | capture c =>
    cases hstep
    have hc : c ∈ Pattern.captures ts := List.mem_filterMap.2 ⟨_, ht, rfl⟩
    exact hwrites.takes_basic (hts _ ht).2 (hskip c hc) (hlead c hc)

end Compiled

/-! ## The leads that a match reads -/

variable {x : Char}

/-- How often a step reads a character that is a lead at least. -/
def Step.leastCount (x : Char) : Step → Nat
  | literal t => t.count x
  | capture c _ => if c.modifier.isOptional && !c.shared then 0 else c.leadText.count x

/-- How often steps read a character that is a lead at least. -/
def leastCount (x : Char) : List Step → Nat
  | [] => 0
  | s :: ss => s.leastCount x + leastCount x ss

theorem leastCount_append (ss ss' : List Step) :
    leastCount x (ss ++ ss') = leastCount x ss + leastCount x ss' := by
  induction ss with
  | nil => exact (Nat.zero_add _).symm
  | cons s ss ih => rw [List.cons_append, leastCount, leastCount, ih, Nat.add_assoc]

/-- A character without case is as often in a text as in one that is the same. -/
theorem SameText.count_eq (hx : x.toNat < Text.firstLetter) {ignoreCase : Bool} {t u : List Char}
    (h : SameText ignoreCase t u) : u.count x = t.count x := by
  induction h with
  | nil => rfl
  | @cons a b t u hb _ ih =>
    have hsame : b = x ↔ a = x := by
      constructor
      · rintro rfl
        exact ((Regex.fitsCode_caseless_right ignoreCase hx a).1 hb).symm
      · rintro rfl
        exact (Regex.fitsCode_caseless_left ignoreCase hx b).1 hb
    rw [List.count_cons, List.count_cons, ih]
    simp [hsame]

/-- A text that can be derived has the leads that the steps read. -/
theorem Derives.leastCount_le (hx : x.toNat < Text.firstLetter) {ignoreCase : Bool}
    {ss : List Step} {w : List Char} {vs : List (Option (List Char))}
    (h : Derives ignoreCase ss w vs) : leastCount x ss ≤ w.count x := by
  induction h with
  | nil => exact Nat.zero_le _
  | literal ht _ ih =>
    rw [leastCount, List.count_append, ht.count_eq hx, Step.leastCount]
    exact Nat.add_le_add_left ih _
  | @capture c segment u w v ss vs ht _ ih =>
    have hfirst : (Step.capture c segment).leastCount x ≤ u.count x := by
      rw [Step.leastCount]
      cases v with
      | some v =>
        obtain ⟨rfl, -⟩ := ht
        rw [List.count_append]
        split <;> omega
      | none =>
        obtain ⟨hoptional, rfl⟩ := ht
        rw [hoptional, Bool.true_and]
        cases c.shared
        · exact Nat.zero_le _
        · exact Nat.le_refl _
    rw [leastCount, List.count_append]
    exact Nat.add_le_add hfirst ih

/-- Leaving a slash to the end of a match takes one from the steps. -/
theorem leastCount_matchedSteps (x : Char) (o : Options) (ss : List Step) :
    leastCount x ss ≤ leastCount x (matchedSteps o ss) +
      if x = '/' ∧ o.strict = false ∧ endsInSlash ss then 1 else 0 := by
  rcases matchedSteps_cases o ss with hsame | ⟨hstrict, init, t, rfl, hdropped⟩
  · rw [hsame]
    exact Nat.le_add_right _ _
  · have hslash : endsInSlash (init ++ [.literal (t ++ ['/'])]) = true :=
      endsInSlash_iff.2 ⟨init, t, rfl⟩
    have hone : ['/'].count x ≤ if x = '/' then 1 else 0 := by
      by_cases hx : x = '/'
      · subst hx
        exact Nat.le_refl 1
      · rw [List.count_eq_zero.2 (by simpa using hx)]
        exact Nat.zero_le _
    have hlast : ∀ t, leastCount x [.literal t] = t.count x := fun t => Nat.add_zero _
    rw [hdropped, leastCount_append, leastCount_append, hlast, hlast, List.count_append]
    simp only [hstrict, hslash, and_true]
    omega

namespace Compiled

variable {p : Compiled} {c : Capture} {text : List Char} {params : Mapping}

/-- A capture writes the leads that a match reads, but for one that it drops, and those in its
value. -/
theorem Writes.count_basic (hx : IsLead (some x)) {segment : Regex} (hlead : IsLead c.lead)
    (hc : c.IsRequired ∨ c.IsCatchAll)
    (hskip : c.isNamed = false → (params.getD c.key.toValue).isNull = true)
    (h : p.Writes c segment (params.getD c.key.toValue) text) :
    text.count x + (if c.drops x then 1 else 0) =
      (Step.capture c segment).leastCount x + (c.valueText params).count x := by
  rw [Capture.drops, Capture.valueText, Step.leastCount]
  rcases hc with hc | ⟨hunnamed, -⟩
  · obtain ⟨-, -, -, rfl⟩ := h.required hc
    obtain ⟨hnamed, -, hmodifier⟩ := hc
    rw [hnamed, hmodifier, List.count_append]
    rfl
  · rw [hunnamed]
    rcases h.skipped (hskip hunnamed) with ⟨hoptional, rfl⟩ | ⟨hoptional, -, rfl⟩
    · rw [hoptional]
      cases c.shared <;> rfl
    · rw [hoptional]
      unfold Capture.leadText
      cases hcase : c.lead with
      | none => rfl
      | some y =>
        rcases hlead y hcase with rfl | rfl <;> rcases hx x rfl with rfl | rfl <;> rfl

/-- A written text has the leads that a match reads, but for those that are dropped, and those in
the values. -/
theorem count_writeSteps_basic (hx : IsLead (some x)) {ts : List Token}
    (hts : ∀ t ∈ ts, t.IsBasic) (hskip : ∀ c ∈ Pattern.captures ts, c.isNamed = false →
      (params.getD c.key.toValue).isNull = true) {w : List Char}
    (h : p.writeSteps params (ts.map Token.basicStep) = .ok w) :
    w.count x + (Pattern.captures ts).countP (Capture.drops x) =
      leastCount x (ts.map Token.basicStep) +
        ((Pattern.captures ts).flatMap (Capture.valueText params)).count x := by
  induction ts generalizing w with
  | nil =>
    cases h
    rfl
  | cons t ts ih =>
    rw [List.forall_mem_cons] at hts
    obtain ⟨u, u', hu, hu', rfl⟩ := writeSteps_cons_eq_ok.1 h
    rw [List.map_cons, leastCount, List.count_append]
    cases t with
    | literal t =>
      obtain rfl : t = u := Except.ok.inj hu
      have hrest := ih hts.2 hskip hu'
      show _ + (Pattern.captures ts).countP _ = _ + ((Pattern.captures ts).flatMap _).count x
      rw [Token.basicStep, Step.leastCount]
      omega
    | capture c =>
      have hskip := List.forall_mem_cons.1 hskip
      have hfirst := (writeCapture_eq_ok.1 hu).count_basic hx hts.1.1 hts.1.2 hskip.1
      have hrest := ih hts.2 hskip.2 hu'
      show _ + (c :: Pattern.captures ts).countP _ =
        _ + ((c :: Pattern.captures ts).flatMap _).count x
      rw [List.countP_cons, List.flatMap_cons, List.count_append, Token.basicStep]
      omega

/-- There is no slash in the value of a required parameter. -/
theorem count_slash_valueText (params : Mapping) {cs : List Capture}
    (h : ∀ c ∈ cs, c.IsRequired ∨ c.IsCatchAll) :
    (cs.flatMap (Capture.valueText params)).count '/' = 0 := by
  rw [List.count_eq_zero, List.mem_flatMap]
  rintro ⟨c, hc, hmem⟩
  rw [Capture.valueText] at hmem
  rcases h c hc with ⟨hnamed, hbody, -⟩ | ⟨hunnamed, -⟩
  · have hstar : c.isStar = false := by rw [Capture.isStar, hbody]; rfl
    rw [hnamed, if_pos rfl, encodeValue, hstar, if_neg Bool.false_ne_true] at hmem
    exact List.count_eq_zero.1 (count_slash_component _) hmem
  · rw [hunnamed, if_neg Bool.false_ne_true] at hmem
    cases hmem

end Compiled

/-! ## Paths without the captures that have no name -/

/-- The tokens of a pattern whose captures are required or read anything. -/
theorem isBasic_of_parse {cs : List Char} {ts : List Token} (h : parse cs = .ok ts)
    (hcaptures : ∀ c ∈ captures ts, c.IsRequired ∨ c.IsCatchAll) : ∀ t ∈ ts, t.IsBasic := by
  intro t ht
  have hwell := parse_wellFormed h t ht
  cases t with
  | literal text => exact hwell
  | capture c =>
    exact ⟨Capture.WellFormed.lead hwell, hcaptures c (List.mem_filterMap.2 ⟨_, ht, rfl⟩)⟩

/-- The compiled form of basic tokens. -/
def compiledBasic (pattern : String) (o : Options) (ts : List Token) : Compiled :=
  ⟨pattern, o, ts, ts.map Token.basicStep, program o (ts.map Token.basicStep)⟩

theorem compile_basic [CharacterNames] {pattern : String} {ts : List Token} (o : Options)
    (hparse : parse pattern.toList = .ok ts) (h : ∀ t ∈ ts, t.IsBasic) :
    compile pattern o = .ok (compiledBasic pattern o ts) :=
  compile_map Token.token_basicStep o hparse fun t ht => (h t ht).valid

theorem faithful_compiledBasic (pattern : String) (o : Options) {ts : List Token}
    (h : ∀ t ∈ ts, t.IsBasic) : (compiledBasic pattern o ts).Faithful :=
  faithful_map Token.token_basicStep pattern o fun t ht => (h t ht).regular

/-- Where more leads are dropped than a slash at the end makes up for that does not count, and the
values have, no match reads the path. -/
theorem groups?_dropped {pattern : String} {o : Options} {ts : List Token}
    (hts : ∀ t ∈ ts, t.IsBasic) (hx : IsLead (some x)) {params : Mapping}
    (hskip : ∀ c ∈ captures ts, c.isNamed = false → (params.getD c.key.toValue).isNull = true)
    {path : String} (hpath : (compiledBasic pattern o ts).toPath params = .ok path)
    (hdrops : (if x = '/' ∧ o.strict = false ∧ endsInSlash (ts.map Token.basicStep) then 1 else 0) +
      ((captures ts).flatMap (Capture.valueText params)).count x <
        (captures ts).countP (Capture.drops x)) :
    (compiledBasic pattern o ts).groups? path = none := by
  rw [Option.eq_none_iff_forall_ne_some]
  intro gs hgs
  obtain ⟨w, rest, vs, hsplit, hw, -, -⟩ := (faithful_compiledBasic pattern o hts).groups?_sound hgs
  have hcaseless : x.toNat < Text.firstLetter := by
    rcases hx x rfl with rfl | rfl <;> decide
  -- The match would read more leads than the path has.
  have hwritten := Compiled.count_writeSteps_basic hx hts hskip (Compiled.toPath_eq_ok.1 hpath)
  have hleast := leastCount_matchedSteps x o (ts.map Token.basicStep)
  have hread : leastCount x (matchedSteps o (ts.map Token.basicStep)) ≤ w.count x :=
    hw.leastCount_le hcaseless
  rw [hsplit, List.count_append] at hwritten
  omega

/-- A path for parameters that leave out the captures without a name is matched if none of these has
a lead to drop. It is not matched if slashes are dropped, more of them than a slash at the end makes
up for that does not count, or points, more of them than there are in the values. -/
theorem compile_groups?_skipped [CharacterNames] {pattern : String} {ts : List Token}
    (hparse : parse pattern.toList = .ok ts)
    (hcaptures : ∀ c ∈ captures ts, c.IsRequired ∨ c.IsCatchAll) (o : Options) :
    ∃ p, compile pattern o = .ok p ∧ p.captures = captures ts ∧
      ∀ (params : Mapping) (path : String),
        (∀ c ∈ p.captures, c.isNamed = false → (params.getD c.key.toValue).isNull = true) →
        p.toPath params = .ok path →
          ((∀ c ∈ p.captures, c.isNamed = false → c.modifier.isOptional = true ∨ c.lead = none) →
            (p.groups? path).isSome = true) ∧
          ((if o.strict = false ∧ endsInSlash p.steps then 1 else 0) <
              p.captures.countP (Capture.drops '/') →
            p.groups? path = none) ∧
          ((p.captures.flatMap (Capture.valueText params)).count '.' <
              p.captures.countP (Capture.drops '.') →
            p.groups? path = none) := by
  have hts := isBasic_of_parse hparse hcaptures
  have hfaithful := faithful_compiledBasic pattern o hts
  refine ⟨_, compile_basic o hparse hts, rfl, fun params path hskip hpath =>
    ⟨fun hlead => ?_, fun hdrops => ?_, fun hdrops => ?_⟩⟩
  · obtain ⟨vs, hvs⟩ :=
      Compiled.writeSteps_derives_basic hts hskip hlead (Compiled.toPath_eq_ok.1 hpath)
    obtain ⟨w, rest, hsplit, hw, hend⟩ := hvs.matchedSteps o
    exact hfaithful.groups?_complete hsplit hw hend
  · refine groups?_dropped hts (fun y hy => .inl (Option.some.inj hy).symm) hskip hpath ?_
    rw [Compiled.count_slash_valueText params hcaptures, Nat.add_zero]
    have hspare : (if o.strict = false ∧ endsInSlash (ts.map Token.basicStep) then 1 else 0) <
        (captures ts).countP (Capture.drops '/') := hdrops
    simpa only [true_and] using hspare
  · refine groups?_dropped hts (fun y hy => .inr (Option.some.inj hy).symm) hskip hpath ?_
    rw [if_neg fun h => absurd h.1 (by decide), Nat.zero_add]
    exact hdrops

/-- A sub-pattern and a star right behind texts read nothing in a path without them. -/
theorem compile_groups?_skipped_user :
    ∃ p, compile "/u(.*)/:id/x*" ⟨true, true, true⟩ = .ok p ∧
      p.toPath [(.str "id", .str "a b")] = .ok "/u/a%20b/x" ∧
      (p.groups? "/u/a%20b/x").isSome = true := by
  let params : Mapping := [(.str "id", .str "a b")]
  let ts : List Token := [.literal "/u".toList,
    .capture ⟨.position 0, none, .custom ".*".toList, .once, false⟩,
    .capture ⟨.named "id", some '/', .segment, .once, false⟩, .literal "/x".toList,
    .capture ⟨.position 1, none, .anything, .once, false⟩]
  have hparse : parse "/u(.*)/:id/x*".toList = .ok ts := by rfl
  obtain ⟨p, hp, hcaptures, hread⟩ :=
    compile_groups?_skipped hparse (by decide) ⟨true, true, true⟩
  have hrun : ((compile "/u(.*)/:id/x*" ⟨true, true, true⟩).toOption.map fun p =>
      (p.toPath params).toOption) = some (some "/u/a%20b/x") := by decide +kernel
  obtain ⟨p', hp', hpath⟩ := Option.map_eq_some_iff.1 hrun
  obtain rfl := Except.ok.inj (hp.symm.trans (toOption_eq_some.1 hp'))
  have hskip : ∀ c ∈ p.captures, c.isNamed = false →
      (params.getD c.key.toValue).isNull = true := by
    rw [hcaptures]
    decide
  have hlead : ∀ c ∈ p.captures, c.isNamed = false →
      c.modifier.isOptional = true ∨ c.lead = none := by
    rw [hcaptures]
    decide
  exact ⟨p, hp, toOption_eq_some.1 hpath,
    (hread params _ hskip (toOption_eq_some.1 hpath)).1 hlead⟩

/-- A star behind a slash is left out together with the slash, and the path is not matched. -/
theorem toPath_skipped_slash :
    ∃ p, compile "/u/:id/*" ⟨false, false, true⟩ = .ok p ∧
      p.toPath [(.str "id", .str "7")] = .ok "/u/7" ∧ p.groups? "/u/7" = none ∧
      p.groups? "/u/7/" = some [some "7", some ""] := by
  have hrun : ((compile "/u/:id/*" ⟨false, false, true⟩).toOption.map fun p =>
      ((p.toPath [(.str "id", .str "7")]).toOption, p.groups? "/u/7", p.groups? "/u/7/")) =
      some (some "/u/7", none, some [some "7", some ""]) := by decide +kernel
  obtain ⟨p, hp, hfacts⟩ := Option.map_eq_some_iff.1 hrun
  obtain ⟨hpath, hfacts⟩ := Prod.mk.inj hfacts
  obtain ⟨hnone, hread⟩ := Prod.mk.inj hfacts
  exact ⟨p, toOption_eq_some.1 hp, toOption_eq_some.1 hpath, hnone, hread⟩

end SiteRouter.Pattern
