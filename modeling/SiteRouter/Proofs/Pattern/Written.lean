import SiteRouter.Proofs.Pattern.Default
import SiteRouter.Proofs.Pattern.Tokens
import SiteRouter.Proofs.Pattern.Writing
import SiteRouter.Text.BasicLatin

/-!
# A pattern reads what it writes

Writing a path and matching one read the same tokens through different cases. Here the text that
each step writes is shown to be one that the step takes, so that a written path has a derivation
(`writeSteps_derives`), and a derivation of all steps is one of the steps as they are matched
(`Derives.matchedSteps`). By the completeness of matching the pattern then matches the path.
-/

namespace SiteRouter.Pattern

variable {ignoreCase : Bool}

/-! ## Derivations up to a slash at the end -/

/-- A text with a slash at its end is only the same as another with a slash at its end. -/
theorem sameText_concat_slash {t u : List Char} :
    SameText ignoreCase (t ++ ['/']) u ↔ ∃ u', u = u' ++ ['/'] ∧ SameText ignoreCase t u' := by
  constructor
  · intro h
    induction t generalizing u with
    | nil =>
      obtain _ | ⟨hx, _ | _⟩ := h
      rw [Regex.fitsCode_caseless_left ignoreCase (by decide)] at hx
      exact ⟨[], by rw [hx]; rfl, .nil⟩
    | cons a t ih =>
      obtain _ | ⟨hx, ht⟩ := h
      obtain ⟨u', rfl, hu'⟩ := ih ht
      exact ⟨_ :: u', rfl, .cons hx hu'⟩
  · rintro ⟨u', rfl, hu'⟩
    exact List.rel_append hu' (SameText.refl ignoreCase ['/'])

/-- Where the last literal ends in a slash, so does the text that is derived. -/
theorem derives_concat_slash {init : List Step} {t w : List Char}
    {vs : List (Option (List Char))} :
    Derives ignoreCase (init ++ [.literal (t ++ ['/'])]) w vs ↔
      ∃ w', w = w' ++ ['/'] ∧ Derives ignoreCase (init ++ [.literal t]) w' vs := by
  simp only [derives_append_iff, derives_literal_alone, sameText_concat_slash]
  constructor
  · rintro ⟨u, _, us, us', rfl, rfl, hu, ⟨u', rfl, ht⟩, hus⟩
    exact ⟨u ++ u', (List.append_assoc ..).symm, u, u', us, us', rfl, rfl, hu, ht, hus⟩
  · rintro ⟨_, rfl, u, u', us, us', rfl, rfl, hu, ht, hus⟩
    exact ⟨u, u' ++ ['/'], us, us', List.append_assoc .., rfl, hu, ⟨u', rfl, ht⟩, hus⟩

/-- A derivation of all steps leaves at most a slash that does not count. -/
theorem Derives.matchedSteps (o : Options) {ss : List Step} {w : List Char}
    {vs : List (Option (List Char))} (h : Derives ignoreCase ss w vs) :
    ∃ w' rest, w = w' ++ rest ∧ Derives ignoreCase (matchedSteps o ss) w' vs ∧
      EndsAt o (endsInSlash ss) rest := by
  rcases matchedSteps_cases o ss with hsame | ⟨hstrict, init, t, rfl, hdropped⟩
  -- All steps are matched, and nothing is left.
  · rw [hsame]
    exact ⟨w, [], (List.append_nil w).symm, h, .inl (stopsAt_nil o _)⟩
  -- The slash that the last literal read is left.
  · obtain ⟨w', rfl, hw'⟩ := derives_concat_slash.1 h
    rw [hdropped]
    exact ⟨w', ['/'], rfl, hw', .inr ⟨hstrict, rfl⟩⟩

/-! ## What a step writes it takes -/

/-- What the value of a capture must be for the capture to read what it writes. -/
structure Capture.Suits (c : Capture) (v : Value) : Prop where
  /-- A star behind a lead has a value. -/
  star : c.isStar = true → c.lead ≠ none → v.isNull = false
  /-- Several elements have a lead between them. -/
  several : ∀ items, v.sequence? = some items → 2 ≤ items.length → c.lead ≠ none
  /-- A capture that may be left out and shares its segment has no empty sequence. -/
  empty : c.shared = true → c.modifier.isOptional = true → v.sequence? ≠ some []

namespace Capture

variable {c : Capture}

/-- One value, of a capture that is repeated or not. -/
theorem takes_one {segment : Regex} {v : List Char} (h : segment.Spells ignoreCase v) :
    c.Takes ignoreCase segment (c.leadText ++ v) (some v) :=
  ⟨rfl, v, [], h, nofun, fun _ => rfl, (List.append_nil v).symm⟩

/-- Between two values stands the lead, if there is one. -/
theorem leadText_eq (h : c.lead ≠ none) : c.leadText = [c.delimiter] := by
  unfold leadText delimiter
  cases hlead : c.lead with
  | none => exact absurd hlead h
  | some x => rfl

/-- Several values of a repeated capture with a lead. -/
theorem takes_several {segment : Regex} {u : List Char} {us : List (List Char)}
    (hrepeated : c.modifier.isRepeated = true) (hlead : us ≠ [] → c.lead ≠ none)
    (h : ∀ u' ∈ u :: us, segment.Spells ignoreCase u') :
    c.Takes ignoreCase segment (c.leadText ++ (u ++ us.flatMap (c.delimiter :: ·)))
      (some (u ++ us.flatMap (c.delimiter :: ·))) := by
  rw [List.forall_mem_cons] at h
  refine ⟨rfl, u, us, h.1, h.2, fun hnot => absurd (hrepeated.symm.trans hnot) nofun, ?_⟩
  cases us with
  | nil => rfl
  | cons u' us =>
    rw [leadText_eq (hlead (List.cons_ne_nil u' us))]
    rfl

end Capture

namespace Compiled

variable {p : Compiled} {c : Capture} {v : Value} {text : List Char}

/-- A capture without a sub-pattern reads a text if it fits. -/
theorem matchesAll_default (c : Capture) (text : List Char) :
    c.defaultExpr.matchesAll p.ignoreCase text = true ↔ c.defaultExpr.Spells p.ignoreCase text :=
  Regex.matchesAll_iff_spells p.ignoreCase (Capture.IsDefault.isRegular c) text

/-- A star that reads nothing takes nothing, if it has no lead. -/
theorem takes_nothing (hc : c.IsDefault) (hlead : c.isStar = true → c.lead = none)
    (hempty : c.defaultExpr.matchesAll p.ignoreCase [] = true) :
    c.Takes p.ignoreCase c.defaultExpr [] (some []) := by
  have hspells := (matchesAll_default c []).1 hempty
  have hfits := (hc.spells p.ignoreCase []).1 hspells
  -- A parameter reads no empty text, so this is a star.
  have hstar : c.isStar = true := by
    by_contra hstar
    rw [Capture.Fits, if_neg hstar] at hfits
    exact hfits.1 rfl
  have htakes := Capture.takes_one (c := c) hspells
  rwa [Capture.leadText, hlead hstar] at htakes

/-- Elements that a capture without a sub-pattern may read are taken together. -/
theorem takes_elements {item : Value} {items : List Value} (hrepeated : c.modifier.isRepeated = true)
    (hlead : 2 ≤ (item :: items).length → c.lead ≠ none)
    (hmatches : ∀ i ∈ item :: items, c.defaultExpr.matchesAll p.ignoreCase (encodeElement i) = true) :
    ∃ u, c.Takes p.ignoreCase c.defaultExpr
      (c.leadText ++ (encodeElement item ++ items.flatMap fun i => c.delimiter :: encodeElement i))
      u := by
  -- Each element is a value of its own.
  have hspells : ∀ u ∈ encodeElement item :: items.map encodeElement,
      c.defaultExpr.Spells p.ignoreCase u := by
    intro u hu
    obtain ⟨i, hi, rfl⟩ := List.mem_map.1 (List.map_cons ▸ hu)
    exact (matchesAll_default c _).1 (hmatches i hi)
  -- Where there is an element after the first, the lead stands before it.
  have hlead : items.map encodeElement ≠ [] → c.lead ≠ none := by
    intro hne
    apply hlead
    have := List.length_pos_iff.2 hne
    rw [List.length_map] at this
    rw [List.length_cons]
    omega
  have htakes := Capture.takes_several hrepeated hlead hspells
  rw [List.flatMap_map] at htakes
  exact ⟨_, htakes⟩

/-- What a capture without a sub-pattern writes it takes. -/
theorem Writes.takes (hc : c.IsDefault) (hv : c.Suits v)
    (h : p.Writes c c.defaultExpr v text) : ∃ u, c.Takes p.ignoreCase c.defaultExpr text u := by
  cases h with
  | absent hnull hoptional => exact ⟨none, hoptional, rfl⟩
  | nothing hnull hoptional hnamed hempty =>
    have hlead : c.isStar = true → c.lead = none := by
      intro hstar
      by_contra hlead
      rw [hv.star hstar hlead] at hnull
      cases hnull
    exact ⟨_, takes_nothing hc hlead hempty⟩
  | empty hnull hitems hrepeated hoptional =>
    refine ⟨none, hoptional, ?_⟩
    cases hshared : c.shared with
    | false => rfl
    | true => exact absurd hitems (hv.empty hshared hoptional)
  | elements hnull hitems hrepeated hmatches =>
    exact takes_elements hrepeated (hv.several _ hitems) hmatches
  | single hnull hitems hmatches =>
    exact ⟨_, Capture.takes_one ((matchesAll_default c _).1 hmatches)⟩

/-- Where each capture takes what it writes, what the steps write in turn can be derived from
them. -/
theorem derives_of_writeSteps {params : Mapping} {ss : List Step}
    (htakes : ∀ c segment text, Step.capture c segment ∈ ss →
      p.Writes c segment (params.getD c.key.toValue) text →
        ∃ v, c.Takes p.ignoreCase segment text v) {w : List Char}
    (h : p.writeSteps params ss = .ok w) : ∃ vs, Derives p.ignoreCase ss w vs := by
  induction ss generalizing w with
  | nil =>
    cases h
    exact ⟨[], .nil⟩
  | cons s ss ih =>
    obtain ⟨u, u', hu, hu', rfl⟩ := writeSteps_cons_eq_ok.1 h
    obtain ⟨vs, hvs⟩ := ih (fun c segment text hmem => htakes c segment text (.tail s hmem)) hu'
    cases s with
    | literal t =>
      cases hu
      exact ⟨vs, .literal (SameText.refl _ u) hvs⟩
    | capture c segment =>
      obtain ⟨v, hv⟩ := htakes c segment u (.head ss) (writeCapture_eq_ok.1 hu)
      exact ⟨v :: vs, .capture hv hvs⟩

/-- What tokens write in turn can be derived from them. -/
theorem writeSteps_derives {params : Mapping} {ts : List Token} (hts : ∀ t ∈ ts, t.IsDefault)
    (hsuits : ∀ c ∈ Pattern.captures ts, c.Suits (params.getD c.key.toValue)) {w : List Char}
    (h : p.writeSteps params (ts.map Token.defaultStep) = .ok w) :
    ∃ vs, Derives p.ignoreCase (ts.map Token.defaultStep) w vs := by
  refine derives_of_writeSteps (fun c segment text hmem hwrites => ?_) h
  obtain ⟨t, ht, hstep⟩ := List.mem_map.1 hmem
  cases t with
  | literal t => cases hstep
  | capture c =>
    cases hstep
    exact hwrites.takes (hts _ ht) (hsuits c (List.mem_filterMap.2 ⟨_, ht, rfl⟩))

end Compiled

/-! ## Every written path is matched -/

/-- The tokens of a pattern whose captures have no sub-pattern. -/
theorem isDefault_of_parse {cs : List Char} {ts : List Token} (h : parse cs = .ok ts)
    (hbody : ∀ c ∈ captures ts, c.body = .segment ∨ c.body = .anything) :
    ∀ t ∈ ts, t.IsDefault := by
  intro t ht
  have hwell := parse_wellFormed h t ht
  cases t with
  | literal text => exact hwell
  | capture c =>
    have hmem : c ∈ captures ts := List.mem_filterMap.2 ⟨_, ht, rfl⟩
    refine ⟨fun text htext => ?_, Capture.WellFormed.lead hwell⟩
    rcases hbody c hmem with hc | hc <;> rw [hc] at htext <;> cases htext

/-- A pattern whose captures have no sub-pattern compiles, and matches every path that it writes
for parameters that suit its captures. -/
theorem compile_matches_toPath [CharacterNames] {pattern : String} {ts : List Token}
    (hparse : parse pattern.toList = .ok ts)
    (hbody : ∀ c ∈ captures ts, c.body = .segment ∨ c.body = .anything) (o : Options) :
    ∃ p, compile pattern o = .ok p ∧ ∀ (params : Mapping) (path : String),
      (∀ c ∈ captures ts, c.Suits (params.getD c.key.toValue)) →
      p.toPath params = .ok path → (p.groups? path).isSome = true := by
  have hts := isDefault_of_parse hparse hbody
  refine ⟨_, compile_default o hparse hts, fun params path hsuits hpath => ?_⟩
  have hfaithful := faithful_compiledDefault pattern o hts
  -- What was written has a derivation, up to a slash at the end that may not count.
  obtain ⟨vs, hvs⟩ := Compiled.writeSteps_derives hts hsuits (Compiled.toPath_eq_ok.1 hpath)
  obtain ⟨w, rest, hsplit, hw, hend⟩ := hvs.matchedSteps o
  exact hfaithful.groups?_complete hsplit hw hend

/-- A pattern with a repeated parameter and a star writes a path, and matches it. -/
theorem compile_matches_toPath_tags :
    ∃ p, compile "/tags/:tag+/*" ⟨false, false, true⟩ = .ok p ∧
      p.toPath [(.str "tag", .list [.str "a", .str "b c"]), (.int 0, .str "x/y")]
        = .ok "/tags/a/b%20c/x/y" ∧
      (p.groups? "/tags/a/b%20c/x/y").isSome = true := by
  let ts : List Token :=
    [.literal "/tags".toList, .capture ⟨.named "tag", some '/', .segment, .repeated, false⟩,
      .capture ⟨.position 0, some '/', .anything, .once, false⟩]
  have hparse : parse "/tags/:tag+/*".toList = .ok ts := by rfl
  have hbody : ∀ c ∈ captures ts, c.body = .segment ∨ c.body = .anything := by decide
  obtain ⟨p, hp, hmatches⟩ := compile_matches_toPath hparse hbody ⟨false, false, true⟩
  have hcompiled := compile_default ⟨false, false, true⟩ hparse (isDefault_of_parse hparse hbody)
  cases hp.symm.trans hcompiled
  have hpath : (compiledDefault "/tags/:tag+/*" ⟨false, false, true⟩ ts).toPath
      [(.str "tag", .list [.str "a", .str "b c"]), (.int 0, .str "x/y")]
        = .ok "/tags/a/b%20c/x/y" := by rfl
  refine ⟨_, hp, hpath, hmatches _ _ ?_ hpath⟩
  intro c hc
  have hcaptures : ⟨.named "tag", some '/', .segment, .repeated, false⟩ = c ∨
      ⟨.position 0, some '/', .anything, .once, false⟩ = c := by
    simpa [captures, ts, Token.capture?] using hc
  rcases hcaptures with rfl | rfl
  · exact ⟨fun h => absurd h (by decide), fun _ _ _ => Option.some_ne_none '/',
      fun h => absurd h (by decide)⟩
  · exact ⟨fun _ _ => rfl, fun _ _ _ => Option.some_ne_none '/', fun h => absurd h (by decide)⟩

end SiteRouter.Pattern
