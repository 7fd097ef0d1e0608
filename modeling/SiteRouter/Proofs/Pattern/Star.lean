import SiteRouter.Proofs.Pattern.Values
import SiteRouter.Text.BasicLatin

/-!
# A star at the end of a pattern

A star behind a slash takes all that is left of a path, be it slashes or a slash at the end that
does not count: of the places that the star reaches, the end of the path comes first
(`head?_slashStar`). So where texts and parameters that take one part each stand before the star, a
path is these parts, a slash and the value of the star (`Fixed.groups?_eq_some_iff`). A text that is
written for the star is escaped, but for its slashes, and reading the escapes gives it back
(`compile_star`).
-/

namespace SiteRouter.Pattern

open Regex (Cursor ends endsAll)

variable {ignoreCase : Bool}

/-- The first star of a pattern, where it stands behind a slash at the end. -/
def Capture.slashStar : Capture := ⟨.position 0, some '/', .anything, .once, false⟩

/-- The step of the star. -/
def Step.slashStar : Step := .capture Capture.slashStar Capture.slashStar.defaultExpr

theorem isDefault_slashStar : Capture.slashStar.IsDefault :=
  ⟨nofun, by rintro x ⟨⟩; exact .inl rfl⟩

theorem regular_slashStar : Step.slashStar.Regular :=
  Token.IsDefault.regular (t := .capture Capture.slashStar) isDefault_slashStar

/-- The star takes a slash and anything without a line feed. -/
theorem takes_slashStar_iff {w : List Char} {v : Option (List Char)} :
    Capture.slashStar.Takes ignoreCase Capture.slashStar.defaultExpr w v ↔
      ∃ text, w = '/' :: text ∧ v = some text ∧ '\n' ∉ text := by
  rw [Capture.takes_once_iff rfl]
  simp only [isDefault_slashStar.spells]
  rfl

/-- Before a slash and a text without a line feed the first place that the star reaches is the end
of the text. -/
theorem head?_slashStar (ignoreCase : Bool) (n : Nat) {cur : Cursor} {text : List Char}
    (hcur : cur.rest = '/' :: text) (htext : '\n' ∉ text) :
    (endsAll ignoreCase (Capture.slashStar.exprs Capture.slashStar.defaultExpr n) cur).head? =
      some (recorded (cur.reading ('/' :: text) []) (n + 1) (some text)) := by
  -- The slash is read, and then the star goes on as far as it can.
  have hslash : (endsAll ignoreCase (literalExprs ['/']) cur).head? =
      some (cur.reading ['/'] text) :=
    head?_literalExprs ignoreCase (SameText.refl ignoreCase ['/']) hcur
  have hpass : ∀ x ∈ text, (x != '\n') = true :=
    fun x hx => bne_iff_ne.2 (ne_of_mem_of_not_mem hx htext)
  have hafter : (cur.reading ['/'] text).rest = text ++ [] := (List.append_nil text).symm
  have hstop : ∀ x, ([] : List Char).head? = some x → (x != '\n') = false := by
    rintro x ⟨⟩
  have hall : (ends ignoreCase Capture.slashStar.defaultExpr (cur.reading ['/'] text)).head? =
      some ((cur.reading ['/'] text).reading text []) :=
    Regex.head?_repeated_one hpass hstop (Nat.zero_le _) hafter
  have hgroup := head?_group ignoreCase hafter hall (n + 1)
  rw [Cursor.reading_reading] at hgroup
  show (endsAll ignoreCase
    (literalExprs ['/'] ++ [.group (n + 1) Capture.slashStar.defaultExpr]) cur).head? = _
  rw [Regex.endsAll_append, Regex.endsAll_singleton]
  exact Regex.head?_flatMap hslash hgroup

/-- Where the star and the end of a match can be read, the star takes all that is left. -/
theorem eq_of_head?_slashStar_end {o : Options} (hend : o.toEnd = true) {slash : Bool} {n : Nat}
    {m cur : Cursor}
    (h : ((endsAll ignoreCase (Capture.slashStar.exprs Capture.slashStar.defaultExpr n) m).flatMap
      (endsAll ignoreCase (endExprs o slash))).head? = some cur) :
    ∃ text, m.rest = '/' :: text ∧ '\n' ∉ text ∧
      cur = recorded (m.reading ('/' :: text) []) (n + 1) (some text) := by
  obtain ⟨m', hm', hcur⟩ := List.mem_flatMap.1 (List.mem_of_head? h)
  obtain ⟨w, v, rest, hrest, htakes, rfl⟩ :=
    (mem_ends_capture ignoreCase regular_slashStar n m m').1 hm'
  obtain ⟨text, rfl, rfl, htext⟩ := takes_slashStar_iff.1 htakes
  -- What the star leaves is nothing or a slash, which it may take as well.
  have hleft : rest = [] ∨ (o.strict = false ∧ rest = ['/']) := by
    have hends : EndsAt o slash rest := ((mem_ends_endExprs ignoreCase o slash _ cur).1 hcur).imp
      And.right fun h => ⟨h.1, h.2.1⟩
    exact (endsAt_toEnd hend).1 hends
  have hall : '\n' ∉ text ++ rest := by
    rw [List.mem_append]
    rintro (hmem | hmem)
    · exact htext hmem
    · rcases hleft with rfl | ⟨-, rfl⟩
      · cases hmem
      · exact absurd hmem (by decide)
  have hrest : m.rest = '/' :: (text ++ rest) := hrest
  have hlast := Regex.head?_flatMap (head?_slashStar ignoreCase n hrest hall)
    (head?_endExprs ignoreCase o slash rfl)
  exact ⟨text ++ rest, hrest, hall, Option.some.inj (h.symm.trans hlast)⟩

/-! ## Matches with a star at the end -/

section

variable {p : Compiled} {init : List Step} (hp : p.Faithful) (hend : p.options.toEnd = true)
  (hsteps : p.steps = init ++ [Step.slashStar])

include hsteps

/-- All steps are matched. -/
theorem matchedSteps_slashStar : matchedSteps p.options p.steps = init ++ [Step.slashStar] := by
  have hslash : endsInSlash (init ++ [Step.slashStar]) = false := by
    unfold endsInSlash
    rw [List.getLast?_concat]
    rfl
  rw [hsteps]
  exact matchedSteps_of_not_endsInSlash p.options hslash

include hp hend

/-- A match reads what the steps before the star derive, a slash and all that is left, which is the
last group. -/
theorem exists_of_groups?_slashStar {path : String} {gs : List (Option String)}
    (h : p.groups? path = some gs) :
    ∃ w vs text, path.toList = w ++ '/' :: text ∧ Derives p.ignoreCase init w vs ∧
      '\n' ∉ text ∧ gs = (vs ++ [some text]).map (Option.map String.ofList) := by
  have hregular := hp.regular
  rw [hsteps, List.forall_mem_append] at hregular
  rw [Compiled.groups?, Option.map_eq_some_iff] at h
  obtain ⟨cur, hcur, rfl⟩ := h
  -- The first place of all is the first one after some place behind the other steps.
  rw [Regex.matchStart_eq_head?, hp.program, ends_program, matchedSteps_slashStar hsteps,
    stepExprs_append, Regex.endsAll_append, List.flatMap_assoc] at hcur
  obtain ⟨m, hm, hcur⟩ := Regex.exists_of_head?_flatMap hcur
  obtain ⟨w, vs, hpath, hw, hkept⟩ := derives_of_mem_ends p.ignoreCase hregular.1 0 hm
  have hstar : stepExprs (0 + groupCount init) [Step.slashStar] =
      Capture.slashStar.exprs Capture.slashStar.defaultExpr vs.length := by
    rw [hw.length_eq, Nat.zero_add, stepExprs]
    exact List.append_nil _
  rw [hstar] at hcur
  obtain ⟨text, hrest, htext, rfl⟩ := eq_of_head?_slashStar_end hend hcur
  rw [hrest] at hpath
  refine ⟨w, vs, text, hpath, hw, htext, ?_⟩
  -- The text is kept for the group after those of the other steps.
  have hcount : p.program.groups = (vs ++ [some text]).length := by
    rw [hp.program, hsteps, List.length_append, hw.length_eq]
    exact groupCount_append init [Step.slashStar]
  rw [hcount]
  refine congrArg (List.map (Option.map String.ofList)) (groups_of_kept (hkept.append ?_))
  rw [Nat.zero_add]
  exact kept_recorded _ _ (m.reading ('/' :: text) [])

/-- A path is matched if the steps before the star derive what stands before a slash and a text. -/
theorem isSome_groups?_slashStar {path : String} {w text : List Char}
    {vs : List (Option (List Char))} (hpath : path.toList = w ++ '/' :: text)
    (hw : Derives p.ignoreCase init w vs) (htext : '\n' ∉ text) :
    (p.groups? path).isSome = true := by
  have hstar : Derives p.ignoreCase [Step.slashStar] ('/' :: text ++ []) [some text] :=
    .capture (takes_slashStar_iff.2 ⟨text, rfl, rfl, htext⟩) .nil
  rw [List.append_nil] at hstar
  have hall := derives_append_iff.2 ⟨w, '/' :: text, vs, [some text], rfl, rfl, hw, hstar⟩
  rw [← matchedSteps_slashStar hsteps] at hall
  refine hp.groups?_complete (hpath.trans (List.append_nil _).symm) hall ?_
  exact (endsAt_toEnd hend).2 (.inl rfl)

end

/-! ## Segments before a star -/

/-- Segments that take one part each, with different names. -/
structure Fixed (ss : List Segment) : Prop where
  /-- The segments can be written. -/
  wellFormed : ∀ s ∈ ss, s.WellFormed
  /-- No parameter has a sub-pattern. -/
  noBody : ∀ s ∈ ss, s.body? = none
  /-- No parameter has a modifier. -/
  unmodified : ∀ s ∈ ss, s.isModified = false
  /-- No name is used twice. -/
  names : (ss.filterMap Segment.name?).Nodup

instance (ss : List Segment) : Decidable (Fixed ss) :=
  decidable_of_iff ((∀ s ∈ ss, s.WellFormed) ∧ (∀ s ∈ ss, s.body? = none) ∧
      (∀ s ∈ ss, s.isModified = false) ∧ (ss.filterMap Segment.name?).Nodup)
    ⟨fun ⟨a, b, c, d⟩ => ⟨a, b, c, d⟩, fun ⟨a, b, c, d⟩ => ⟨a, b, c, d⟩⟩

/-- The pattern of segments with a star behind them. -/
def Segment.starPattern (ss : List Segment) : String := String.ofList (textAll ss ++ "/*".toList)

/-- The tokens of segments with a star behind them. -/
def Segment.starTokens (ss : List Segment) : List Token := tokens ss ++ [.capture .slashStar]

/-- The compiled form of such a pattern. -/
def compiledStar (ss : List Segment) (o : Options) : Compiled :=
  compiledDefault (Segment.starPattern ss) o (Segment.starTokens ss)

/-- A capture without a name ends the literal that is open, and is the last token. -/
theorem Reader.finish_addUnnamed (r : Reader) (lead : Option Char) (body : Body) (m : Modifier)
    (next : Option Char) : (r.addUnnamed lead body m next).finish =
      r.finish ++ [.capture ⟨.position r.unnamed, lead, body, m, sharesSegment lead next⟩] :=
  List.reverse_cons

namespace Fixed

variable {ss : List Segment}

/-- The star is read as the last token. -/
theorem parse_starPattern (h : Fixed ss) :
    parse (Segment.starPattern ss).toList = .ok (Segment.starTokens ss) := by
  obtain ⟨r, hr, hunnamed, hfinish⟩ := Reader.readAll_segments h.wellFormed .start h.names nofun
    (atSlash_cons ['*'])
  have hstar : pieces ['/', '*'] = [.capture (some '/') .star .once none] := by rfl
  have hread : r.readAll (pieces ['/', '*']) =
      .ok (r.addUnnamed (some '/') .anything .once none) := by
    rw [hstar]
    rfl
  rw [Segment.starPattern, String.toList_ofList, parse]
  show (Reader.start.readAll (pieces (Segment.textAll ss ++ ['/', '*']))).map _ = _
  rw [hr, hread]
  show Except.ok (r.addUnnamed (some '/') .anything .once none).finish = _
  rw [r.finish_addUnnamed, hunnamed, hfinish]
  rfl

/-- Neither the parameters nor the star have a sub-pattern. -/
theorem isDefault (h : Fixed ss) : ∀ t ∈ Segment.starTokens ss, t.IsDefault :=
  List.forall_mem_append.2 ⟨isDefault_tokens h.noBody,
    List.forall_mem_singleton.2 isDefault_slashStar⟩

/-- The segments with a star behind them compile. -/
theorem compile_eq [CharacterNames] (h : Fixed ss) (o : Options) :
    compile (Segment.starPattern ss) o = .ok (compiledStar ss o) :=
  compile_default o h.parse_starPattern h.isDefault

theorem steps_compiledStar (ss : List Segment) (o : Options) : (compiledStar ss o).steps =
    (Segment.tokens ss).map Token.defaultStep ++ [Step.slashStar] :=
  List.map_append

/-- Segments without modifiers settle which parts they take, and so what is left for the star. -/
theorem shares_unique (h : Fixed ss) {ps qs : List (List Char)} {vs us : List (Option (List Char))}
    {text text' : List Char} (hps : ∀ u ∈ ps, IsPart u) (hqs : ∀ u ∈ qs, IsPart u)
    (hshares : Shares ignoreCase ss ps vs) (hshares' : Shares ignoreCase ss qs us)
    (hpath : slashed ps ++ '/' :: text = slashed qs ++ '/' :: text') : vs = us ∧ text = text' := by
  have hlength : ps.length = qs.length := by
    rw [hshares.length_eq h.unmodified, hshares'.length_eq h.unmodified]
  obtain ⟨rfl, htext⟩ := slashed_append_inj_of_length hps hqs hlength (atSlash_cons text)
    (atSlash_cons text') hpath
  have hnone : ss.filter Segment.isModified = [] :=
    List.filter_eq_nil_iff.2 fun s hs => Bool.eq_false_iff.1 (h.unmodified s hs)
  refine ⟨hshares.unique ?_ hshares', (List.cons.inj htext).2⟩
  rw [hnone]
  exact Nat.zero_le 1

/-- A path is matched if it is parts that the segments take, a slash and a text without a line feed,
and this text is the last group. -/
theorem groups?_eq_some_iff (h : Fixed ss) {o : Options} (hend : o.toEnd = true) {path : String}
    {gs : List (Option String)} :
    (compiledStar ss o).groups? path = some gs ↔
      ∃ ps vs text, path.toList = slashed ps ++ '/' :: text ∧ (∀ u ∈ ps, IsPart u) ∧
        Shares (!o.sensitive) ss ps vs ∧ '\n' ∉ text ∧
        gs = (vs ++ [some text]).map (Option.map String.ofList) := by
  have hfaithful : (compiledStar ss o).Faithful := faithful_compiledDefault _ o h.isDefault
  have hsteps := steps_compiledStar ss o
  have hderives : ∀ {w vs},
      Derives (!o.sensitive) ((Segment.tokens ss).map Token.defaultStep) w vs ↔
      ∃ ps, (∀ u ∈ ps, IsPart u) ∧ w = slashed ps ∧ Shares (!o.sensitive) ss ps vs :=
    derives_tokens_iff fun s hs => ⟨h.wellFormed s hs, h.noBody s hs⟩
  have hsound : ∀ {gs}, (compiledStar ss o).groups? path = some gs →
      ∃ ps vs text, path.toList = slashed ps ++ '/' :: text ∧ (∀ u ∈ ps, IsPart u) ∧
        Shares (!o.sensitive) ss ps vs ∧ '\n' ∉ text ∧
        gs = (vs ++ [some text]).map (Option.map String.ofList) := by
    intro gs hgs
    obtain ⟨w, vs, text, hpath, hw, htext, rfl⟩ :=
      exists_of_groups?_slashStar hfaithful hend hsteps hgs
    obtain ⟨ps, hps, rfl, hshares⟩ := hderives.1 hw
    exact ⟨ps, vs, text, hpath, hps, hshares, htext, rfl⟩
  refine ⟨hsound, ?_⟩
  rintro ⟨ps, vs, text, hpath, hps, hshares, htext, rfl⟩
  have hw := hderives.2 ⟨ps, hps, rfl, hshares⟩
  obtain ⟨gs, hgs⟩ := Option.isSome_iff_exists.1
    (isSome_groups?_slashStar hfaithful hend hsteps hpath hw htext)
  -- The path is read in no other way.
  obtain ⟨qs, us, text', hpath', hqs, hshares', -, rfl⟩ := hsound hgs
  obtain ⟨rfl, rfl⟩ := h.shares_unique hps hqs hshares hshares' (hpath.symm.trans hpath')
  exact hgs

/-! ## Paths with a text for the star -/

/-- A line feed is escaped in a text for the star. -/
theorem newline_not_mem (t : List Char) : '\n' ∉ Text.Percent.encodeChars starSafe t :=
  Text.Percent.not_mem_encodeChars (by decide) (by decide) (by decide) t

/-- A text for the star is written behind the slash, with escapes. -/
theorem writeCapture_slashStar (p : Compiled) (v : String) :
    p.writeCapture Capture.slashStar Capture.slashStar.defaultExpr (.str v) =
      .ok ('/' :: Text.Percent.encodeChars starSafe v.toList) := by
  have hspells := (isDefault_slashStar.spells p.ignoreCase _).2 (newline_not_mem v.toList)
  have hmatches := (Compiled.matchesAll_default _ _).2 hspells
  exact Compiled.writeCapture_eq_ok.2 (.single rfl rfl hmatches (Value.isWritable_str v))

/-- Each parameter takes one value. -/
theorem captures_tokens_eq (h : Fixed ss) : captures (Segment.tokens ss) =
    (ss.filterMap Segment.name?).map (Segment.capture · none .once) := by
  rw [captures_tokens, List.map_filterMap]
  refine List.filterMap_congr fun s hs => ?_
  have hbody := h.noBody s hs
  have hmodifier := h.unmodified s hs
  cases s with
  | literal t => rfl
  | parameter name body m =>
    obtain rfl : body = none := hbody
    obtain rfl : m = .once := by simpa [Segment.isModified] using hmodifier
    rfl

/-- A path can be written where each parameter has one value whose text has characters, whatever the
text for the star. -/
theorem exists_toPath_iff (h : Fixed ss) (o : Options) {params : Mapping} {v : String}
    (hv : params.getD (.int 0) = .str v) :
    (∃ path, (compiledStar ss o).toPath params = .ok path) ↔
      ∀ name ∈ ss.filterMap Segment.name?,
        (paramOf params name).IsSingle ∧ (paramOf params name).HasText := by
  have hstar : ∃ text, (compiledStar ss o).writeStep params
      (Token.defaultStep (.capture .slashStar)) = .ok text := by
    show ∃ text, (compiledStar ss o).writeCapture Capture.slashStar
      Capture.slashStar.defaultExpr (params.getD (.int 0)) = .ok text
    rw [hv, writeCapture_slashStar]
    exact ⟨_, rfl⟩
  have hcaptures : captures (Segment.starTokens ss) =
      (ss.filterMap Segment.name?).map (Segment.capture · none .once) ++ [.slashStar] := by
    rw [← h.captures_tokens_eq]
    exact List.filterMap_append
  have hwrites : (∃ w, (compiledStar ss o).writeSteps params (compiledStar ss o).steps = .ok w) ↔
      ∀ c ∈ captures (Segment.starTokens ss), ∃ text,
        (compiledStar ss o).writeStep params (Token.defaultStep (.capture c)) = .ok text :=
    Compiled.exists_writeSteps_map_iff fun _ => rfl
  rw [Compiled.exists_toPath_iff, hwrites, hcaptures, List.forall_mem_append,
    List.forall_mem_singleton, and_iff_left hstar, List.forall_mem_map]
  exact forall₂_congr fun name _ => (compiledStar ss o).exists_writeCapture_parameter name

/-- The text that was written for the star comes back. -/
theorem groups?_toPath (h : Fixed ss) {o : Options} (hend : o.toEnd = true) {params : Mapping}
    {v : String} (hv : params.getD (.int 0) = .str v) {path : String}
    (hpath : (compiledStar ss o).toPath params = .ok path) :
    ∃ gs last, (compiledStar ss o).groups? path = some (gs ++ [some last]) ∧
      Text.Percent.decode last = v := by
  have hwritten := Compiled.toPath_eq_ok.1 hpath
  rw [steps_compiledStar, Compiled.writeSteps_append, bind_eq_ok] at hwritten
  obtain ⟨a, ha, hwritten⟩ := hwritten
  obtain ⟨b, hb, hsplit⟩ := map_eq_ok.1 hwritten
  obtain ⟨u, u', hu, ⟨⟩, rfl⟩ := Compiled.writeSteps_cons_eq_ok.1 hb
  have hu : (compiledStar ss o).writeCapture Capture.slashStar Capture.slashStar.defaultExpr
    (params.getD (.int 0)) = .ok u := hu
  rw [hv, writeCapture_slashStar] at hu
  obtain rfl := Except.ok.inj hu
  obtain ⟨rfl, hparts, hshares⟩ :=
    Compiled.writeSteps_shares (fun s hs => ⟨h.wellFormed s hs, h.noBody s hs⟩) ha
  have hpath : path.toList = slashed (ss.flatMap (Segment.parts params)) ++
      '/' :: Text.Percent.encodeChars starSafe v.toList := by
    rw [← hsplit, List.append_nil]
  have hgroups := (h.groups?_eq_some_iff hend).2
    ⟨_, _, _, hpath, hparts, hshares, newline_not_mem v.toList, rfl⟩
  rw [List.map_append] at hgroups
  refine ⟨_, _, hgroups, ?_⟩
  rw [Text.Percent.decode, String.toList_ofList, Text.Percent.decodeChars_encodeChars (by decide),
    String.ofList_toList]

end Fixed

/-- Segments that take one part each and a star behind them compile. The pattern matches a path
exactly if it is parts that the segments take, a slash and a text without a line feed, and the last
group is this text. A path can be written for every text of the star where each parameter has one
value whose text has characters, and the last group of this path is read as the text. -/
theorem compile_star [CharacterNames] {ss : List Segment} (h : Fixed ss) (sensitive strict : Bool) :
    ∃ p, compile (Segment.starPattern ss) ⟨sensitive, strict, true⟩ = .ok p ∧
      (∀ (path : String) (gs : List (Option String)), p.groups? path = some gs ↔
        ∃ ps vs text, path.toList = slashed ps ++ '/' :: text ∧ (∀ u ∈ ps, IsPart u) ∧
          Shares (!sensitive) ss ps vs ∧ '\n' ∉ text ∧
          gs = (vs ++ [some text]).map (Option.map String.ofList)) ∧
      ∀ (params : Mapping) (v : String), params.getD (.int 0) = .str v →
        ((∃ path, p.toPath params = .ok path) ↔
          ∀ name ∈ ss.filterMap Segment.name?,
            (paramOf params name).IsSingle ∧ (paramOf params name).HasText) ∧
        ∀ path, p.toPath params = .ok path →
          ∃ gs last, p.groups? path = some (gs ++ [some last]) ∧ Text.Percent.decode last = v :=
  ⟨_, h.compile_eq _, fun _ _ => h.groups?_eq_some_iff rfl, fun _ _ hv =>
    ⟨h.exists_toPath_iff _ hv, fun _ hpath => h.groups?_toPath rfl hv hpath⟩⟩

/-- The star of `/files/:id/*` takes slashes and the slash at the end, and its text comes back. -/
theorem compile_star_files :
    ∃ p, compile "/files/:id/*" ⟨false, false, true⟩ = .ok p ∧
      p.groups? "/Files/7/a//b/" = some [some "7", some "a//b/"] ∧
      ∃ path gs last, p.toPath [(.str "id", .int 7), (.int 0, .str "?a/\n%2f/")] = .ok path ∧
        p.groups? path = some (gs ++ [some last]) ∧
        Text.Percent.decode last = "?a/\n%2f/" := by
  let ss : List Segment := [.literal "files".toList, .parameter "id".toList none .once]
  obtain ⟨p, hp, hgroups, hwrites⟩ := compile_star (show Fixed ss by decide) false false
  have hsame : SameText true "files".toList "Files".toList :=
    .cons (by decide) (SameText.refl true "iles".toList)
  have hone : Modifier.once.Allows ["7".toList].length := rfl
  have hshares : Shares true ss ["Files".toList, "7".toList] [some "7".toList] :=
    .literal hsame (.parameter hone .nil)
  have hparts : ∀ u ∈ ["Files".toList, "7".toList], u ≠ [] ∧ '/' ∉ u := by decide
  obtain ⟨haccepts, hback⟩ :=
    hwrites [(.str "id", .int 7), (.int 0, .str "?a/\n%2f/")] "?a/\n%2f/" rfl
  have hid : ∀ name ∈ ss.filterMap Segment.name?,
      (paramOf [(.str "id", .int 7), (.int 0, .str "?a/\n%2f/")] name).IsSingle ∧
        (paramOf [(.str "id", .int 7), (.int 0, .str "?a/\n%2f/")] name).HasText :=
    List.forall_mem_singleton.2 ⟨⟨rfl, rfl⟩, "7", rfl, by decide⟩
  obtain ⟨path, hpath⟩ := haccepts.2 hid
  obtain ⟨gs, last, hread, hlast⟩ := hback path hpath
  exact ⟨p, hp, (hgroups _ _).2 ⟨_, _, "a//b/".toList, rfl, hparts, hshares, by decide, rfl⟩,
    path, gs, last, hpath, hread, hlast⟩

end SiteRouter.Pattern
