import SiteRouter.Proofs.Route.Bindings
import SiteRouter.Proofs.Route.Keys
import SiteRouter.Text.BasicLatin

/-!
# Paths for what was read

A match of a plain pattern reads the escapes in a path, and what cannot be read it replaces, so the
path that is written for the parameters need not be the one that was matched: a repeated parameter
comes back as one text, and its slashes are escaped. Each text that was read has characters, though,
and a segment takes it whole. So the path can be written, and what is read in it are the same
parameters (`match?_toPath_of_match?`).
-/

namespace SiteRouter

open Text (Percent.decodeChars_ne_nil)

namespace Pattern

/-! ## What a match reads -/

/-- What a match reads for a parameter is its parts with the escapes read, if it has parts. -/
def readText? (qs : List (List Char)) : Option String :=
  (joined? qs).map fun v => Text.Percent.decode (String.ofList v)

/-- A parameter without parts is not read. -/
theorem readText?_eq_none {qs : List (List Char)} : readText? qs = none ↔ qs = [] := by
  cases qs with
  | nil => exact ⟨fun _ => rfl, fun _ => rfl⟩
  | cons q qs => simp [readText?, joined?]

/-- What is read in parts has characters. -/
theorem readText?_ne_nil {qs : List (List Char)} (hqs : ∀ u ∈ qs, IsPart u) {s : String}
    (h : readText? qs = some s) : s.toList ≠ [] := by
  cases qs with
  | nil => cases h
  | cons q qs =>
    have hq : q ≠ [] := (hqs q List.mem_cons_self).1
    rw [readText?, joined?_cons, Option.map_some] at h
    obtain rfl := Option.some.inj h
    rw [Text.Percent.decode, String.toList_ofList, String.toList_ofList]
    exact Percent.decodeChars_ne_nil (List.append_ne_nil_of_left_ne_nil hq _)

/-- The first value is bound to the name of the first parameter, if it is there. -/
theorem bind_parameter (name : List Char) (body : Option (List Char)) (m : Modifier)
    (cs : List Capture) (qs : List (List Char)) (vs : List (Option (List Char))) :
    Route.bind (Segment.capture name body m :: cs)
        ((joined? qs :: vs).map (Option.map String.ofList)) =
      ((readText? qs).map fun t => (String.ofList name, t)).toList ++
        Route.bind cs (vs.map (Option.map String.ofList)) := by
  rw [readText?]
  cases joined? qs <;> rfl

/-- The names of the captures of segments are those of the segments. -/
theorem names_captures (ss : List Segment) :
    (captures (Segment.tokens ss)).filterMap (·.key.name?) = Segment.names ss :=
  paramKeys_compiledPlain ss ⟨true, true, true⟩

/-- What a match reads can be written, and it is what the parameter is bound to then. -/
theorem Compiled.writeCapture_read (p : Compiled) {name : List Char} {m : Modifier}
    {qs : List (List Char)} (hqs : ∀ u ∈ qs, IsPart u) (hallows : m.Allows qs.length)
    {params : Mapping} (hvalue : paramOf params name = (readText? qs).elim .null .str) :
    (∃ w, p.writeCapture (Segment.capture name none m) (Segment.capture name none m).defaultExpr
        (paramOf params name) = .ok w) ∧
      Segment.binding? params (.parameter name none m) =
        (readText? qs).map fun t => (String.ofList name, t) := by
  rw [Segment.binding?, hvalue]
  cases htext : readText? qs with
  | none =>
    -- The parameter was left out, and so it is again.
    obtain rfl := readText?_eq_none.1 htext
    exact ⟨⟨_, writeCapture_null _ (m.allows_zero.1 hallows)⟩, rfl⟩
  | some t => exact ⟨⟨_, p.writeCapture_text name m (readText?_ne_nil hqs htext)⟩, rfl⟩

/-- What a match reads can be written, in every mapping that has it for the names of the segments,
and it is what such a mapping gives the parameters. -/
theorem Shares.reread (p : Compiled) {ignoreCase : Bool} {ss : List Segment}
    {ps : List (List Char)} {vs : List (Option (List Char))} (h : Shares ignoreCase ss ps vs)
    (hbody : ∀ s ∈ ss, s.body? = none) (hnames : (Segment.names ss).Nodup)
    (hps : ∀ u ∈ ps, IsPart u) {read : List (String × String)}
    (hread : Route.bind (captures (Segment.tokens ss)) (vs.map (Option.map String.ofList)) = read)
    {params : Mapping} (hparams : ∀ name ∈ Segment.names ss,
      params.getD (.str name) = (Mapping.ofTexts read).getD (.str name)) :
    (∃ w, p.writeSteps params ((Segment.tokens ss).map Token.defaultStep) = .ok w) ∧
      ss.filterMap (Segment.binding? params) = read := by
  induction h generalizing read with
  | nil => exact ⟨⟨[], rfl⟩, hread⟩
  | @literal t u ss ps vs ht h ih =>
    rw [List.forall_mem_cons] at hbody hps
    have hcaptures : captures (Segment.tokens (.literal t :: ss)) = captures (Segment.tokens ss) :=
      captures_prependLiteral _ _
    rw [hcaptures] at hread
    obtain ⟨⟨w, hw⟩, hbindings⟩ := ih hbody.2 hnames hps.2 hread hparams
    exact ⟨⟨_, (Compiled.writeSteps_prependLiteral _ _).2 ⟨w, hw, rfl⟩⟩, hbindings⟩
  | @parameter name body m ss qs ps vs hallows h ih =>
    rw [List.forall_mem_cons] at hbody
    rw [List.forall_mem_append] at hps
    obtain rfl : body = none := hbody.1
    have hnames : String.ofList name ∉ Segment.names ss ∧ (Segment.names ss).Nodup :=
      List.nodup_cons.1 hnames
    have hparams : params.getD (.str (String.ofList name)) =
          (Mapping.ofTexts read).getD (.str (String.ofList name)) ∧
        ∀ key ∈ Segment.names ss,
          params.getD (.str key) = (Mapping.ofTexts read).getD (.str key) :=
      List.forall_mem_cons.1 hparams
    -- What is read for the parameter comes before what is read for the others.
    obtain rfl := (bind_parameter name none m (captures (Segment.tokens ss)) qs vs).symm.trans hread
    generalize hrest : Route.bind (captures (Segment.tokens ss)) (vs.map (Option.map String.ofList))
      = rest at hparams ⊢
    have hname : String.ofList name ∉ rest.map Prod.fst := by
      have hsub := Route.bind_keys_sublist (captures (Segment.tokens ss))
        (vs.map (Option.map String.ofList))
      rw [names_captures, hrest] at hsub
      exact fun hmem => hnames.1 (hsub.subset hmem)
    obtain ⟨⟨w, hw⟩, hbindings⟩ := ih hbody.2 hnames.2 hps.2 hrest fun key hkey => by
      rw [hparams.2 key hkey, Mapping.getD_ofTexts_first hname,
        if_neg (ne_of_mem_of_not_mem hkey hnames.1).symm]
    have hvalue : paramOf params name = (readText? qs).elim .null .str := by
      rw [paramOf, hparams.1, Mapping.getD_ofTexts_first hname, if_pos rfl]
    obtain ⟨⟨u, hu⟩, hbinding⟩ := p.writeCapture_read hps.1 hallows hvalue
    refine ⟨⟨_, Compiled.writeSteps_cons_eq_ok.2 ⟨u, w, hu, hw, rfl⟩⟩, ?_⟩
    rw [List.filterMap_cons, hbinding, hbindings]
    cases readText? qs <;> rfl

end Pattern

namespace Route

open Pattern (Segment)

/-- Where the route of a plain pattern with at most one modifier matches a path, there is a path for
the parameters that are read, and what is read in it are the same parameters. -/
theorem match?_toPath_of_match? [CharacterNames] {ss : List Segment} (hne : ss ≠ [])
    (hss : ∀ s ∈ ss, s.WellFormed ∧ s.body? = none)
    (hone : (ss.filter Segment.isModified).length ≤ 1) {r : Route}
    (hpattern : r.pattern = Segment.pattern ss) {sensitive strict : Bool}
    (hr : Pattern.compile r.pattern ⟨sensitive, strict, true⟩ = .ok r.compiled)
    {path : String} {params : List (String × String)} (hmatch : r.match? path = some params) :
    ∃ path', r.compiled.toPath (Mapping.ofTexts params) = .ok path' ∧
      r.match? path' = some params := by
  rw [hpattern] at hr
  have hplain : Pattern.Plain ss :=
    .of_compile hne (fun s hs => (hss s hs).1) (fun s hs => (hss s hs).2) hr
  have hcompiled := Except.ok.inj (hr.symm.trans (hplain.compile_eq _))
  unfold match? at hmatch ⊢
  rw [hcompiled] at hmatch ⊢
  obtain ⟨gs, hgs, hread⟩ := Option.map_eq_some_iff.1 hmatch
  obtain ⟨ps, rest, vs, -, hps, -, hshares, rfl⟩ := (hplain.groups?_eq_some_iff hone rfl).1 hgs
  -- The parameters that are read make a path of other parts, for which they are read again.
  obtain ⟨⟨w, hw⟩, hbindings⟩ := hshares.reread (Pattern.compiledPlain ss _) hplain.noBody
    hplain.names_nodup hps hread fun _ _ => rfl
  have hpath' : (Pattern.compiledPlain ss ⟨sensitive, strict, true⟩).toPath
      (Mapping.ofTexts params) = .ok (String.ofList w) :=
    Pattern.Compiled.toPath_eq_ok.2 (by rw [String.toList_ofList]; exact hw)
  refine ⟨_, hpath', ?_⟩
  rw [hplain.groups?_toPath hone rfl hpath' (List.append_nil _).symm (.inl rfl), Option.map_some]
  exact congrArg some ((Pattern.bind_groups _ ss).trans hbindings)

/-- An octet that starts no character, a percent sign before no digits and escaped slashes: what is
read of three parts is written as one. -/
theorem match?_toPath_of_match?_docs :
    ∃ (r : Route) (path : String),
      Route.build (.str "docs") (.str "/docs/:path+/edit") .null .null (.bool false) (.bool true)
        = .ok r ∧
      r.match? "/Docs/%C3%28/a%zz/%2f/edit" = some [("path", "\uFFFD(/a%zz//")] ∧
      r.compiled.toPath (Mapping.ofTexts [("path", "\uFFFD(/a%zz//")]) = .ok path ∧
      path = "/docs/%EF%BF%BD(%2Fa%25zz%2F%2F/edit" ∧
      r.match? path = some [("path", "\uFFFD(/a%zz//")] := by
  let ss : List Segment := [.literal "docs".toList, .parameter "path".toList none .repeated,
    .literal "edit".toList]
  have hrun : ((Route.build (.str "docs") (.str "/docs/:path+/edit") .null .null (.bool false)
      (.bool true)).toOption.map fun r => (r.pattern, r.match? "/Docs/%C3%28/a%zz/%2f/edit",
        (r.compiled.toPath (Mapping.ofTexts [("path", "\uFFFD(/a%zz//")])).toOption)) =
      some (Segment.pattern ss, some [("path", "\uFFFD(/a%zz//")],
        some "/docs/%EF%BF%BD(%2Fa%25zz%2F%2F/edit") := by decide +kernel
  obtain ⟨r, hr, hfacts⟩ := Option.map_eq_some_iff.1 hrun
  have hr := toOption_eq_some.1 hr
  obtain ⟨hpattern, hfacts⟩ := Prod.mk.inj hfacts
  obtain ⟨hmatch, hpath⟩ := Prod.mk.inj hfacts
  obtain ⟨path, hwritten, hagain⟩ := match?_toPath_of_match? (show ss ≠ [] by decide)
    (by decide) (by decide) hpattern (build_compiled hr) hmatch
  obtain rfl := Except.ok.inj ((toOption_eq_some.1 hpath).symm.trans hwritten)
  exact ⟨r, _, hr, hmatch, hwritten, rfl, hagain⟩

end Route

end SiteRouter
