import SiteRouter.Proofs.Registry.Run
import SiteRouter.Text.BasicLatin

/-!
# The ways to spell a registration

A route is registered by positional arguments, with or without keywords that take their place, by a
mapping of its fields, by keywords alone, or by a registration that is made already. The four fields
are all that counts: calls that spell the same fields stand for the same registration
(`Spells.ofCall_eq_ok`), so every registry answers them alike, with the same route at the end of its
table or the same fault (`add_congr_spells`).
-/

namespace SiteRouter

namespace Registration

/-! ## Fields and keywords -/

/-- The value gives the metadata: it is the mapping of them, or nothing if there are none. -/
def GivesInfo (v : Value) (info : Mapping) : Prop := v = .map info ∨ v = .null ∧ info = []

/-- No keys but the given ones. -/
def HasOnly (options : List String) (data : Mapping) : Prop :=
  ∀ k ∈ data.keys, ∃ s ∈ options, k = .str s

/-- The fields that a mapping gives. What it leaves out is nothing, and so is an empty name. -/
structure Gives (fields : Mapping) (name pattern page : Value) (info : Mapping) : Prop where
  /-- Every key is that of a field. -/
  keys : HasOnly fieldNames fields
  /-- The name. -/
  name : orNothing (fields.getD (.str "name")) = name
  /-- The pattern. -/
  pattern : fields.getD (.str "pattern") = pattern
  /-- The page. -/
  page : fields.getD (.str "page") = page
  /-- The metadata. -/
  info : GivesInfo (fields.getD (.str "meta")) info

/-- The value under a keyword, or else the argument at a position. -/
def given (options : Mapping) (key : String) (args : List Value) (i : Nat) : Value :=
  (options.get? (.str key)).getD (args[i]?.getD .null)

/-- The calls that spell a registration with the given fields. -/
inductive Spells (name pattern page : Value) (info : Mapping) : List Value → Mapping → Prop
  /-- One argument is a mapping of the fields. -/
  | mapping {fields : Mapping} : Gives fields name pattern page info →
    Spells name pattern page info [.map fields] []
  /-- Keywords give the fields. -/
  | keywords {options : Mapping} : options ≠ [] → Gives options name pattern page info →
    Spells name pattern page info [] options
  /-- One argument is a registration. -/
  | spec : orNothing name = name →
    Spells name pattern page info [.spec name pattern page (.map info)] []
  /-- The name stands first, behind it perhaps the pattern and the page; keywords for these two come
  before the positions. -/
  | nameFirst {first : String} {rest : List Value} {options : Mapping} : name = .str first →
    first ≠ "" → first.toList.head? ≠ some '/' → rest.length ≤ 2 →
    HasOnly ["pattern", "page", "meta"] options → given options "pattern" rest 0 = pattern →
    given options "page" rest 1 = page → GivesInfo (options.getD (.str "meta")) info →
    Spells name pattern page info (.str first :: rest) options
  /-- The pattern stands first, behind it perhaps the page, and there is no name. -/
  | patternFirst {first : String} {rest : List Value} {options : Mapping} : name = .null →
    pattern = .str first → first.toList.head? = some '/' → rest.length ≤ 1 →
    HasOnly ["page", "meta"] options → given options "page" rest 0 = page →
    GivesInfo (options.getD (.str "meta")) info →
    Spells name pattern page info (.str first :: rest) options

/-- Keys that are all known are not refused. -/
theorem checkKeys_of_hasOnly {options : List String} {data : Mapping} (h : HasOnly options data) :
    checkKeys options data = .ok () := by
  have hnone : unknownKeys options data = [] := by
    unfold unknownKeys
    rw [List.filter_eq_nil_iff]
    intro k hk
    obtain ⟨s, hs, rfl⟩ := h k hk
    simpa using hs
  unfold checkKeys
  rw [hnone]

/-- A keyword that is not known has no value. -/
theorem get?_of_hasOnly {options : List String} {data : Mapping} (h : HasOnly options data)
    {key : String} (hkey : key ∉ options) : data.get? (.str key) = none := by
  induction data with
  | nil => rfl
  | cons p data ih =>
    obtain ⟨k, v⟩ := p
    have hfirst : k.same (.str key) = false := by
      obtain ⟨s, hs, rfl⟩ := h k List.mem_cons_self
      rw [Value.same_str, beq_eq_false_iff_ne]
      rintro rfl
      exact hkey hs
    have hrest : HasOnly options data := fun k' hk' => h k' (List.mem_cons_of_mem _ hk')
    rw [Mapping.get?, hfirst, if_neg Bool.false_ne_true, ih hrest]

/-- More keys may be known. -/
theorem HasOnly.mono {options options' : List String} {data : Mapping} (h : HasOnly options data)
    (hsub : options ⊆ options') : HasOnly options' data := by
  intro k hk
  obtain ⟨s, hs, rfl⟩ := h k hk
  exact ⟨s, hsub hs, rfl⟩

/-- The metadata that a value gives are the mapping that it stands for. -/
theorem GivesInfo.toMappingOrEmpty {v : Value} {info : Mapping} (h : GivesInfo v info) :
    v.toMappingOrEmpty = .ok info := by
  rcases h with rfl | ⟨rfl, rfl⟩
  · unfold Value.toMappingOrEmpty
    cases info <;> rfl
  · rfl

/-! ## Each spelling -/

variable {name pattern page : Value} {info : Mapping} {args : List Value} {options : Mapping}

/-- A mapping stands for the fields that it gives. -/
theorem ofMapping_eq_ok {fields : Mapping} (h : Gives fields name pattern page info) :
    ofMapping fields = .ok ⟨name, pattern, page, .map info, .descriptor⟩ := by
  have hread : ofMapping fields = (checkKeys fieldNames fields).bind fun _ =>
      (fields.getD (.str "meta")).toMappingOrEmpty.bind fun info =>
        .ok ⟨orNothing (fields.getD (.str "name")), fields.getD (.str "pattern"),
          fields.getD (.str "page"), .map info, .descriptor⟩ := rfl
  rw [hread, checkKeys_of_hasOnly h.keys, h.info.toMappingOrEmpty, h.name, h.pattern, h.page]
  rfl

/-- Keywords come before what the positions give. -/
theorem override_eq (r : Registration) (options : Mapping) :
    ∃ form, r.override options =
      ⟨r.name, (options.get? (.str "pattern")).getD r.pattern,
        (options.get? (.str "page")).getD r.page, r.info, form⟩ := by
  unfold override
  cases hpattern : options.get? (.str "pattern") with
  | some v => exact ⟨.descriptor, rfl⟩
  | none =>
    cases hpage : options.get? (.str "page") with
    | some v => exact ⟨.descriptor, rfl⟩
    | none => exact ⟨r.form, rfl⟩

/-- A text and at most two more arguments stand for what the positions give, where no keyword comes
before it. -/
theorem ofText_eq_ok {first : String} {rest : List Value} (hlength : rest.length ≤ 2)
    (hkeys : HasOnly ["pattern", "page", "meta"] options)
    (hinfo : GivesInfo (options.getD (.str "meta")) info) {r : Registration}
    (hr : ofPositions first (.str first :: rest) (options.has (.str "pattern")) info = .ok r) :
    ∃ form, ofText (.str first :: rest) options =
      .ok ⟨orNothing r.name, (options.get? (.str "pattern")).getD r.pattern,
        (options.get? (.str "page")).getD r.page, r.info, form⟩ := by
  obtain ⟨form, hoverride⟩ := override_eq r options
  have hfew : ¬3 < (Value.str first :: rest).length := by
    rw [List.length_cons]
    omega
  have hread : ofText (.str first :: rest) options =
      if 3 < (Value.str first :: rest).length then
        .error (Fault.raised (.unsupportedArguments (.str first :: rest)))
      else (checkKeys ["pattern", "page", "meta"] options).bind fun _ =>
        (options.getD (.str "meta")).toMappingOrEmpty.bind fun info =>
          (ofPositions first (.str first :: rest) (options.has (.str "pattern")) info).bind fun r =>
            .ok { r.override options with name := orNothing (r.override options).name } := rfl
  refine ⟨form, ?_⟩
  rw [hread, if_neg hfew, checkKeys_of_hasOnly hkeys, hinfo.toMappingOrEmpty]
  show (ofPositions first (.str first :: rest) (options.has (.str "pattern")) info).bind _ = _
  rw [hr]
  show Except.ok _ = Except.ok _
  rw [hoverride]

/-- A name at the first position is followed by the pattern and the page. -/
theorem ofPositions_name {first : String} (hslash : first.toList.head? ≠ some '/')
    {rest : List Value} (hlength : rest.length ≤ 2) (hasPattern : Bool) (info : Mapping) :
    ∃ form, ofPositions first (.str first :: rest) hasPattern info =
      .ok ⟨.str first, rest[0]?.getD .null, rest[1]?.getD .null, .map info, form⟩ := by
  unfold ofPositions
  rw [if_neg hslash]
  match rest with
  | [] => exact ⟨_, rfl⟩
  | [_] => exact ⟨_, rfl⟩
  | [_, _] => exact ⟨_, rfl⟩
  | _ :: _ :: _ :: _ =>
    simp only [List.length_cons] at hlength
    omega

/-- A pattern at the first position is followed by the page, and not given a second time. -/
theorem ofPositions_pattern {first : String} (hslash : first.toList.head? = some '/')
    {rest : List Value} (hlength : rest.length ≤ 1) (info : Mapping) :
    ofPositions first (.str first :: rest) false info =
      .ok ⟨.null, .str first, rest[0]?.getD .null, .map info, .patternPage⟩ := by
  unfold ofPositions
  rw [if_pos hslash]
  match rest with
  | [] => rfl
  | [_] => rfl
  | _ :: _ :: _ =>
    simp only [List.length_cons] at hlength
    omega

/-- A call that starts with a text is read by its positions. -/
theorem ofCall_str (first : String) (rest : List Value) (options : Mapping) :
    ofCall (.str first :: rest) options = ofText (.str first :: rest) options := rfl

/-- A call that spells fields stands for the registration with these fields. -/
theorem Spells.ofCall_eq_ok (h : Spells name pattern page info args options) :
    ∃ form, ofCall args options = .ok ⟨name, pattern, page, .map info, form⟩ := by
  cases h with
  | mapping hgives => exact ⟨_, ofMapping_eq_ok hgives⟩
  | keywords hsome hgives =>
    have hcall : ofCall [] options = ofMapping options := by
      cases options with
      | nil => exact absurd rfl hsome
      | cons p options => rfl
    exact ⟨_, hcall.trans (ofMapping_eq_ok hgives)⟩
  | spec => exact ⟨_, rfl⟩
  | nameFirst hname hne hslash hlength hkeys hpattern hpage hinfo =>
    obtain ⟨_, hpositions⟩ := ofPositions_name hslash hlength (options.has (.str "pattern")) info
    obtain ⟨form, htext⟩ := ofText_eq_ok hlength hkeys hinfo hpositions
    have hkept : ∀ first : String, first ≠ "" → orNothing (.str first) = .str first := by
      intro first hne
      have htruthy : (Value.str first).truthy = true := bne_iff_ne.2 hne
      unfold orNothing Value.orElse
      rw [if_pos htruthy]
    refine ⟨form, ?_⟩
    rw [ofCall_str, htext, hkept _ hne, hname, ← hpattern, ← hpage]
    rfl
  | patternFirst hname hfirst hslash hlength hkeys hpage hinfo =>
    have hnone : options.get? (.str "pattern") = none := get?_of_hasOnly hkeys (by decide)
    have hpositions := ofPositions_pattern hslash hlength info
    have hhas : options.has (.str "pattern") = false := by
      unfold Mapping.has
      rw [hnone]
      rfl
    rw [← hhas] at hpositions
    obtain ⟨form, htext⟩ := ofText_eq_ok (Nat.le_succ_of_le hlength) (hkeys.mono (by simp)) hinfo
      hpositions
    refine ⟨form, ?_⟩
    rw [ofCall_str, htext, hnone, hname, hfirst, ← hpage]
    rfl

end Registration

namespace Registry

open Registration (Spells)

variable {name pattern page : Value} {info : Mapping}

/-- A call that spells fields is decided by these fields alone. -/
theorem add_of_spells [CharacterNames] (g : Registry) {args : List Value} {options : Mapping}
    (h : Spells name pattern page info args options) :
    g.add args options = g.verdict ⟨name, pattern, page, .map info, .descriptor⟩ := by
  obtain ⟨form, hcall⟩ := h.ofCall_eq_ok
  exact (add_eq_verdict hcall).trans rfl

/-- The route of a registration that is not refused. -/
theorem register_fields [CharacterNames] {g g' : Registry} {s : Registration} {r : Route}
    (h : g.register s = .ok (g', r)) :
    ∃ text info p, s.page.orElse s.name = .str text ∧ s.info.toMappingOrEmpty = .ok info ∧
      Route.compilePattern (s.pattern.orElse (.str ("/" ++ s.name.display)))
        g.config.caseSensitive g.config.strict = .ok p ∧
      r = ⟨s.name, p.source, Page.normalize text, info, g.config.caseSensitive,
        g.config.strict, p⟩ := by
  obtain ⟨-, -, hbuild, -⟩ := register_eq_ok h
  unfold Registration.build at hbuild
  rw [Route.build_eq] at hbuild
  split at hbuild
  · cases hbuild
  · split at hbuild
    · cases hbuild
    · split at hbuild
      · next text info hpage hinfo =>
        obtain ⟨p, hp, hr⟩ := map_eq_ok.1 hbuild
        exact ⟨text, info, p, hpage, hinfo, hp, hr.symm⟩
      · cases hbuild
      · cases hbuild

/-- Calls that spell the same fields do the same to every registry. Either all of them are refused
with the same fault and leave it as it was; or all of them put the same route at the end of the
table, which has the name, the page and else the name, the metadata, and the compiled form of the
pattern and else of the name behind a slash. The route is then what they return, if its name is
written, as every text is. -/
theorem add_congr_spells [CharacterNames] (g : Registry) {args args' : List Value}
    {options options' : Mapping}
    (h : Spells name pattern page info args options)
    (h' : Spells name pattern page info args' options') :
    g.add args options = g.add args' options' ∧
      ((∃ f, g.add args options = (g, .error f)) ∨
        ∃ text p r, page.orElse name = .str text ∧
          Route.compilePattern (pattern.orElse (.str ("/" ++ name.display)))
            g.config.caseSensitive g.config.strict = .ok p ∧
          r = ⟨name, p.source, Page.normalize text, info, g.config.caseSensitive,
            g.config.strict, p⟩ ∧
          g.add args options = ({ g with routes := g.routes ++ [r] },
            if name.isWritable then .ok r else .error .wrongValue)) := by
  refine ⟨(add_of_spells g h).trans (add_of_spells g h').symm, ?_⟩
  obtain ⟨f, -, hadd⟩ | ⟨registration, r, hcall, hregister, hadd⟩ := add_cases g args options
  · exact .inl ⟨f, hadd⟩
  · obtain ⟨form, hspelled⟩ := h.ofCall_eq_ok
    obtain rfl := Except.ok.inj (hspelled.symm.trans hcall)
    obtain ⟨text, info', p, hpage, hinfo, hp, hr⟩ := register_fields hregister
    -- The metadata are a mapping already.
    have hsame : info' = info := by
      have hmap : (Value.map info).toMappingOrEmpty = .ok info :=
        Registration.GivesInfo.toMappingOrEmpty (.inl rfl)
      exact Except.ok.inj (hinfo.symm.trans hmap)
    rw [hsame] at hr
    have hname : r.name = name := by rw [hr]
    rw [hname] at hadd
    exact .inr ⟨text, p, r, hpage, hp, hr, hadd⟩

/-- The positions, a mapping, keywords that take the place of a pattern, and a registration that is
made already put the same route into a new registry; so do two ways to leave out the name. -/
theorem add_congr_spells_event :
    ∃ g g' r, Registry.empty {} none = .ok g ∧
      g.add [.str "event", .str "/events/:slug", .str "events/show"]
        [(.str "meta", .map [(.str "tab", .int 1)])] = (g', .ok r) ∧
      r.name = .str "event" ∧ r.page = "/events/show" ∧ r.info = [(.str "tab", .int 1)] ∧
      g.add [.map [(.str "page", .str "events/show"), (.str "meta", .map [(.str "tab", .int 1)]),
        (.str "pattern", .str "/events/:slug"), (.str "name", .str "event")]] [] = (g', .ok r) ∧
      g.add [.str "event", .str "/old"] [(.str "page", .str "events/show"),
        (.str "pattern", .str "/events/:slug"), (.str "meta", .map [(.str "tab", .int 1)])]
          = (g', .ok r) ∧
      g.add [.spec (.str "event") (.str "/events/:slug") (.str "events/show")
        (.map [(.str "tab", .int 1)])] [] = (g', .ok r) ∧
      g.add [.str "/about", .str "p"] [] =
        g.add [] [(.str "pattern", .str "/about"), (.str "page", .str "p")] := by
  have hpositions : Spells (.str "event") (.str "/events/:slug") (.str "events/show")
      [(.str "tab", .int 1)] [.str "event", .str "/events/:slug", .str "events/show"]
      [(.str "meta", .map [(.str "tab", .int 1)])] :=
    .nameFirst rfl (by decide) (by decide) (by decide)
      (by simp [Registration.HasOnly, Mapping.keys]) rfl rfl (.inl rfl)
  have hmapping : Spells (.str "event") (.str "/events/:slug") (.str "events/show")
      [(.str "tab", .int 1)] [.map [(.str "page", .str "events/show"),
        (.str "meta", .map [(.str "tab", .int 1)]), (.str "pattern", .str "/events/:slug"),
        (.str "name", .str "event")]] [] :=
    .mapping ⟨by simp [Registration.HasOnly, Registration.fieldNames, Mapping.keys], rfl, rfl, rfl,
      .inl rfl⟩
  have hmixed : Spells (.str "event") (.str "/events/:slug") (.str "events/show")
      [(.str "tab", .int 1)] [.str "event", .str "/old"] [(.str "page", .str "events/show"),
        (.str "pattern", .str "/events/:slug"), (.str "meta", .map [(.str "tab", .int 1)])] :=
    .nameFirst rfl (by decide) (by decide) (by decide)
      (by simp [Registration.HasOnly, Mapping.keys]) rfl rfl (.inl rfl)
  have hunnamed : Spells .null (.str "/about") (.str "p") [] [.str "/about", .str "p"] [] :=
    .patternFirst rfl rfl (by decide) (by decide) (by simp [Registration.HasOnly, Mapping.keys]) rfl
      (.inr ⟨rfl, rfl⟩)
  have hkeywords : Spells .null (.str "/about") (.str "p") [] []
      [(.str "pattern", .str "/about"), (.str "page", .str "p")] :=
    .keywords (by simp) ⟨by simp [Registration.HasOnly, Registration.fieldNames, Mapping.keys], rfl,
      rfl, rfl, .inr ⟨rfl, rfl⟩⟩
  obtain ⟨g, g', r, hempty, hadd⟩ : ∃ g g' r, Registry.empty {} none = .ok g ∧
      g.add [.str "event", .str "/events/:slug", .str "events/show"]
        [(.str "meta", .map [(.str "tab", .int 1)])] = (g', .ok r) := ⟨_, _, _, rfl, rfl⟩
  obtain ⟨f, hrefused⟩ | ⟨text, p, r', htext, -, hr, hadded⟩ :=
    (add_congr_spells g hpositions hmapping).2
  · cases (Prod.mk.inj (hadd.symm.trans hrefused)).2
  rw [Value.isWritable_str, if_pos rfl] at hadded
  obtain rfl : r = r' := Except.ok.inj (Prod.mk.inj (hadd.symm.trans hadded)).2
  obtain rfl : text = "events/show" := (Value.str.inj htext).symm
  have hpage : Page.normalize "events/show" = "/events/show" := by decide
  refine ⟨g, g', r, hempty, hadd, ?_, ?_, ?_, ?_, ?_, ?_, (add_congr_spells g hunnamed hkeywords).1⟩
  · rw [hr]
  · rw [hr, ← hpage]
  · rw [hr]
  · rw [← (add_congr_spells g hpositions hmapping).1, hadd]
  · rw [← (add_congr_spells g hpositions hmixed).1, hadd]
  · rw [← (add_congr_spells g hpositions (.spec rfl)).1, hadd]

end Registry

end SiteRouter
