import SiteRouter.Proofs.Pattern.Oversized
import SiteRouter.Proofs.Registry.Spelling

/-!
# Registrations by texts

A call whose arguments are texts, however many, stands for a registration of texts or for none
(`ofCall_texts`). A registration of texts is refused for what is wrong with the table: the registry
is closed, the name is taken, there is no page, or the pattern is none. Two faults are of another
kind (`add_texts_eq_error`): settings that cannot be keys keep every pattern from being compiled,
and a sub-pattern with an oversized number, a count or a code, is refused for the number.
-/

namespace SiteRouter

/-- Nothing or a text. -/
def Value.IsTextOrNull (v : Value) : Prop := v = .null ∨ ∃ s, v = .str s

/-- The first of two values that counts as given is nothing or a text if they are. -/
theorem Value.IsTextOrNull.orElse {v w : Value} (hv : v.IsTextOrNull) (hw : w.IsTextOrNull) :
    (v.orElse w).IsTextOrNull := by
  unfold Value.orElse
  split
  · exact hv
  · exact hw

/-- What counts as given among nothing and the texts is a text. -/
theorem Value.IsTextOrNull.exists_eq_str {v : Value} (h : v.IsTextOrNull)
    (htruthy : v.truthy = true) : ∃ s, v = .str s := by
  obtain rfl | hs := h
  · cases htruthy
  · exact hs

/-- Nothing and the texts are written. -/
theorem Value.IsTextOrNull.isWritable {v : Value} (h : v.IsTextOrNull) : v.isWritable = true := by
  obtain rfl | ⟨s, rfl⟩ := h
  · exact Value.isWritable_null
  · exact Value.isWritable_str s

/-- A fault whose wording shows nothing but texts is raised as it is. -/
theorem Fault.raised_of_texts {f : Fault} (h : ∀ v ∈ f.shown, v.IsTextOrNull) : f.raised = f := by
  unfold raised
  rw [if_pos (Value.areWritable_iff.2 fun v hv => (h v hv).isWritable)]

/-- Whether the settings that every pattern is compiled for may be keys. -/
def Config.FlagsAreKeys (c : Config) : Prop := c.caseSensitive.isKey = true ∧ c.strict.isKey = true

/-- The fault lies in the table of routes, in settings that are no keys, or in the number that makes
a pattern oversized. -/
def Config.Explains (c : Config) (oversized : Prop) (f : Fault) : Prop :=
  f.isConfiguration = true ∨ (f = .wrongKind ∧ ¬ c.FlagsAreKeys) ∨
    (Pattern.IsNumberFault f ∧ oversized)

theorem Config.Explains.mono {c : Config} {p q : Prop} {f : Fault} (h : c.Explains p f)
    (hpq : p → q) : c.Explains q f :=
  h.imp_right fun h => h.imp_right fun h => h.imp_right hpq

namespace Registration

/-- The name, the pattern and the page are texts or left out, and the metadata are a mapping. -/
structure OfTexts (r : Registration) : Prop where
  /-- The name. -/
  name : r.name.IsTextOrNull
  /-- The pattern. -/
  pattern : r.pattern.IsTextOrNull
  /-- The page. -/
  page : r.page.IsTextOrNull
  /-- The metadata. -/
  info : ∃ m, GivesInfo r.info m

/-- The pattern that the route is built with: by default the name after a slash. -/
def patternOrDefault (r : Registration) : Value := r.pattern.orElse (.str ("/" ++ r.name.display))

/-- The call stands for a registration of a pattern with an oversized number in a sub-pattern. -/
def HasOversizedBody (args : List Value) : Prop :=
  ∃ r s, ofCall args [] = .ok r ∧ r.patternOrDefault = .str s ∧ Pattern.HasOversizedBody s

/-- The pattern of a registration of texts is a text. -/
theorem OfTexts.exists_patternOrDefault {r : Registration} (h : r.OfTexts) :
    ∃ s, r.patternOrDefault = .str s := by
  unfold patternOrDefault Value.orElse
  split
  · next htruthy => exact h.pattern.exists_eq_str htruthy
  · exact ⟨_, rfl⟩

/-- Positions with texts stand for a registration of texts, or are too many. -/
theorem ofPositions_texts (first : String) {args : List Value}
    (hargs : ∀ v ∈ args, v.IsTextOrNull) (info : Mapping) :
    (∃ r, ofPositions first args false info = .ok r ∧ r.OfTexts) ∨
      ofPositions first args false info = .error (.unsupportedArguments args) := by
  have hraised : Fault.raised (.unsupportedArguments args) = .unsupportedArguments args :=
    Fault.raised_of_texts hargs
  have hnull : Value.null.IsTextOrNull := .inl rfl
  have hfirst : (Value.str first).IsTextOrNull := .inr ⟨first, rfl⟩
  unfold ofPositions
  split
  · split
    · exact .inl ⟨_, rfl, hnull, hfirst, hnull, info, .inl rfl⟩
    · next page => exact .inl ⟨_, rfl, hnull, hfirst, hargs page (by simp), info, .inl rfl⟩
    · exact .inr (congrArg _ hraised)
  · split
    · exact .inl ⟨_, rfl, hfirst, hnull, hnull, info, .inl rfl⟩
    · next pattern => exact .inl ⟨_, rfl, hfirst, hargs pattern (by simp), hnull, info, .inl rfl⟩
    · next pattern page =>
      exact .inl ⟨_, rfl, hfirst, hargs pattern (by simp), hargs page (by simp), info, .inl rfl⟩
    · exact .inr (congrArg _ hraised)

/-- Without keywords the positions are all that is read; an empty name is none. -/
theorem ofText_nil (first : String) (rest : List Value) :
    ofText (.str first :: rest) [] =
      if 3 < (Value.str first :: rest).length then
        .error (Fault.raised (.unsupportedArguments (.str first :: rest)))
      else (ofPositions first (.str first :: rest) false []).map
        fun r => { r with name := orNothing r.name } := by
  have hread : ofText (.str first :: rest) [] =
      if 3 < (Value.str first :: rest).length then
        .error (Fault.raised (.unsupportedArguments (.str first :: rest)))
      else (ofPositions first (.str first :: rest) false []).bind
        fun r => .ok { r with name := orNothing r.name } := rfl
  rw [hread]
  cases ofPositions first (.str first :: rest) false [] <;> rfl

/-- Texts stand for a registration of texts, or are no call. -/
theorem ofCall_texts (texts : List String) :
    (∃ r, ofCall (texts.map .str) [] = .ok r ∧ r.OfTexts) ∨
      ∃ f, ofCall (texts.map .str) [] = .error f ∧ f.isConfiguration = true := by
  cases texts with
  | nil => exact .inr ⟨_, rfl, rfl⟩
  | cons first rest =>
    have hargs : ∀ v ∈ (first :: rest).map Value.str, v.IsTextOrNull := by
      intro v hv
      obtain ⟨s, -, rfl⟩ := List.mem_map.1 hv
      exact .inr ⟨s, rfl⟩
    have hcall : ofCall ((first :: rest).map .str) [] = ofText ((first :: rest).map .str) [] := rfl
    rw [hcall, List.map_cons, ofText_nil, ← List.map_cons]
    split
    · have hraised := Fault.raised_of_texts (f := .unsupportedArguments _) hargs
      exact .inr ⟨_, congrArg _ hraised, rfl⟩
    · obtain ⟨r, hr, htexts⟩ | herror := ofPositions_texts first hargs []
      · rw [hr]
        have hname : (orNothing r.name).IsTextOrNull := htexts.name.orElse (.inl rfl)
        exact .inl ⟨_, rfl, hname, htexts.pattern, htexts.page, htexts.info⟩
      · rw [herror]
        exact .inr ⟨_, rfl, rfl⟩

/-- What the route of a registration of texts is refused for. -/
theorem OfTexts.build_eq_error [CharacterNames] {r : Registration} (hr : r.OfTexts) {c : Config}
    {f : Fault}
    (h : r.build c.caseSensitive c.strict = .error f) :
    c.Explains (∃ s, r.patternOrDefault = .str s ∧ Pattern.HasOversizedBody s) f := by
  obtain ⟨m, hinfo⟩ := hr.info
  obtain ⟨s, hs⟩ := hr.exists_patternOrDefault
  rw [Registration.build, Route.build_eq, ← patternOrDefault, hs, hinfo.toMappingOrEmpty] at h
  split at h
  · have hshown : ∀ v ∈ [r.pattern], v.IsTextOrNull := List.forall_mem_singleton.2 hr.pattern
    rw [Fault.raised_of_texts (f := .missingPage _) hshown] at h
    cases h
    exact .inl rfl
  · next hgiven =>
    rw [Bool.not_eq_false] at hgiven
    obtain ⟨page, hpage⟩ := (hr.page.orElse hr.name).exists_eq_str hgiven
    rw [hpage, if_neg fun hname => Bool.false_ne_true (hname.2.symm.trans hr.name.isWritable)] at h
    have hcompile : Route.compilePattern (.str s) c.caseSensitive c.strict = .error f :=
      map_eq_error.1 h
    unfold Route.compilePattern at hcompile
    dsimp only at hcompile
    split at hcompile
    · obtain hpattern | ⟨hcount, hbody⟩ := Pattern.compile_eq_error hcompile
      · exact .inl hpattern.isConfiguration
      · exact .inr (.inr ⟨hcount, s, hs, hbody⟩)
    · next hkeys =>
      cases hcompile
      rw [Bool.and_eq_true] at hkeys
      exact .inr (.inl ⟨rfl, hkeys⟩)

end Registration

namespace Registry

variable {g : Registry}

/-- What a registration of texts is refused for. -/
theorem register_eq_error [CharacterNames] {r : Registration} (hr : r.OfTexts) {f : Fault}
    (h : g.register r = .error f) :
    g.config.Explains (∃ s, r.patternOrDefault = .str s ∧ Pattern.HasOversizedBody s) f := by
  unfold register at h
  split at h
  · have hshown : ∀ v ∈ [r.name.orElse r.pattern], v.IsTextOrNull :=
      List.forall_mem_singleton.2 (hr.name.orElse hr.pattern)
    rw [Fault.raised_of_texts (f := .registryFrozen _) hshown] at h
    cases h
    exact .inl rfl
  · split at h
    · have hshown : ∀ v ∈ [r.name], v.IsTextOrNull := List.forall_mem_singleton.2 hr.name
      rw [Fault.raised_of_texts (f := .duplicateRoute _) hshown] at h
      cases h
      exact .inl rfl
    · exact hr.build_eq_error (map_eq_error.1 h)

/-- What a call with texts is refused for. The registry is then as it was, since the name of a route
that is in it already could be written. -/
theorem add_texts_eq_error [CharacterNames] {g' : Registry} {texts : List String} {f : Fault}
    (h : g.add (texts.map .str) [] = (g', .error f)) :
    g' = g ∧ g.config.Explains (Registration.HasOversizedBody (texts.map .str)) f := by
  obtain ⟨f', hbind, hadd⟩ | ⟨registration, r, hcall, hregister, hadd⟩ :=
    add_cases g (texts.map .str) []
  · obtain ⟨rfl, hresult⟩ := Prod.mk.inj (h.symm.trans hadd)
    obtain rfl := Except.error.inj hresult
    refine ⟨rfl, ?_⟩
    obtain ⟨r, hcall, hr⟩ | ⟨f', hcall, hf'⟩ := Registration.ofCall_texts texts
    · rw [hcall] at hbind
      refine (register_eq_error hr hbind).mono ?_
      rintro ⟨s, hs, hbody⟩
      exact ⟨r, s, hcall, hs, hbody⟩
    · rw [hcall] at hbind
      obtain rfl := Except.error.inj hbind
      exact .inl hf'
  · have hname : r.name.isWritable = true := by
      obtain ⟨r', hcall', hr⟩ | ⟨f', hcall', -⟩ := Registration.ofCall_texts texts
      · obtain rfl := Except.ok.inj (hcall.symm.trans hcall')
        obtain ⟨-, -, hbuild, -⟩ := register_eq_ok hregister
        rw [Route.build_name hbuild]
        exact hr.name.isWritable
      · cases hcall.symm.trans hcall'
    rw [hname, if_pos rfl] at hadd
    cases (Prod.mk.inj (h.symm.trans hadd)).2

end Registry

end SiteRouter
