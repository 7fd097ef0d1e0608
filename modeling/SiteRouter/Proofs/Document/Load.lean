import SiteRouter.RouteDocument
import SiteRouter.Proofs.Registry.Texts
import SiteRouter.Text.BasicLatin

/-!
# Loading a document

Loading a document makes a registry of its settings (`blank`) and registers its entries in it one
after the other (`load_eq`). Settings do not change on the way, so a step is refused for the same
reasons in every place of the table (`register_eq_error`). A table of texts is refused for what is
wrong with one of its entries as a registration, unless settings or an oversized number are to blame
(`compile_add_load_eq_error`).
-/

namespace SiteRouter

/-- The entries that are texts or lists of texts, with the texts. -/
inductive TextEntry : Value → List String → Prop
  /-- A text. -/
  | text (s : String) : TextEntry (.str s) [s]
  /-- A list of texts. -/
  | list (texts : List String) : TextEntry (.list (texts.map .str)) texts

namespace RouteDocument

/-- The registry of the settings of a document before its entries are registered. -/
def blank [CharacterNames] (d : RouteDocument) (base : Config) : Except Fault Loaded :=
  (base.merge d.settings).bind fun (config, reports) =>
    (withLevel (Log.empty.report reports) config).bind fun log =>
      (Registry.empty config none).map (⟨·, log⟩)

/-- A document is loaded by registering its entries in the registry of its settings. -/
theorem load_eq [CharacterNames] (d : RouteDocument) (base : Config) :
    d.load base = d.entries.bind fun entries => (d.blank base).bind fun l =>
      (register 0 entries l).map fun l =>
        close ⟨l.registry, l.log.report (d.loadReport l.registry.routes.length)⟩ := by
  have hload : d.load base = d.entries.bind fun entries =>
      (base.merge d.settings).bind fun (config, reports) =>
        (withLevel (Log.empty.report reports) config).bind fun log =>
          (Registry.empty config none).bind fun registry =>
            (register 0 entries ⟨registry, log⟩).bind fun l =>
              .ok (close ⟨l.registry, l.log.report (d.loadReport l.registry.routes.length)⟩) := rfl
  rw [hload]
  unfold blank
  cases d.entries with
  | error f => rfl
  | ok entries =>
    cases base.merge d.settings with
    | error f => rfl
    | ok reported =>
      obtain ⟨config, reports⟩ := reported
      dsimp only [Except.bind]
      cases withLevel (Log.empty.report reports) config with
      | error f => rfl
      | ok log =>
        dsimp only
        cases Registry.empty config none with
        | error f => rfl
        | ok g => rfl

/-- An entry of texts is registered as the call with these texts. -/
theorem entryArguments_of_textEntry {e : Value} {texts : List String} (h : TextEntry e texts)
    (position : Nat) : entryArguments position e = .ok (texts.map .str) := by
  cases h with
  | text s => rfl
  | list texts => rfl

theorem register_cons [CharacterNames] (position : Nat) (e : Value) (entries : List Value)
    (l : Loaded) :
    register position (e :: entries) l =
      (entryArguments position e).bind fun args => (l.registry.add args []).2.bind fun r =>
        register (position + 1) entries
          ⟨(l.registry.add args []).1, l.log.report (Registry.addReport r)⟩ := rfl

/-- What registering entries of texts is refused for. -/
theorem register_eq_error [CharacterNames] {position : Nat} {entries : List Value} {l : Loaded}
    {f : Fault}
    (hentries : ∀ e ∈ entries, ∃ texts, TextEntry e texts)
    (h : register position entries l = .error f) :
    l.registry.config.Explains (∃ e ∈ entries, ∃ texts,
      TextEntry e texts ∧ Registration.HasOversizedBody (texts.map .str)) f := by
  induction entries generalizing position l with
  | nil => cases h
  | cons e entries ih =>
    rw [List.forall_mem_cons] at hentries
    obtain ⟨⟨texts, htexts⟩, hrest⟩ := hentries
    rw [register_cons] at h
    obtain hargs | ⟨args, hargs, h⟩ := bind_eq_error.1 h
    · rw [entryArguments_of_textEntry htexts] at hargs
      cases hargs
    · rw [entryArguments_of_textEntry htexts] at hargs
      cases hargs
      obtain hadd | ⟨r, -, h⟩ := bind_eq_error.1 h
      · refine (Registry.add_texts_eq_error (Prod.ext rfl hadd)).2.mono fun hbody => ?_
        exact ⟨e, List.mem_cons_self, texts, htexts, hbody⟩
      · -- The registry has a route more, but the same settings.
        have hf := ih hrest h
        rw [Registry.config_add] at hf
        refine hf.mono ?_
        rintro ⟨e', he', hbody⟩
        exact ⟨e', List.mem_cons_of_mem e he', hbody⟩

/-- What a document with a table of texts is refused for. -/
theorem load_eq_error [CharacterNames] {d : RouteDocument} {base : Config} {f : Fault}
    (hentries : ∀ entries, d.entries = .ok entries → ∀ e ∈ entries, ∃ texts, TextEntry e texts)
    (h : d.load base = .error f) :
    f.isConfiguration = true ∨ d.blank base = .error f ∨ ∃ l entries, d.blank base = .ok l ∧
      d.entries = .ok entries ∧ l.registry.config.Explains (∃ e ∈ entries, ∃ texts,
        TextEntry e texts ∧ Registration.HasOversizedBody (texts.map .str)) f := by
  rw [load_eq] at h
  obtain htable | ⟨entries, htable, h⟩ := bind_eq_error.1 h
  · unfold RouteDocument.entries at htable
    split at htable
    · cases htable
    · cases htable
      exact .inl rfl
  · obtain hblank | ⟨l, hblank, h⟩ := bind_eq_error.1 h
    · exact .inr (.inl hblank)
    · have hregister := register_eq_error (hentries entries htable) (map_eq_error.1 h)
      exact .inr (.inr ⟨l, entries, hblank, htable, hregister⟩)

/-- Without settings of its own a document is loaded over the default ones. -/
theorem blank_default [CharacterNames] {d : RouteDocument} (h : d.settings = []) :
    ∃ l, d.blank {} = .ok l ∧ l.registry.config.FlagsAreKeys := by
  unfold blank
  rw [h]
  exact ⟨_, rfl, rfl, rfl⟩

/-- What a table of texts is refused for where no settings stand beside it. -/
theorem load_default_eq_error [CharacterNames] {d : RouteDocument} {f : Fault}
    (hsettings : d.settings = [])
    (hentries : ∀ entries, d.entries = .ok entries → ∀ e ∈ entries, ∃ texts, TextEntry e texts)
    (h : d.load {} = .error f) :
    f.isConfiguration = true ∨ (Pattern.IsNumberFault f ∧ ∃ entries, d.entries = .ok entries ∧
      ∃ e ∈ entries, ∃ texts,
        TextEntry e texts ∧ Registration.HasOversizedBody (texts.map .str)) := by
  obtain ⟨l, hblank, hflags⟩ := blank_default hsettings
  obtain hf | hrefused | ⟨l', entries, hblank', htable, hf⟩ := load_eq_error hentries h
  · exact .inl hf
  · rw [hblank] at hrefused
    cases hrefused
  · rw [hblank] at hblank'
    cases hblank'
    obtain hf | ⟨-, hnone⟩ | ⟨hcount, hbody⟩ := hf
    · exact .inl hf
    · exact absurd hflags hnone
    · exact .inr ⟨hcount, entries, htable, hbody⟩

end RouteDocument

/-- Registrations by texts fail as mistakes in the table of routes, unless settings or an oversized
number in a sub-pattern are to blame: the count of a repetition or the code of a character. What the
reader of expressions does not take is no pattern; a call with texts is refused for what is wrong
with the table; so is a document whose entries are texts and lists of texts, unless its settings are
refused by themselves, and over the default settings for nothing else. -/
theorem compile_add_load_eq_error [CharacterNames] (pattern : String) (o : Pattern.Options)
    (g : Registry)
    (texts : List String) (d : RouteDocument) (base : Config) (f : Fault) :
    (Pattern.compile pattern o = .error f →
      Pattern.IsPatternFault pattern f ∨
        (Pattern.IsNumberFault f ∧ Pattern.HasOversizedBody pattern)) ∧
    ((g.add (texts.map .str) []).2 = .error f →
      f.isConfiguration = true ∨ (f = .wrongKind ∧ ¬ g.config.FlagsAreKeys) ∨
        (Pattern.IsNumberFault f ∧ Registration.HasOversizedBody (texts.map .str))) ∧
    ((∀ entries, d.entries = .ok entries → ∀ e ∈ entries, ∃ texts, TextEntry e texts) →
      (d.load base = .error f →
        f.isConfiguration = true ∨ d.blank base = .error f ∨
          ∃ l entries, d.blank base = .ok l ∧ d.entries = .ok entries ∧
            l.registry.config.Explains (∃ e ∈ entries, ∃ texts,
              TextEntry e texts ∧ Registration.HasOversizedBody (texts.map .str)) f) ∧
      (d.settings = [] → d.load {} = .error f →
        f.isConfiguration = true ∨ (Pattern.IsNumberFault f ∧ ∃ entries, d.entries = .ok entries ∧
          ∃ e ∈ entries, ∃ texts,
            TextEntry e texts ∧ Registration.HasOversizedBody (texts.map .str)))) := by
  refine ⟨Pattern.compile_eq_error, fun h => (Registry.add_texts_eq_error (Prod.ext rfl h)).2, ?_⟩
  intro hentries
  refine ⟨RouteDocument.load_eq_error hentries, ?_⟩
  intro hsettings
  exact RouteDocument.load_default_eq_error hsettings hentries

/-- A set without an end in a sub-pattern is such a mistake, in a call and in a document. -/
theorem compile_add_load_eq_error_event :
    ∃ g d f, Registry.empty {} none = .ok g ∧
      d = RouteDocument.ofMapping [(.str "routes",
        .list [.str "home", .list [.str "event", .str "/:slug([)"]])] ∧
      Pattern.compile "/:slug([)" ⟨false, false, true⟩ = .error f ∧
      (g.add [.str "event", .str "/:slug([)"] []).2 = .error f ∧ d.load {} = .error f ∧
      (Pattern.IsPatternFault "/:slug([)" f ∨
        (Pattern.IsNumberFault f ∧ Pattern.HasOversizedBody "/:slug([)")) ∧
      (f.isConfiguration = true ∨ (f = .wrongKind ∧ ¬ g.config.FlagsAreKeys) ∨
        (Pattern.IsNumberFault f ∧
          Registration.HasOversizedBody [.str "event", .str "/:slug([)"])) ∧
      (f.isConfiguration = true ∨ (Pattern.IsNumberFault f ∧ ∃ entries, d.entries = .ok entries ∧
        ∃ e ∈ entries, ∃ texts,
          TextEntry e texts ∧ Registration.HasOversizedBody (texts.map .str))) := by
  have hentries : ∀ e ∈ [Value.str "home", .list [.str "event", .str "/:slug([)"]],
      ∃ texts, TextEntry e texts := by
    rw [List.forall_mem_cons, List.forall_mem_singleton]
    exact ⟨⟨_, .text "home"⟩, ⟨_, .list ["event", "/:slug([)"]⟩⟩
  obtain ⟨g, hg⟩ : ∃ g, Registry.empty {} none = .ok g := ⟨_, rfl⟩
  obtain ⟨hcompile, hadd, hload⟩ := compile_add_load_eq_error "/:slug([)" ⟨false, false, true⟩ g
    ["event", "/:slug([)"] (RouteDocument.ofMapping [(.str "routes",
      .list [.str "home", .list [.str "event", .str "/:slug([)"]])]) {}
    (.invalidExpression "/:slug([)")
  have hrefused : (g.add [.str "event", .str "/:slug([)"] []).2 =
      .error (.invalidExpression "/:slug([)") := by
    cases hg
    rfl
  refine ⟨g, _, _, hg, rfl, rfl, hrefused, rfl, hcompile rfl, hadd hrefused,
    (hload ?_).2 rfl rfl⟩
  rintro entries ⟨⟩
  exact hentries

/-- A count that is too large is another mistake than one in the table. -/
theorem add_count_outOfRange :
    ∃ g, Registry.empty {} none = .ok g ∧
      g.add [.str "x", .str "/:x(a\x7b4294967295\x7d)"] [] = (g, .error .outOfRange) ∧
      Fault.outOfRange.isConfiguration = false :=
  ⟨_, rfl, rfl, rfl⟩

end SiteRouter
