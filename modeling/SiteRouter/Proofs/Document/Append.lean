import Mathlib.Data.List.Forall2
import SiteRouter.Proofs.Config.Merge
import SiteRouter.Proofs.Document.Load
import SiteRouter.Text.BasicLatin

/-!
# Loading is registering in turn

A table in two parts is registered part by part (`register_append`), and texts, lists and mappings
are registered as the calls that they stand for (`register_calls`). So loading a table does what
loading its first part and then calling for each entry of the second does, up to the first call that
is refused, if the settings leave the registry open. If they close it, the registry is the same but
closed, since the setting that decides plays no part in a registration (`add_withFreezeOnLoad`).
-/

namespace SiteRouter

/-! ## Calls in turn -/

namespace Registry

/-- Registers the routes that lists of arguments stand for, up to the first that is refused. -/
def addAll [CharacterNames] (g : Registry) : List (List Value) → Except Fault Registry
  | [] => .ok g
  | args :: calls => (g.add args []).2.bind fun _ => (g.add args []).1.addAll calls

/-- The registry with another setting for closing it once it is loaded. -/
def withFreezeOnLoad (g : Registry) (v : Value) : Registry :=
  { g with config := { g.config with freezeOnLoad := v } }

/-- The registry closed if its settings close it once it is loaded. -/
def closed (g : Registry) : Registry := if g.config.freezeOnLoad.truthy then g.freeze else g

/-- The setting plays no part in a look-up by name. -/
theorem named?_withFreezeOnLoad (g : Registry) (v name : Value) :
    (g.withFreezeOnLoad v).named? name = g.named? name := rfl

/-- The setting plays no part in a registration. -/
theorem add_withFreezeOnLoad [CharacterNames] (g : Registry) (v : Value) (args : List Value)
    (options : Mapping) :
    (g.withFreezeOnLoad v).add args options =
      ((g.add args options).1.withFreezeOnLoad v, (g.add args options).2) := by
  have hregister : ∀ s, (g.withFreezeOnLoad v).register s =
      (g.register s).map fun added => (added.1.withFreezeOnLoad v, added.2) := by
    intro s
    unfold register
    rw [named?_withFreezeOnLoad]
    show (if g.frozen then _ else _) = _
    split
    · rfl
    · split
      · rfl
      · show (s.build g.config.caseSensitive g.config.strict).map _ = _
        cases s.build g.config.caseSensitive g.config.strict <;> rfl
  unfold add
  cases Registration.ofCall args options with
  | error f => rfl
  | ok s =>
    dsimp only [Except.bind]
    rw [hregister]
    cases g.register s <;> rfl

/-- A closed registry refuses every call and stays as it is. -/
theorem exists_add_eq_error [CharacterNames] {g : Registry} (h : g.frozen = true)
    (args : List Value) (options : Mapping) : ∃ f, g.add args options = (g, .error f) := by
  obtain ⟨f, -, hadd⟩ | ⟨s, r, -, hregister, -⟩ := add_cases g args options
  · exact ⟨f, hadd⟩
  · rw [(register_eq_ok hregister).1] at h
    cases h

end Registry

namespace RouteDocument

open Config (freezeOnLoadName)

/-- The call that a text, a list or a mapping stands for as an entry, by its arguments. -/
inductive EntryCall : Value → List Value → Prop
  /-- A text is the only argument. -/
  | text (name : String) : EntryCall (.str name) [.str name]
  /-- The elements of a list are the arguments. -/
  | list (args : List Value) : EntryCall (.list args) args
  /-- A mapping is the only argument. -/
  | map (fields : Mapping) : EntryCall (.map fields) [.map fields]

/-- The document holds the settings and the table. -/
structure Holds (d : RouteDocument) (settings : Mapping) (entries : List Value) : Prop where
  /-- Its fields but for the table are the settings. -/
  settings_eq : d.settings = settings
  /-- Its table has the entries. -/
  entries_eq : d.entries = .ok entries

theorem entryArguments_of_entryCall {e : Value} {args : List Value} (h : EntryCall e args)
    (position : Nat) : entryArguments position e = .ok args := by
  cases h <;> rfl

/-! ## Registering a table -/

/-- A table in two parts is registered part by part. -/
theorem register_append [CharacterNames] (position : Nat) (first second : List Value) (l : Loaded) :
    register position (first ++ second) l =
      (register position first l).bind (register (position + first.length) second) := by
  induction first generalizing position l with
  | nil => rfl
  | cons e first ih =>
    rw [List.cons_append, register_cons, register_cons, List.length_cons]
    cases entryArguments position e with
    | error f => rfl
    | ok args =>
      show (l.registry.add args []).2.bind _ = ((l.registry.add args []).2.bind _).bind _
      cases (l.registry.add args []).2 with
      | error f => rfl
      | ok r =>
        show register (position + 1) (first ++ second) _ = (register (position + 1) first _).bind _
        rw [ih, Nat.add_right_comm, Nat.add_assoc]

/-- Entries are registered as the calls that they stand for. -/
theorem register_calls [CharacterNames] {entries : List Value} {calls : List (List Value)}
    (h : List.Forall₂ EntryCall entries calls) (position : Nat) (l : Loaded) :
    (register position entries l).map Loaded.registry = l.registry.addAll calls := by
  induction h generalizing position l with
  | nil => rfl
  | @cons e args entries calls hcall _ ih =>
    rw [register_cons, entryArguments_of_entryCall hcall, Registry.addAll]
    show ((l.registry.add args []).2.bind _).map _ = _
    cases (l.registry.add args []).2 with
    | error f => rfl
    | ok r => exact ih (position + 1) _

/-- Registering keeps the settings. -/
theorem config_of_register [CharacterNames] {position : Nat} {entries : List Value} {l l' : Loaded}
    (h : register position entries l = .ok l') : l'.registry.config = l.registry.config := by
  induction entries generalizing position l with
  | nil =>
    cases h
    rfl
  | cons e entries ih =>
    rw [register_cons] at h
    obtain ⟨args, -, h⟩ := bind_eq_ok.1 h
    obtain ⟨r, -, h⟩ := bind_eq_ok.1 h
    exact (ih h).trans (l.registry.config_add args [])

/-- A table is registered alike whatever the setting that closes the registry. -/
theorem register_withFreezeOnLoad [CharacterNames] (v : Value) (position : Nat)
    (entries : List Value) (l : Loaded) :
    register position entries ⟨l.registry.withFreezeOnLoad v, l.log⟩ =
      (register position entries l).map fun l' => ⟨l'.registry.withFreezeOnLoad v, l'.log⟩ := by
  induction entries generalizing position l with
  | nil => rfl
  | cons e entries ih =>
    rw [register_cons, register_cons]
    cases entryArguments position e with
    | error f => rfl
    | ok args =>
      dsimp only [Except.bind]
      rw [Registry.add_withFreezeOnLoad]
      cases (l.registry.add args []).2 with
      | error f => rfl
      | ok r => exact ih (position + 1) ⟨(l.registry.add args []).1, _⟩

/-! ## Loading a document -/

/-- The registry of a document, without what was reported while it was made. -/
theorem registry_load [CharacterNames] {d : RouteDocument} {settings : Mapping}
    {entries : List Value}
    (hd : d.Holds settings entries) (base : Config) :
    (d.load base).map Loaded.registry = (d.blank base).bind fun l =>
      (register 0 entries l).map fun l' => l'.registry.closed := by
  rw [load_eq, hd.entries_eq]
  cases d.blank base with
  | error f => rfl
  | ok l =>
    dsimp only [Except.bind]
    cases register 0 entries l with
    | error f => rfl
    | ok l' =>
      dsimp only [Except.map]
      unfold close Registry.closed
      dsimp only
      split <;> rfl

/-- The registry of settings is that of the setting that decides. -/
theorem freezeOnLoad_of_blank [CharacterNames] {d : RouteDocument} {settings : Mapping}
    (hd : d.settings = settings) (hkeys : settings.keys.Nodup) {base : Config} {l : Loaded}
    (h : d.blank base = .ok l) :
    l.registry.config.freezeOnLoad = base.freezeOnLoadOver settings := by
  unfold blank at h
  obtain ⟨merged, hmerge, h⟩ := bind_eq_ok.1 h
  obtain ⟨log, -, h⟩ := bind_eq_ok.1 h
  obtain ⟨g, hempty, rfl⟩ := map_eq_ok.1 h
  rw [hd] at hmerge
  show g.config.freezeOnLoad = _
  rw [(Registry.empty_eq_ok hempty).1, Config.merge_freezeOnLoad hkeys hmerge]

/-- Changing the setting changes nothing else in the registry of the settings. -/
theorem blank_put [CharacterNames] {d d' : RouteDocument} {settings : Mapping}
    (hkeys : settings.keys.Nodup)
    {v : Value} (hd : d.settings = settings)
    (hd' : d'.settings = settings.put (.str freezeOnLoadName) v) (base : Config) :
    d'.blank base = (d.blank base).map fun l => ⟨l.registry.withFreezeOnLoad v, l.log⟩ := by
  unfold blank
  rw [hd, hd', Config.merge_put_freezeOnLoad base hkeys]
  cases base.merge settings with
  | error f => rfl
  | ok merged =>
    show (withLevel _ merged.1).bind _ = ((withLevel _ merged.1).bind _).map _
    cases withLevel (Log.empty.report merged.2) merged.1 with
    | error f => rfl
    | ok log =>
      show (Registry.empty { merged.1 with freezeOnLoad := v } none).map _ =
        ((Registry.empty merged.1 none).map _).map _
      unfold Registry.empty
      dsimp only
      cases ClubFolders.ofValue merged.1.clubsPrefix <;> rfl

/-- Documents with the same settings start from the same registry. -/
theorem blank_congr [CharacterNames] {d d' : RouteDocument} (h : d.settings = d'.settings)
    (base : Config) :
    d.blank base = d'.blank base := by
  unfold blank
  rw [h]

/-- In a registry that its settings leave open, the second part of a table is registered by calls
after the first. -/
theorem register_append_open [CharacterNames] {l : Loaded}
    (hopen : l.registry.config.freezeOnLoad.truthy = false)
    (first : List Value) {second : List Value} {calls : List (List Value)}
    (hcalls : List.Forall₂ EntryCall second calls) :
    (register 0 (first ++ second) l).map (fun l' => l'.registry.closed) =
      ((register 0 first l).map fun l' => l'.registry.closed).bind (·.addAll calls) := by
  have hleft : ∀ {position entries l₁ l₂}, l₁.registry.config = l.registry.config →
      register position entries l₁ = .ok l₂ →
        l₂.registry.config = l.registry.config ∧ l₂.registry.closed = l₂.registry := by
    intro position entries l₁ l₂ hconfig h
    have hconfig := (config_of_register h).trans hconfig
    refine ⟨hconfig, ?_⟩
    rw [Registry.closed, hconfig, hopen, if_neg Bool.false_ne_true]
  rw [register_append]
  cases hfirst : register 0 first l with
  | error f => rfl
  | ok l₁ =>
    obtain ⟨hconfig, hclosed⟩ := hleft rfl hfirst
    show (register (0 + first.length) second l₁).map _ = l₁.registry.closed.addAll calls
    rw [hclosed, ← register_calls hcalls (0 + first.length) l₁]
    cases hsecond : register (0 + first.length) second l₁ with
    | error f => rfl
    | ok l₂ => exact congrArg Except.ok (hleft hconfig hsecond).2

/-- A registry that its settings close is the one that would be left open, but closed. -/
theorem register_closed [CharacterNames] {l : Loaded}
    (hclosed : l.registry.config.freezeOnLoad.truthy = true)
    {v : Value} (hv : v.truthy = false) (entries : List Value) :
    (register 0 entries l).map (fun l' => l'.registry.closed) =
      ((register 0 entries ⟨l.registry.withFreezeOnLoad v, l.log⟩).map
        fun l' => l'.registry.closed).map
          fun g => (g.withFreezeOnLoad l.registry.config.freezeOnLoad).freeze := by
  rw [register_withFreezeOnLoad]
  cases h : register 0 entries l with
  | error f => rfl
  | ok l' =>
    have hopen : (l'.registry.withFreezeOnLoad v).closed = l'.registry.withFreezeOnLoad v := by
      unfold Registry.closed
      exact if_neg (Bool.eq_false_iff.1 hv)
    dsimp only [Except.map]
    rw [hopen, ← config_of_register h, Registry.closed, config_of_register h, if_pos hclosed,
      ← config_of_register h]
    rfl

/-- A mapping with a table beside settings is a document that holds them. -/
theorem holds_put {settings : Mapping} (h : .str "routes" ∉ settings.keys)
    (entries : List Value) :
    (ofMapping (settings.put (.str "routes") (.list entries))).Holds settings entries where
  settings_eq := Mapping.erase_put_of_not_mem h (.list entries)
  entries_eq := by
    have htable : (ofMapping (settings.put (.str "routes") (.list entries))).fields.getD
        (.str "routes") = .list entries := Mapping.getD_put_self settings "routes" _
    rw [RouteDocument.entries, htable]
    cases entries <;> rfl

/-- Loading a table that goes on with texts, lists and mappings is loading its first part and
calling for each of these in turn, where the settings leave the registry open: the registry is the
same, and so is the fault of the first call or entry that is refused. Where the settings close the
registry, it is the one that they would leave open, but closed, and refuses every later call. -/
theorem load_append [CharacterNames] {settings : Mapping} (hkeys : settings.keys.Nodup)
    {first second : List Value}
    {calls : List (List Value)} (hcalls : List.Forall₂ EntryCall second calls) (base : Config)
    {d' : RouteDocument} (hd' : d'.Holds settings (first ++ second)) :
    ((base.freezeOnLoadOver settings).truthy = false →
      ∀ d : RouteDocument, d.Holds settings first →
        (d'.load base).map Loaded.registry =
          ((d.load base).map Loaded.registry).bind (·.addAll calls)) ∧
    ((base.freezeOnLoadOver settings).truthy = true →
      (∀ (d : RouteDocument) (v : Value), v.truthy = false →
        d.Holds (settings.put (.str freezeOnLoadName) v) first →
        (d'.load base).map Loaded.registry =
          (((d.load base).map Loaded.registry).bind (·.addAll calls)).map
            fun g => (g.withFreezeOnLoad (base.freezeOnLoadOver settings)).freeze) ∧
      ∀ l, d'.load base = .ok l →
        l.registry.frozen = true ∧
          ∀ args options, ∃ f, l.registry.add args options = (l.registry, .error f)) := by
  have hdecides : ∀ {l}, d'.blank base = .ok l →
      l.registry.config.freezeOnLoad = base.freezeOnLoadOver settings :=
    fun hl => freezeOnLoad_of_blank hd'.settings_eq hkeys hl
  refine ⟨fun hopen d hd => ?_, fun hclosed => ⟨fun d v hv hd => ?_, fun l hl => ?_⟩⟩
  · have hsettings := hd.settings_eq.trans hd'.settings_eq.symm
    rw [registry_load hd', registry_load hd, blank_congr hsettings]
    cases hblank : d'.blank base with
    | error f => rfl
    | ok l => exact register_append_open (hdecides hblank ▸ hopen) first hcalls
  · rw [registry_load hd', registry_load hd, blank_put hkeys hd'.settings_eq hd.settings_eq]
    cases hblank : d'.blank base with
    | error f => rfl
    | ok l =>
      show (register 0 (first ++ second) l).map _ =
        (((register 0 first ⟨l.registry.withFreezeOnLoad v, l.log⟩).map _).bind _).map _
      rw [← hdecides hblank, register_closed (hdecides hblank ▸ hclosed) hv,
        register_append_open hv first hcalls]
  · have hload := registry_load hd' base
    rw [hl] at hload
    obtain ⟨l₀, hblank, hload⟩ := bind_eq_ok.1 hload.symm
    obtain ⟨l', hregister, hload⟩ := map_eq_ok.1 hload
    have hfrozen : l.registry.frozen = true := by
      rw [← hload, Registry.closed, config_of_register hregister, hdecides hblank, if_pos hclosed]
      rfl
    exact ⟨hfrozen, Registry.exists_add_eq_error hfrozen⟩

/-- A table of a text, a list and a mapping, loaded at once and one after the other, with a setting
that leaves the registry open and with none. -/
theorem load_append_events :
    ∃ (settings : Mapping) (first second : List Value) (calls : List (List Value))
      (opened whole shut : RouteDocument),
      settings = [(.str "strict", .bool true), (.str freezeOnLoadName, .bool false)] ∧
      first = [.str "home"] ∧
      calls = [[.str "event", .str "/events/:slug"],
        [.map [(.str "name", .str "about"), (.str "page", .str "static/about")]]] ∧
      opened = ofMapping (settings.put (.str "routes") (.list first)) ∧
      whole = ofMapping (settings.put (.str "routes") (.list (first ++ second))) ∧
      shut.settings = [(.str "strict", .bool true)] ∧ shut.entries = .ok (first ++ second) ∧
      List.Forall₂ EntryCall second calls ∧
      (whole.load {}).map Loaded.registry =
        ((opened.load {}).map Loaded.registry).bind (·.addAll calls) ∧
      ((whole.load {}).map fun l => (l.registry.routes.map Route.pattern, l.registry.frozen)) =
        .ok (["/home", "/events/:slug", "/about"], false) ∧
      (shut.load {}).map Loaded.registry =
        (((opened.load {}).map Loaded.registry).bind (·.addAll calls)).map
          (fun g => (g.withFreezeOnLoad (.bool true)).freeze) ∧
      ∀ l, shut.load {} = .ok l →
        l.registry.frozen = true ∧
          ∀ args options, ∃ f, l.registry.add args options = (l.registry, .error f) := by
  have hcalls : List.Forall₂ EntryCall
      [.list [.str "event", .str "/events/:slug"],
        .map [(.str "name", .str "about"), (.str "page", .str "static/about")]]
      [[.str "event", .str "/events/:slug"],
        [.map [(.str "name", .str "about"), (.str "page", .str "static/about")]]] :=
    .cons (.list _) (.cons (.map _) .nil)
  have hopenedKeys : (Mapping.keys
      [(.str "strict", .bool true), (.str freezeOnLoadName, .bool false)]).Nodup := by
    simp [Mapping.keys, freezeOnLoadName]
  have hshutKeys : (Mapping.keys [(.str "strict", .bool true)]).Nodup := by simp [Mapping.keys]
  have hopened : ∀ entries, (ofMapping (Mapping.put
      [(.str "strict", .bool true), (.str freezeOnLoadName, .bool false)] (.str "routes")
        (.list entries))).Holds
      [(.str "strict", .bool true), (.str freezeOnLoadName, .bool false)] entries :=
    holds_put (by simp [Mapping.keys, freezeOnLoadName])
  have hshut : ∀ entries, (ofMapping (Mapping.put [(.str "strict", .bool true)] (.str "routes")
      (.list entries))).Holds [(.str "strict", .bool true)] entries :=
    holds_put (by simp [Mapping.keys])
  refine ⟨_, _, _, _, _, _, _, rfl, rfl, rfl, rfl, rfl, (hshut _).settings_eq,
    (hshut _).entries_eq, hcalls, ?_, rfl, ?_, ?_⟩
  · exact (load_append hopenedKeys hcalls {} (hopened _)).1 rfl _ (hopened _)
  · exact ((load_append hshutKeys hcalls {} (hshut _)).2 rfl).1 _ (.bool false) rfl (hopened _)
  · exact ((load_append hshutKeys hcalls {} (hshut _)).2 rfl).2

end RouteDocument

end SiteRouter
