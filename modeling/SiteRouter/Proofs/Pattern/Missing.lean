import Mathlib.Data.List.Nodup
import SiteRouter.Proofs.Pattern.Slashes
import SiteRouter.Proofs.Route.Keys
import SiteRouter.Proofs.Value.Mapping
import SiteRouter.Text.BasicLatin

/-!
# Parameters that are missing

A parameter is missing where its name is no key, and where its value is nothing: no path and no
fault tells one from the other. A parameter of any number of values may have an empty sequence too,
which says the same. The path is then the same as well, unless the parameter shares its segment with
the text after it (`toPath_missing`): such a parameter keeps its lead where it is missing and loses
it for an empty sequence. What is left is no path of the pattern any more
(`toPath_empty_shared`).
-/

namespace SiteRouter.Pattern

/-- Only a name makes a key that is a text. -/
theorem toValue_ne_str {key : Key} {name : String} (h : key ≠ .named name) :
    key.toValue ≠ .str name := by
  cases key with
  | named name' =>
    intro heq
    exact h (congrArg Key.named (Value.str.inj heq))
  | position n => exact nofun

namespace Compiled

variable {p : Compiled} {c : Capture}

/-- A name is that of one capture only, and the captures around it have other keys. -/
theorem exists_around [CharacterNames] {pattern : String} {o : Options}
    (hp : compile pattern o = .ok p)
    (hc : c ∈ p.captures) {name : String} (hname : c.key = .named name) :
    ∃ init segment rest, p.steps = init ++ .capture c segment :: rest ∧
      ∀ c' segment', Step.capture c' segment' ∈ init ++ rest → c'.key ≠ .named name := by
  obtain ⟨segment, hmem⟩ := exists_step_of_mem_captures hp hc
  obtain ⟨init, rest, hsteps⟩ := List.append_of_mem hmem
  refine ⟨init, segment, rest, hsteps, fun c' segment' hother hname' => ?_⟩
  -- The name would come twice among the names of the pattern.
  have hnames : (paramNames p.tokens).Nodup := paramKeys_nodup hp
  have hmiddle : paramNames p.tokens =
      paramNames (init.map Step.token) ++ name :: paramNames (rest.map Step.token) := by
    rw [(compile_tokens hp).1, hsteps, List.map_append, List.map_cons, paramNames_append,
      Step.token, paramNames_capture, hname]
    rfl
  have htwice : name ∈ paramNames (init.map Step.token) ++ paramNames (rest.map Step.token) := by
    rw [← paramNames_append, ← List.map_append]
    exact mem_paramNames (List.mem_map.2 ⟨_, hother, rfl⟩) hname'
  rw [hmiddle, List.nodup_middle, List.nodup_cons] at hnames
  exact hnames.1 htwice

/-- What the capture of a name writes stands between texts that other keys decide. -/
theorem toPath_around {init rest : List Step} {segment : Regex}
    (hsteps : p.steps = init ++ .capture c segment :: rest) {name : String}
    (hname : c.key = .named name)
    (hothers : ∀ c' segment', Step.capture c' segment' ∈ init ++ rest → c'.key ≠ .named name)
    {params params' : Mapping} {x : List Char}
    (hx : p.writeCapture c segment (params'.getD (.str name)) = .ok x)
    (hsame : ∀ key, key ≠ .str name → params'.getD key = params.getD key) :
    p.toPath params' = (p.writeSteps params init).bind fun a =>
      (p.writeSteps params rest).map fun b => String.ofList (a ++ (x ++ b)) := by
  have hvalue : c.key.toValue = .str name := by rw [hname]; rfl
  have hinit : p.writeSteps params' init = p.writeSteps params init :=
    writeSteps_congr fun c' segment' hmem =>
      hsame _ (toValue_ne_str (hothers c' segment' (List.mem_append_left rest hmem)))
  have hrest : p.writeSteps params' rest = p.writeSteps params rest :=
    writeSteps_congr fun c' segment' hmem =>
      hsame _ (toValue_ne_str (hothers c' segment' (List.mem_append_right init hmem)))
  rw [← hvalue] at hx
  rw [toPath, hsteps, writeSteps_around hx, hinit, hrest]
  cases p.writeSteps params init with
  | error f => rfl
  | ok a => cases p.writeSteps params rest <;> rfl

/-- For a parameter of any number of values nothing as its value is as good as no key. So is an
empty sequence, unless the parameter shares its segment with the text after it: the fault is then the
same too, if there is one, but a path lacks the lead of the parameter. -/
theorem toPath_missing [CharacterNames] {pattern : String} {o : Options}
    (hp : compile pattern o = .ok p)
    (hc : c ∈ p.captures) {name : String} (hname : c.key = .named name)
    (hmodifier : c.modifier = .optionalRepeated) (params : Mapping) :
    p.toPath (params.put (.str name) .null) = p.toPath (params.erase (.str name)) ∧
    ∀ v : Value, v.sequence? = some [] →
      (c.shared = false →
        p.toPath (params.put (.str name) v) = p.toPath (params.erase (.str name))) ∧
      (c.shared = true → ∃ lead, c.lead = some lead ∧
        ((∃ f, p.toPath (params.put (.str name) v) = .error f ∧
            p.toPath (params.erase (.str name)) = .error f) ∨
          ∃ a b, p.toPath (params.put (.str name) v) = .ok (String.ofList (a ++ b)) ∧
            p.toPath (params.erase (.str name)) = .ok (String.ofList (a ++ lead :: b)))) := by
  obtain ⟨init, segment, rest, hsteps, hothers⟩ := exists_around hp hc hname
  have hoptional : c.modifier.isOptional = true := by rw [hmodifier]; rfl
  -- However the name is bound, only what its capture writes differs.
  have hput : ∀ v x, p.writeCapture c segment v = .ok x →
      p.toPath (params.put (.str name) v) = (p.writeSteps params init).bind fun a =>
        (p.writeSteps params rest).map fun b => String.ofList (a ++ (x ++ b)) := fun v x hx =>
    toPath_around hsteps hname hothers (by rw [Mapping.getD_put_self, hx])
      fun key hkey => Mapping.getD_put_of_ne hkey v
  have hnull := hput .null _ (writeCapture_null segment hoptional)
  have herase : p.toPath (params.erase (.str name)) = (p.writeSteps params init).bind fun a =>
      (p.writeSteps params rest).map fun b =>
        String.ofList (a ++ ((if c.shared then c.leadText else []) ++ b)) :=
    toPath_around hsteps hname hothers
      (by rw [Mapping.getD_erase_self, writeCapture_null segment hoptional])
      fun key hkey => Mapping.getD_erase_of_ne hkey
  refine ⟨hnull.trans herase.symm, fun v hv => ?_⟩
  have hempty := hput v [] (writeCapture_empty segment hmodifier hv)
  rw [hempty, herase]
  refine ⟨fun hshared => ?_, fun hshared => ?_⟩
  · rw [hshared]
    rfl
  · have hwell : c.WellFormed := wellFormed_of_mem_captures hp hc
    obtain ⟨lead, hlead⟩ := Option.ne_none_iff_exists'.1 (hwell.shared hshared)
    refine ⟨lead, hlead, ?_⟩
    rw [hshared, if_pos rfl, Capture.leadText, hlead]
    cases p.writeSteps params init with
    | error f => exact .inl ⟨f, rfl, rfl⟩
    | ok a =>
      cases p.writeSteps params rest with
      | error f => exact .inl ⟨f, rfl, rfl⟩
      | ok b => exact .inr ⟨a, b, rfl, rfl⟩

/-- Before a slash a parameter shares its segment with nothing. -/
theorem toPath_missing_docs :
    ∃ p, compile "/docs/:path*/:page" ⟨false, false, true⟩ = .ok p ∧
      p.toPath (Mapping.erase [(.str "page", .int 7)] (.str "path")) = .ok "/docs/7" ∧
      p.toPath (Mapping.put [(.str "page", .int 7)] (.str "path") .null) = .ok "/docs/7" ∧
      p.toPath (Mapping.put [(.str "page", .int 7)] (.str "path") (.tuple [])) = .ok "/docs/7" := by
  let c : Capture := ⟨.named "path", some '/', .segment, .optionalRepeated, false⟩
  have hrun : ((compile "/docs/:path*/:page" ⟨false, false, true⟩).toOption.map fun p =>
      (decide (c ∈ p.captures), (p.toPath (Mapping.erase [(.str "page", .int 7)]
        (.str "path"))).toOption)) = some (true, some "/docs/7") := by decide +kernel
  obtain ⟨p, hp, hfacts⟩ := Option.map_eq_some_iff.1 hrun
  obtain ⟨hc, herase⟩ := Prod.mk.inj hfacts
  have hp := toOption_eq_some.1 hp
  have herase := toOption_eq_some.1 herase
  obtain ⟨hnull, hempty⟩ := toPath_missing hp (of_decide_eq_true hc) rfl rfl
    [(.str "page", .int 7)]
  exact ⟨p, hp, herase, hnull.trans herase, ((hempty (.tuple []) rfl).1 rfl).trans herase⟩

/-- Before a hyphen a parameter shares its segment. For an empty sequence its slash goes, and the
pattern does not match what is left. -/
theorem toPath_empty_shared :
    ∃ p, compile "/:x*-b" ⟨false, false, true⟩ = .ok p ∧
      p.toPath (Mapping.put [] (.str "x") (.list [])) = .ok "-b" ∧
      p.toPath (Mapping.put [] (.str "x") .null) = .ok "/-b" ∧
      p.toPath (Mapping.erase [] (.str "x")) = .ok "/-b" ∧
      p.groups? "/-b" = some [none] ∧ p.groups? "-b" = none := by
  have hrun : ((compile "/:x*-b" ⟨false, false, true⟩).toOption.map fun p =>
      ([p.toPath (Mapping.put [] (.str "x") (.list [])),
        p.toPath (Mapping.put [] (.str "x") .null),
        p.toPath (Mapping.erase [] (.str "x"))].map Except.toOption,
        p.groups? "/-b", p.groups? "-b"))
      = some ([some "-b", some "/-b", some "/-b"], some [none], none) := by decide +kernel
  obtain ⟨p, hp, hfacts⟩ := Option.map_eq_some_iff.1 hrun
  obtain ⟨hpaths, hgroups⟩ := Prod.mk.inj hfacts
  obtain ⟨hshared, hleft⟩ := Prod.mk.inj hgroups
  obtain ⟨hempty, hrest⟩ := List.cons.inj hpaths
  obtain ⟨hnull, hrest⟩ := List.cons.inj hrest
  obtain ⟨herase, -⟩ := List.cons.inj hrest
  exact ⟨p, toOption_eq_some.1 hp, toOption_eq_some.1 hempty, toOption_eq_some.1 hnull,
    toOption_eq_some.1 herase, hshared, hleft⟩

end Compiled

end SiteRouter.Pattern
