import SiteRouter.Proofs.Except
import SiteRouter.Proofs.Pattern.Parts
import SiteRouter.Text.BasicLatin

/-!
# The language of plain patterns

A pattern is plain if it is a row of texts and parameters without sub-patterns. Plain patterns
compile, and with at most one modifier the match is a function of the parts of the path: it exists
exactly where the segments can share the parts out, and its groups are what the parameters get.
-/

namespace SiteRouter.Pattern

/-- Segments without sub-patterns and with different names, at least one of them. -/
structure Plain (ss : List Segment) : Prop where
  /-- There is a segment. -/
  nonempty : ss ≠ []
  /-- The segments can be written. -/
  wellFormed : ∀ s ∈ ss, s.WellFormed
  /-- No parameter has a sub-pattern. -/
  noBody : ∀ s ∈ ss, s.body? = none
  /-- No name is used twice. -/
  names : (ss.filterMap Segment.name?).Nodup

instance (ss : List Segment) : Decidable (Plain ss) :=
  decidable_of_iff (ss ≠ [] ∧ (∀ s ∈ ss, s.WellFormed) ∧ (∀ s ∈ ss, s.body? = none) ∧
      (ss.filterMap Segment.name?).Nodup)
    ⟨fun ⟨a, b, c, d⟩ => ⟨a, b, c, d⟩, fun ⟨a, b, c, d⟩ => ⟨a, b, c, d⟩⟩

/-- The pattern that segments are written as. -/
def Segment.pattern (ss : List Segment) : String := String.ofList (textAll ss)

/-- The compiled form of a plain pattern. -/
def compiledPlain (ss : List Segment) (o : Options) : Compiled :=
  compiledDefault (Segment.pattern ss) o (Segment.tokens ss)

/-! ## Tokens -/

/-- What holds of the texts of segments, however they are joined, and of the parameters holds of the
tokens. -/
theorem forall_tokens {P : Token → Prop} {ss : List Segment}
    (hliteral : ∀ t, .literal t ∈ ss → P (.literal ('/' :: t)))
    (hjoin : ∀ t u, .literal t ∈ ss → P (.literal u) → P (.literal ('/' :: t ++ u)))
    (hparameter : ∀ name body m, .parameter name body m ∈ ss →
      P (.capture (Segment.capture name body m))) :
    ∀ t ∈ Segment.tokens ss, P t := by
  induction ss with
  | nil => nofun
  | cons s ss ih =>
    have ih := ih (fun t ht => hliteral t (.tail s ht)) (fun t u ht => hjoin t u (.tail s ht))
      fun name body m hm => hparameter name body m (.tail s hm)
    cases s with
    | parameter name body m =>
      exact List.forall_mem_cons.2 ⟨hparameter name body m (.head ss), ih⟩
    | literal t =>
      show ∀ t' ∈ prependLiteral ('/' :: t) (Segment.tokens ss), P t'
      unfold prependLiteral
      split
      · next u ts htokens =>
        rw [htokens, List.forall_mem_cons] at ih
        exact List.forall_mem_cons.2 ⟨hjoin t u (.head ss) ih.1, ih.2⟩
      · exact List.forall_mem_cons.2 ⟨hliteral t (.head ss), ih⟩

/-- A text before tokens adds no capture. -/
theorem captures_prependLiteral (t : List Char) (ts : List Token) :
    captures (prependLiteral t ts) = captures ts := by
  unfold prependLiteral
  split <;> rfl

/-- The capture of a segment that is a parameter. -/
def Segment.capture? : Segment → Option Capture
  | literal _ => none
  | parameter name body m => some (capture name body m)

/-- The captures of the tokens are those of the segments. -/
theorem captures_tokens (ss : List Segment) :
    captures (Segment.tokens ss) = ss.filterMap Segment.capture? := by
  induction ss with
  | nil => rfl
  | cons s ss ih =>
    cases s with
    | literal t =>
      rw [Segment.tokens, captures_prependLiteral, ih]
      rfl
    | parameter name body m => exact congrArg (Segment.capture name body m :: ·) ih

/-- The tokens of segments without a sub-pattern have none. -/
theorem isDefault_tokens {ss : List Segment} (h : ∀ s ∈ ss, s.body? = none) :
    ∀ t ∈ Segment.tokens ss, t.IsDefault := by
  refine forall_tokens (fun t _ => List.cons_ne_nil '/' t) (fun t u _ _ => nofun) ?_
  intro name body m hm
  obtain rfl : body = none := h _ hm
  exact ⟨nofun, by rintro x ⟨⟩; exact .inl rfl⟩

/-- No literal among the tokens of segments ends in a slash. -/
theorem literal_not_slash {ss : List Segment} (h : ∀ s ∈ ss, s.WellFormed) :
    ∀ t ∈ Segment.tokens ss, ∀ u, t = .literal u → u.getLast? ≠ some '/' := by
  have hliteral : ∀ t, .literal t ∈ ss → ('/' :: t).getLast? ≠ some '/' := by
    intro t ht hslash
    -- The slash would be one of the text, which is not empty.
    obtain ⟨hne, hplain⟩ : (Segment.literal t).WellFormed := h _ ht
    have hmem : '/' ∈ t := by
      rw [List.getLast?_cons_of_ne_nil hne] at hslash
      exact List.mem_of_getLast? hslash
    exact absurd (hplain '/' hmem) (by decide)
  refine forall_tokens ?_ ?_ ?_
  · rintro t ht _ ⟨⟩
    exact hliteral t ht
  · rintro t u ht hu _ ⟨⟩
    rw [List.getLast?_append]
    cases hlast : u.getLast? with
    | none => exact hliteral t ht
    | some c => exact fun heq => hu u rfl (hlast.trans heq)
  · exact nofun

/-- The steps of segments do not end in a slash. -/
theorem endsInSlash_tokens {step : Token → Step} (htoken : ∀ t, (step t).token = t)
    {ss : List Segment} (h : ∀ s ∈ ss, s.WellFormed) :
    endsInSlash ((Segment.tokens ss).map step) = false := by
  rw [Bool.eq_false_iff]
  intro hslash
  obtain ⟨text, hlast⟩ := (endsInSlash_map_iff htoken _).1 hslash
  exact literal_not_slash h _ (List.mem_of_getLast? hlast) _ rfl List.getLast?_concat

namespace Plain

variable {ss : List Segment}

/-- The tokens of a plain pattern have no sub-pattern. -/
theorem isDefault (h : Plain ss) : ∀ t ∈ Segment.tokens ss, t.IsDefault :=
  isDefault_tokens h.noBody

/-- A plain pattern does not end in a slash. -/
theorem endsInSlash_eq (h : Plain ss) :
    endsInSlash ((Segment.tokens ss).map Token.defaultStep) = false :=
  endsInSlash_tokens Token.token_defaultStep h.wellFormed

/-- A plain pattern compiles. -/
theorem compile_eq [CharacterNames] (h : Plain ss) (o : Options) :
    compile (Segment.pattern ss) o = .ok (compiledPlain ss o) := by
  refine compile_default o ?_ h.isDefault
  rw [Segment.pattern, String.toList_ofList]
  exact parse_textAll h.wellFormed h.names

/-- Segments without sub-patterns that compile are plain: a name that is used twice is refused. -/
theorem of_compile [CharacterNames] (hne : ss ≠ []) (hwell : ∀ s ∈ ss, s.WellFormed)
    (hbody : ∀ s ∈ ss, s.body? = none) {o : Options} {p : Compiled}
    (h : compile (Segment.pattern ss) o = .ok p) : Plain ss := by
  obtain ⟨ts, htokens, -⟩ := bind_eq_ok.1 h
  rw [Segment.pattern, String.toList_ofList, mapError_eq_ok] at htokens
  obtain ⟨r, hread, -⟩ := map_eq_ok.1 htokens
  exact ⟨hne, hwell, hbody, (Reader.names_of_readAll hwell hread).1⟩

/-- A match of a plain pattern that must reach the end of the path leaves nothing, or a slash that
does not count. -/
theorem derives_iff (h : Plain ss) {o : Options} (hend : o.toEnd = true) {w rest : List Char}
    {vs : List (Option (List Char))} :
    (Derives (!o.sensitive) (matchedSteps o (compiledPlain ss o).steps) w vs ∧
        EndsAt o (endsInSlash (compiledPlain ss o).steps) rest) ↔
      (∃ ps, (∀ u ∈ ps, IsPart u) ∧ w = slashed ps ∧ Shares (!o.sensitive) ss ps vs) ∧
        (rest = [] ∨ (o.strict = false ∧ rest = ['/'])) := by
  -- The pattern does not end in a slash, so all its steps are matched.
  have hsteps : matchedSteps o (compiledPlain ss o).steps
      = (Segment.tokens ss).map Token.defaultStep :=
    matchedSteps_of_not_endsInSlash o h.endsInSlash_eq
  rw [hsteps, endsAt_toEnd hend, derives_tokens_iff fun s hs => ⟨h.wellFormed s hs, h.noBody s hs⟩]

/-- The groups of a match of a plain pattern are what the segments get of the parts of the path. -/
theorem groups?_eq_some_iff (h : Plain ss)
    (hone : (ss.filter Segment.isModified).length ≤ 1) {o : Options} (hend : o.toEnd = true)
    {path : String} {gs : List (Option String)} :
    (compiledPlain ss o).groups? path = some gs ↔
      ∃ ps rest vs, path.toList = slashed ps ++ rest ∧ (∀ u ∈ ps, IsPart u) ∧
        (rest = [] ∨ (o.strict = false ∧ rest = ['/'])) ∧ Shares (!o.sensitive) ss ps vs ∧
        gs = vs.map (Option.map String.ofList) := by
  have hfaithful : (compiledPlain ss o).Faithful := faithful_compiledDefault _ o h.isDefault
  constructor
  · intro hgs
    obtain ⟨w, rest, vs, hpath, hw, hrest, rfl⟩ := hfaithful.groups?_sound hgs
    obtain ⟨⟨ps, hps, rfl, hshares⟩, hrest⟩ := (h.derives_iff hend).1 ⟨hw, hrest⟩
    exact ⟨ps, rest, vs, hpath, hps, hrest, hshares, rfl⟩
  · rintro ⟨ps, rest, vs, hpath, hps, hrest, hshares, rfl⟩
    obtain ⟨hw, hends⟩ := (h.derives_iff hend).2 ⟨⟨ps, hps, rfl, hshares⟩, hrest⟩
    refine hfaithful.groups?_eq hpath hw hends fun w' rest' vs' hpath' hw' hends' => ?_
    -- The path settles the parts, and these what each segment gets.
    obtain ⟨⟨qs, hqs, rfl, hshares'⟩, hrest'⟩ := (h.derives_iff hend).1 ⟨hw', hends'⟩
    obtain ⟨rfl, rfl⟩ := slashed_append_inj hps hqs (hrest.imp_right And.right)
      (hrest'.imp_right And.right) (hpath.symm.trans hpath')
    exact hshares'.unique hone hshares

/-- A modifier at the last segment is the only one. -/
theorem filter_isModified_length_le (hlast : ∀ s ∈ ss.dropLast, s.isModified = false) :
    (ss.filter Segment.isModified).length ≤ 1 := by
  rcases List.eq_nil_or_concat ss with rfl | ⟨init, last, rfl⟩
  · exact Nat.zero_le 1
  · rw [List.concat_eq_append] at hlast ⊢
    rw [List.dropLast_concat] at hlast
    have hinit : init.filter Segment.isModified = [] :=
      List.filter_eq_nil_iff.2 fun s hs => Bool.eq_false_iff.1 (hlast s hs)
    rw [List.filter_append, hinit, List.nil_append]
    exact List.length_filter_le _ [last]

end Plain

/-- A plain pattern whose last segment alone may have a modifier compiles, and it matches a path
exactly if the path is parts with a slash before each, and one more slash unless slashes at the end
count, such that the segments can share the parts out. The groups are then what the parameters
get. -/
theorem compile_groups?_eq_some_iff [CharacterNames] {ss : List Segment} (h : Plain ss)
    (hlast : ∀ s ∈ ss.dropLast, s.isModified = false) (sensitive strict : Bool) :
    ∃ p, compile (Segment.pattern ss) ⟨sensitive, strict, true⟩ = .ok p ∧
      ∀ (path : String) (gs : List (Option String)), p.groups? path = some gs ↔
        ∃ ps rest vs, path.toList = slashed ps ++ rest ∧ (∀ u ∈ ps, IsPart u) ∧
          (rest = [] ∨ (strict = false ∧ rest = ['/'])) ∧ Shares (!sensitive) ss ps vs ∧
          gs = vs.map (Option.map String.ofList) :=
  ⟨_, h.compile_eq _, fun _ _ =>
    h.groups?_eq_some_iff (Plain.filter_isModified_length_le hlast) rfl⟩

/-- The pattern `/docs/:path+` reads the two parts after the first one, in any case of the text. -/
theorem compile_groups?_eq_some_iff_docs :
    ∃ p, compile "/docs/:path+" ⟨false, false, true⟩ = .ok p ∧
      p.groups? "/Docs/a/b/" = some [some "a/b"] := by
  let ss : List Segment := [.literal "docs".toList, .parameter "path".toList none .repeated]
  have hplain : Plain ss := by decide
  have hlast : ∀ s ∈ ss.dropLast, s.isModified = false := by decide
  obtain ⟨p, hp, hgroups⟩ := compile_groups?_eq_some_iff hplain hlast false false
  -- The text takes the first part, the parameter the other two.
  have hsame : SameText true "docs".toList "Docs".toList :=
    .cons (by decide) (SameText.refl true "ocs".toList)
  have hallows : Modifier.repeated.Allows ["a".toList, "b".toList].length := Nat.le_add_left 1 1
  have hshares : Shares true ss ["Docs".toList, "a".toList, "b".toList] [some "a/b".toList] :=
    .literal hsame (.parameter hallows .nil)
  have hparts : ∀ u ∈ ["Docs".toList, "a".toList, "b".toList], u ≠ [] ∧ '/' ∉ u := by decide
  exact ⟨p, hp, (hgroups _ _).2 ⟨_, ['/'], _, rfl, hparts, .inr ⟨rfl, rfl⟩, hshares, rfl⟩⟩

end SiteRouter.Pattern
