import SiteRouter.Route
import SiteRouter.Proofs.Pattern.Values
import SiteRouter.Text.BasicLatin

/-!
# Parameters come back from a path

A written path is shared out among the segments in a known way, so a match of it returns the parts
that were written, and reading the escapes gives the texts back (`decodeChars_parts`).
-/

namespace SiteRouter

open Text

namespace Pattern

/-! ## Reading the escapes -/

/-- Parts joined by slashes are decoded as the texts joined by slashes. -/
theorem decodeChars_parts (t : List Char) (ts : List (List Char)) :
    Percent.decodeChars (['/'].intercalate ((t :: ts).map encodePart)) =
      ['/'].intercalate (t :: ts) :=
  Percent.decodeChars_intercalate (by decide) (by decide) (by decide) (t :: ts)

/-- The binding of a parameter: its name with the text of its value. A value that is not given is
not bound. -/
def Segment.binding? (params : Mapping) : Segment → Option (String × String)
  | literal _ => none
  | parameter name _ _ =>
    if (paramOf params name).isGiven then
      some (String.ofList name, Query.valueText (paramOf params name))
    else none

/-- The group of a parameter is read as its binding. -/
theorem bind_group (name : List Char) (body : Option (List Char)) (m : Modifier) (v : Value)
    (cs : List Capture) (gs : List (Option String)) :
    Route.bind (Segment.capture name body m :: cs)
        ((joined? (v.texts.map encodePart)).map String.ofList :: gs) =
      (if v.isGiven then [(String.ofList name, Query.valueText v)] else []) ++
        Route.bind cs gs := by
  cases hgiven : v.isGiven with
  | false =>
    rw [Value.texts_of_not_isGiven hgiven]
    rfl
  | true =>
    obtain ⟨t, ts, htexts, hvalue⟩ := Value.texts_of_isGiven hgiven
    -- Reading the escapes in the group gives the text of the value.
    have hdecode : Percent.decode (String.ofList (['/'].intercalate ((t :: ts).map encodePart)))
        = Query.valueText v := by
      rw [Percent.decode, String.toList_ofList, decodeChars_parts, ← hvalue, String.ofList_toList]
    rw [htexts]
    show (String.ofList name, Percent.decode _) :: Route.bind cs gs = _
    rw [hdecode]
    rfl

/-- The groups of a written path are read as the bindings of the parameters. -/
theorem bind_groups (params : Mapping) (ss : List Segment) :
    Route.bind (captures (Segment.tokens ss))
        ((ss.filterMap (Segment.group? params)).map (Option.map String.ofList)) =
      ss.filterMap (Segment.binding? params) := by
  induction ss with
  | nil => rfl
  | cons s ss ih =>
    cases s with
    | literal t =>
      show Route.bind (captures (prependLiteral ('/' :: t) (Segment.tokens ss))) _ = _
      rw [captures_prependLiteral]
      exact ih
    | parameter name body m =>
      show Route.bind (Segment.capture name body m :: captures (Segment.tokens ss))
        ((joined? ((paramOf params name).texts.map encodePart)).map String.ofList :: _) = _
      rw [bind_group, ih, List.filterMap_cons, Segment.binding?]
      split <;> rfl

/-! ## Every written path is read back -/

/-- A written path is the parts that the segments write, and the segments can share them out again,
each parameter getting what it wrote. -/
theorem Plain.shares_toPath {ss : List Segment} (h : Plain ss) {o : Options} {params : Mapping}
    {path : String} (hpath : (compiledPlain ss o).toPath params = .ok path) :
    path.toList = slashed (ss.flatMap (Segment.parts params)) ∧
      (∀ u ∈ ss.flatMap (Segment.parts params), IsPart u) ∧
      Shares (!o.sensitive) ss (ss.flatMap (Segment.parts params))
        (ss.filterMap (Segment.group? params)) := by
  have hss : ∀ s ∈ ss, s.WellFormed ∧ s.body? = none :=
    fun s hs => ⟨h.wellFormed s hs, h.noBody s hs⟩
  exact Compiled.writeSteps_shares hss (Compiled.toPath_eq_ok.1 hpath)

/-- A written path is the parts that the segments write. -/
theorem Plain.toList_toPath {ss : List Segment} (h : Plain ss) {o : Options} {params : Mapping}
    {path : String} (hpath : (compiledPlain ss o).toPath params = .ok path) :
    path.toList = slashed (ss.flatMap (Segment.parts params)) :=
  (h.shares_toPath hpath).1

/-- What a plain pattern with at most one modifier returns for a path that it writes, and for that
path with a slash after it that does not count. -/
theorem Plain.groups?_toPath {ss : List Segment} (h : Plain ss)
    (hone : (ss.filter Segment.isModified).length ≤ 1) {o : Options} (hend : o.toEnd = true)
    {params : Mapping} {written path : String}
    (hwritten : (compiledPlain ss o).toPath params = .ok written) {rest : List Char}
    (hpath : path.toList = written.toList ++ rest)
    (hrest : rest = [] ∨ (o.strict = false ∧ rest = ['/'])) :
    (compiledPlain ss o).groups? path =
      some ((ss.filterMap (Segment.group? params)).map (Option.map String.ofList)) := by
  obtain ⟨hparts, hall, hshares⟩ := h.shares_toPath hwritten
  rw [hparts] at hpath
  exact (h.groups?_eq_some_iff hone hend).2 ⟨_, rest, _, hpath, hall, hrest, hshares, rfl⟩

/-- A plain pattern with at most one modifier compiles, and the parameters that are read in a path
that it writes are those that were given, each with the text of its value. -/
theorem compile_bind_toPath [CharacterNames] {ss : List Segment} (h : Plain ss)
    (hone : (ss.filter Segment.isModified).length ≤ 1) (sensitive strict : Bool) :
    ∃ p, compile (Segment.pattern ss) ⟨sensitive, strict, true⟩ = .ok p ∧
      ∀ (params : Mapping) (path : String), p.toPath params = .ok path →
        (p.groups? path).map (Route.bind p.captures) =
          some (ss.filterMap (Segment.binding? params)) := by
  refine ⟨_, h.compile_eq _, fun params path hpath => ?_⟩
  rw [h.groups?_toPath hone rfl hpath (List.append_nil _).symm (.inl rfl), Option.map_some]
  exact congrArg some (bind_groups params ss)

/-- A repeated parameter before a text comes back, and what needed escapes does too. -/
theorem compile_bind_toPath_docs :
    ∃ p, compile "/docs/:path*/edit" ⟨true, true, true⟩ = .ok p ∧
      (p.groups? "/docs/a%2Fb/c%20d/edit").map (Route.bind p.captures)
        = some [("path", "a/b/c d")] := by
  let ss : List Segment := [.literal "docs".toList, .parameter "path".toList none .optionalRepeated,
    .literal "edit".toList]
  let params : Mapping := [(.str "path", .list [.str "a/b", .str "c d"])]
  have hplain : Plain ss := by decide
  have hone : (ss.filter Segment.isModified).length ≤ 1 := by decide
  obtain ⟨p, hp, hbind⟩ := compile_bind_toPath hplain hone true true
  cases hp.symm.trans (hplain.compile_eq _)
  have hpath : (compiledPlain ss ⟨true, true, true⟩).toPath params
      = .ok "/docs/a%2Fb/c%20d/edit" := by rfl
  exact ⟨_, hp, hbind params _ hpath⟩

end Pattern

end SiteRouter
