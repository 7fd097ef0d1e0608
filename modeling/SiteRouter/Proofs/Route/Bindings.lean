import Mathlib.Data.List.Nodup
import SiteRouter.Proofs.Route.Params
import SiteRouter.Proofs.Url.Query

/-!
# What the parameters of a plain pattern are bound to

Parameters with different names fall into those that the segments name and the others. The first
are bound by a match, the others stand in the query of a path; together they are all parameters
(`others_bindings_perm`).
-/

namespace SiteRouter.Pattern

/-- The names of the parameters of segments. -/
def Segment.names (ss : List Segment) : List String :=
  (ss.filterMap Segment.name?).map String.ofList

theorem Plain.names_nodup {ss : List Segment} (h : Plain ss) :
    (Segment.names ss).Nodup :=
  List.Nodup.map (fun _ _ heq => String.ofList_injective heq) h.names

/-- The parameters of a plain pattern are those of its segments. -/
theorem paramKeys_compiledPlain (ss : List Segment) (o : Options) :
    (compiledPlain ss o).paramKeys = Segment.names ss := by
  show (captures (Segment.tokens ss)).filterMap (·.key.name?) = _
  induction ss with
  | nil => rfl
  | cons s ss ih =>
    cases s with
    | literal t =>
      show (captures (prependLiteral _ _)).filterMap _ = _
      rw [captures_prependLiteral, ih]
      rfl
    | parameter name body m =>
      show String.ofList name :: (captures (Segment.tokens ss)).filterMap _ = _
      rw [ih]
      rfl

/-- The value of a parameter among others. -/
theorem paramOf_ofStrings {params : List (String × Value)}
    (hkeys : (params.map Prod.fst).Nodup) {name : List Char} {v : Value}
    (h : (String.ofList name, v) ∈ params) :
    paramOf (Mapping.ofStrings params) name = v := by
  rw [paramOf, Mapping.getD, Mapping.get?_ofStrings_of_mem hkeys h, Option.getD_some]

/-- A parameter that is given is among the parameters. -/
theorem mem_of_isGiven {params : List (String × Value)}
    (hkeys : (params.map Prod.fst).Nodup) {name : List Char}
    (h : (paramOf (Mapping.ofStrings params) name).isGiven = true) :
    (String.ofList name, paramOf (Mapping.ofStrings params) name) ∈ params := by
  by_cases hmem : String.ofList name ∈ params.map Prod.fst
  · obtain ⟨⟨k, v⟩, hv, hk⟩ := List.mem_map.1 hmem
    obtain rfl : k = String.ofList name := hk
    rwa [paramOf_ofStrings hkeys hv]
  · rw [paramOf, Mapping.getD, Mapping.get?_ofStrings_of_not_mem hmem] at h
    cases h

/-- What the parameters of segments are bound to. -/
def Segment.bindings (params : Mapping) (ss : List Segment) : List (String × String) :=
  ss.filterMap (Segment.binding? params)

/-- The parameters that are bound are those of the segments that are given. -/
theorem mem_bindings {params : List (String × Value)}
    (hkeys : (params.map Prod.fst).Nodup) {ss : List Segment} {k t : String} :
    (k, t) ∈ Segment.bindings (Mapping.ofStrings params) ss ↔
      k ∈ Segment.names ss ∧ ∃ v, (k, v) ∈ params ∧ v.isGiven = true ∧ t = Query.valueText v := by
  unfold Segment.bindings Segment.names
  simp only [List.mem_filterMap, List.mem_map]
  constructor
  · rintro ⟨s, hs, heq⟩
    cases s with
    | literal u => cases heq
    | parameter name body m =>
      rw [Segment.binding?] at heq
      split at heq
      · next hgiven =>
        cases heq
        exact ⟨⟨name, ⟨_, hs, rfl⟩, rfl⟩, _, mem_of_isGiven hkeys hgiven, hgiven, rfl⟩
      · cases heq
  · rintro ⟨⟨name, ⟨s, hs, hname⟩, rfl⟩, v, hmem, hgiven, rfl⟩
    cases s with
    | literal u => cases hname
    | parameter name' body m =>
      cases hname
      refine ⟨_, hs, ?_⟩
      rw [Segment.binding?, paramOf_ofStrings hkeys hmem, if_pos hgiven]

/-- The names that are bound are among the names of the segments, in their order. -/
theorem bindings_keys_sublist (params : Mapping) (ss : List Segment) :
    ((Segment.bindings params ss).map Prod.fst).Sublist (Segment.names ss) := by
  induction ss with
  | nil => exact .slnil
  | cons s ss ih =>
    cases s with
    | literal t => exact ih
    | parameter name body m =>
      have hnames : Segment.names (.parameter name body m :: ss)
          = String.ofList name :: Segment.names ss := rfl
      rw [hnames, Segment.bindings, List.filterMap_cons, Segment.binding?]
      split
      · next hnone => exact ih.cons _
      · next p hsome =>
        split at hsome
        · cases hsome
          exact ih.cons_cons _
        · cases hsome

/-- The parameters without a place in the segments. -/
def Segment.others (ss : List Segment) (params : List (String × Value)) :
    List (String × Value) :=
  params.filter fun p => !(Segment.names ss).contains p.1

theorem Segment.mem_others {ss : List Segment} {params : List (String × Value)}
    {p : String × Value} :
    p ∈ Segment.others ss params ↔ p ∈ params ∧ p.1 ∉ Segment.names ss := by
  rw [Segment.others, List.mem_filter, Bool.not_eq_true', Bool.eq_false_iff, ne_eq,
    List.contains_iff_mem]

/-- Parameters without a place have different names where all parameters have. -/
theorem others_nodup {params : List (String × Value)} (hkeys : (params.map Prod.fst).Nodup)
    (ss : List Segment) : ((Segment.others ss params).map Prod.fst).Nodup :=
  (List.filter_sublist.map Prod.fst).nodup hkeys

/-- The other parameters and the bindings have different names. -/
theorem others_bindings_nodup {params : List (String × Value)}
    (hkeys : (params.map Prod.fst).Nodup) {ss : List Segment} (h : Plain ss) :
    ((Query.textPairs (Segment.others ss params) ++
      Segment.bindings (Mapping.ofStrings params) ss).map Prod.fst).Nodup := by
  have htexts := Query.textPairs_keys_sublist (Segment.others ss params)
  have hbindings := bindings_keys_sublist (Mapping.ofStrings params) ss
  rw [List.map_append, List.nodup_append]
  refine ⟨htexts.nodup (others_nodup hkeys ss), hbindings.nodup h.names_nodup, ?_⟩
  -- A name is that of a segment or of another parameter, not of both.
  rintro k hk _ hk' rfl
  obtain ⟨p, hp, rfl⟩ := List.mem_map.1 (htexts.subset hk)
  exact (Segment.mem_others.1 hp).2 (hbindings.subset hk')

/-- The text of a parameter that is no sequence is one of another parameter or of a binding. -/
theorem text_mem_others_bindings {params : List (String × Value)}
    (hkeys : (params.map Prod.fst).Nodup) (ss : List Segment) {k : String} {v : Value}
    (hmem : (k, v) ∈ params) (hnull : v.isNull = false) (hscalar : v.sequence? = none) :
    (k, v.text) ∈ Query.textPairs (Segment.others ss params) ++
      Segment.bindings (Mapping.ofStrings params) ss := by
  have htext : v.text = Query.valueText v := by rw [Query.valueText, hscalar]
  have hgiven : v.isGiven = true := by
    rw [v.isGiven_iff, hscalar]
    exact ⟨hnull, nofun⟩
  rw [List.mem_append, htext]
  by_cases hname : k ∈ Segment.names ss
  · exact .inr ((mem_bindings hkeys).2 ⟨hname, v, hmem, hgiven, rfl⟩)
  · exact .inl (Query.mem_textPairs.2 ⟨v, Segment.mem_others.2 ⟨hmem, hname⟩, hnull, rfl⟩)

/-- Where no parameter of the segments is an empty sequence, the texts of the other parameters and
the bindings are the texts of all parameters. -/
theorem others_bindings_perm {params : List (String × Value)}
    (hkeys : (params.map Prod.fst).Nodup) {ss : List Segment} (h : Plain ss)
    (hitems : ∀ p ∈ params, p.1 ∈ Segment.names ss → p.2.sequence? ≠ some []) :
    (Query.textPairs (Segment.others ss params) ++
      Segment.bindings (Mapping.ofStrings params) ss).Perm (Query.textPairs params) := by
  -- No pair comes twice on either side, so it is enough that both have the same pairs.
  have hall := ((Query.textPairs_keys_sublist params).nodup hkeys).of_map
  refine (List.perm_ext_iff_of_nodup (others_bindings_nodup hkeys h).of_map hall).2 ?_
  rintro ⟨k, t⟩
  rw [List.mem_append, Query.mem_textPairs, Query.mem_textPairs, mem_bindings hkeys]
  constructor
  · rintro (⟨v, hmem, hnull, rfl⟩ | ⟨-, v, hmem, hgiven, rfl⟩)
    · exact ⟨v, (Segment.mem_others.1 hmem).1, hnull, rfl⟩
    · exact ⟨v, hmem, (v.isGiven_iff.1 hgiven).1, rfl⟩
  · rintro ⟨v, hmem, hnull, rfl⟩
    by_cases hname : k ∈ Segment.names ss
    · exact .inr ⟨hname, v, hmem, v.isGiven_iff.2 ⟨hnull, hitems _ hmem hname⟩, rfl⟩
    · exact .inl ⟨v, Segment.mem_others.2 ⟨hmem, hname⟩, hnull, rfl⟩

end SiteRouter.Pattern
