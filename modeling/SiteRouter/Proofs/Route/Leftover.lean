import SiteRouter.Proofs.Route.PublicPath

/-!
# What the query of a public path holds

A public path is the path that is written, and behind it perhaps a query string. Which parameters go
into the query is settled by their keys alone: those that name a capture of the pattern do not, and
of all others each that has a value does, once (`publicPath_pairs`). A capture without a name takes
its value from under its position. A position is no name, so that value stands in the path and in
the query (`publicPath_position_twice`).
-/

namespace SiteRouter

namespace Route

variable {r : Route} {params : Mapping}

/-- The parameters that the query of a public path holds: what has a value and no place in the
pattern. -/
def queried (r : Route) (params : Mapping) : Mapping :=
  (r.leftover params).filter fun e => !e.2.isNull

/-- They are among the parameters, in the same order. -/
theorem queried_sublist (r : Route) (params : Mapping) : (r.queried params).Sublist params := by
  unfold queried leftover
  exact List.filter_sublist.trans List.filter_sublist

/-- They are the parameters with a value under any other keys than the names of the captures. -/
theorem mem_queried {k v : Value} :
    (k, v) ∈ r.queried params ↔
      (k, v) ∈ params ∧ v.isNull = false ∧ ∀ name ∈ r.paramKeys, k ≠ .str name := by
  unfold queried
  rw [List.mem_filter, mem_leftover, Bool.not_eq_true']
  constructor
  · rintro ⟨⟨hmem, hkey⟩, hnull⟩
    exact ⟨hmem, hnull, hkey⟩
  · rintro ⟨hmem, hnull, hkey⟩
    exact ⟨⟨hmem, hkey⟩, hnull⟩

/-- A public path is a written path, and a query string behind a question mark unless it is empty.
The query has one pair for each of some entries of the parameters, in their order. No key of these
entries is the name of a capture, every entry with another key and with a value is one of them, and
their keys are different if those of the parameters are. -/
theorem publicPath_pairs {shown : String} (hshown : r.publicPath params = .ok shown) :
    ∃ path query, r.compiled.toPath params = .ok path ∧
      (shown = shownPath path ++ "?" ++ query ∨ shown = shownPath path ∧ query = "") ∧
      ∃ entries : Mapping,
        Query.pairs query = entries.map (fun e => (e.1.text, Query.valueText e.2)) ∧
        entries.Sublist params ∧
        (∀ k v, (k, v) ∈ entries ↔
          (k, v) ∈ params ∧ v.isNull = false ∧ ∀ name ∈ r.paramKeys, k ≠ .str name) ∧
        ((params.map Prod.fst).Nodup → (entries.map Prod.fst).Nodup) := by
  obtain ⟨path, hpath, -, hshape⟩ := publicPath_eq_ok.1 hshown
  have hsublist := r.queried_sublist params
  have hpairs : Query.pairs (Query.render (r.leftover params)) =
      (r.queried params).map fun e => (e.1.text, Query.valueText e.2) := by
    rw [Query.pairs_render, Query.written_eq]
    rfl
  refine ⟨path, Query.render (r.leftover params), hpath, ?_, r.queried params, hpairs, hsublist,
    fun k v => mem_queried, fun hkeys => (hsublist.map Prod.fst).nodup hkeys⟩
  split at hshape
  · next hempty =>
    rw [List.isEmpty_iff.1 hempty]
    exact .inr ⟨hshape, rfl⟩
  · exact .inl hshape

/-- A name, a position, any other key and a key without a value. -/
theorem publicPath_pairs_files :
    ∃ (r : Route) (query : String) (entries : Mapping),
      Route.build (.str "f") (.str "/files/:dir/(.*)") .null .null (.bool false) (.bool false)
        = .ok r ∧
      r.publicPath [(.str "dir", .str "a"), (.str "q", .int 1), (.str "z", .null),
        (.int 0, .str "b")] = .ok "/files/a/b?q=1&0=b" ∧
      Query.pairs query = entries.map (fun e => (e.1.text, Query.valueText e.2)) ∧
      (.str "q", .int 1) ∈ entries ∧ (.int 0, .str "b") ∈ entries ∧
      (∀ v, (.str "dir", v) ∉ entries) ∧ (entries.map Prod.fst).Nodup := by
  let params : Mapping := [(.str "dir", .str "a"), (.str "q", .int 1), (.str "z", .null),
    (.int 0, .str "b")]
  have hrun : ((Route.build (.str "f") (.str "/files/:dir/(.*)") .null .null (.bool false)
      (.bool false)).toOption.bind fun r => (r.publicPath params).toOption.map fun shown =>
        (r.paramKeys, shown)) = some (["dir"], "/files/a/b?q=1&0=b") := by decide +kernel
  obtain ⟨r, hr, hrun⟩ := Option.bind_eq_some_iff.1 hrun
  obtain ⟨shown, hshown, hfacts⟩ := Option.map_eq_some_iff.1 hrun
  obtain ⟨hkeys, rfl⟩ := Prod.mk.inj hfacts
  have hr := toOption_eq_some.1 hr
  have hshown := toOption_eq_some.1 hshown
  have hdifferent : (params.map Prod.fst).Nodup := by simp [params]
  obtain ⟨path, query, -, -, entries, hpairs, -, hentries, hnodup⟩ := publicPath_pairs hshown
  rw [hkeys] at hentries
  refine ⟨r, query, entries, hr, hshown, hpairs, (hentries _ _).2 ⟨?_, rfl, ?_⟩,
    (hentries _ _).2 ⟨?_, rfl, ?_⟩, fun v hmem => ?_, hnodup hdifferent⟩
  · simp [params]
  · simp
  · simp [params]
  · simp
  · exact ((hentries _ _).1 hmem).2.2 "dir" List.mem_cons_self rfl

/-- The value under the position of a capture without a name fills the capture, since there is less
in the path without it, and it stands in the query as well. -/
theorem publicPath_position_twice :
    ∃ r : Route,
      Route.build (.str "f") (.str "/files/(.*)") .null .null (.bool false) (.bool false) = .ok r ∧
      r.compiled.captures.map (·.key) = [.position 0] ∧
      r.compiled.toPath [] = .ok "/files" ∧
      r.compiled.toPath [(.int 0, .str "a")] = .ok "/files/a" ∧
      r.publicPath [(.int 0, .str "a")] = .ok "/files/a?0=a" := by
  have hrun : ((Route.build (.str "f") (.str "/files/(.*)") .null .null (.bool false)
      (.bool false)).toOption.map fun r => (r.compiled.captures.map (·.key),
        (r.compiled.toPath []).toOption, (r.compiled.toPath [(.int 0, .str "a")]).toOption,
        (r.publicPath [(.int 0, .str "a")]).toOption)) =
      some ([.position 0], some "/files", some "/files/a", some "/files/a?0=a") := by
    decide +kernel
  obtain ⟨r, hr, hfacts⟩ := Option.map_eq_some_iff.1 hrun
  simp only [Prod.mk.injEq] at hfacts
  obtain ⟨hkeys, hless, hpath, hshown⟩ := hfacts
  exact ⟨r, toOption_eq_some.1 hr, hkeys, toOption_eq_some.1 hless, toOption_eq_some.1 hpath,
    toOption_eq_some.1 hshown⟩

end Route

end SiteRouter
