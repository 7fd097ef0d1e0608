import SiteRouter.Proofs.Pattern.Slashes
import SiteRouter.Proofs.Registry.Pair
import SiteRouter.Text.BasicLatin

/-!
# Values do not change the structure of a public path

A public path is a path and perhaps a query string. Which part is which depends on the marks in it,
and no value brings a mark along: the URL comes apart into the path that was written and the query
of the parameters that have no place in it, without a fragment. Nor does a value bring a slash
along, unless a star reads it, so the number of segments is that of the shapes of the values
(`publicPath_structure`).
-/

namespace SiteRouter

open Pattern (isEscaped_question isEscaped_hash)

namespace Route

variable {r : Route} {o : Pattern.Options}

/-- The shown path has no mark where no literal has one. -/
theorem isBare_shownPath [CharacterNames] (hr : Pattern.compile r.pattern o = .ok r.compiled)
    (hbare : ∀ t, .literal t ∈ r.compiled.tokens → ParsedUrl.IsBare t) {params : Mapping}
    {path : String} (hpath : r.compiled.toPath params = .ok path) :
    ParsedUrl.IsBare (shownPath path).toList := by
  have hwritten : ParsedUrl.IsBare path.toList :=
    ⟨Pattern.Compiled.not_mem_toPath hr isEscaped_question (fun t ht => (hbare t ht).1) hpath,
      Pattern.Compiled.not_mem_toPath hr isEscaped_hash (fun t ht => (hbare t ht).2) hpath⟩
  obtain ⟨rest, hshown, hrest⟩ := toList_shownPath path
  rw [hshown, ParsedUrl.isBare_append]
  refine ⟨hwritten, ?_⟩
  rcases hrest with rfl | rfl
  · decide
  · decide

/-- A public path starts as the shown path does. -/
theorem head?_publicPath {params : Mapping} {path shown : String}
    (hpath : r.compiled.toPath params = .ok path) (hshown : r.publicPath params = .ok shown) :
    shown.toList.head? = (shownPath path).toList.head? := by
  obtain ⟨path', hpath', -, rfl⟩ := publicPath_eq_ok.1 hshown
  obtain rfl : path = path' := Except.ok.inj (hpath.symm.trans hpath')
  have hsome : ∃ c, (shownPath path).toList.head? = some c := by
    unfold shownPath
    split
    · exact ⟨'/', rfl⟩
    · next hne =>
      cases hcs : path.toList with
      | nil => exact absurd (String.toList_eq_nil_iff.1 hcs) hne
      | cons c cs => exact ⟨c, rfl⟩
  obtain ⟨c, hc⟩ := hsome
  split
  · rfl
  · rw [String.toList_append, String.toList_append, List.append_assoc, List.head?_append, hc,
      Option.some_or]

/-- What has no place in the pattern is the parameters under any other keys than its names. -/
theorem mem_leftover {params : Mapping} {k v : Value} :
    (k, v) ∈ r.leftover params ↔ (k, v) ∈ params ∧ ∀ name ∈ r.paramKeys, k ≠ .str name := by
  unfold leftover
  rw [List.mem_filter]
  refine and_congr_right fun _ => ?_
  show (!r.takes k) = true ↔ _
  cases k with
  | str s =>
    unfold takes
    rw [Bool.not_eq_true', ← Bool.not_eq_true, List.contains_iff_mem]
    constructor
    · rintro hnot name hname ⟨⟩
      exact hnot hname
    · intro hall hmem
      exact hall s hmem rfl
  | _ => simp [takes]

/-- Values do not change the structure of a URL. Where no literal of the pattern has a mark, a
public path that starts with a slash comes apart into exactly the path that was written, with a
slash for an empty one, and the query of exactly the parameters without a place in it; there is no
fragment. And paths of the same pattern have equally many slashes and equally many segments, if for
each capture both values are missing, or both are sequences of one length, or neither is a sequence,
and every star has the same value. -/
theorem publicPath_structure [CharacterNames] (hr : Pattern.compile r.pattern o = .ok r.compiled) :
    ((∀ t, .literal t ∈ r.compiled.tokens → ParsedUrl.IsBare t) → ∀ params shown,
      r.publicPath params = .ok shown → shown.toList.head? = some '/' →
        ∃ path query, r.compiled.toPath params = .ok path ∧
          Query.write (r.leftover params) = .ok query ∧
          (ParsedUrl.parse shown).pathname = (if path = "" then "/" else path) ∧
          (ParsedUrl.parse shown).hash = "" ∧
          (ParsedUrl.parse shown).query = Query.parse query ∧
          ∀ k v, (k, v) ∈ r.leftover params ↔
            (k, v) ∈ params ∧ ∀ name ∈ r.paramKeys, k ≠ .str name) ∧
    ∀ params params' path path', r.compiled.SameShapes params params' →
      r.compiled.toPath params = .ok path → r.compiled.toPath params' = .ok path' →
        path.toList.count '/' = path'.toList.count '/' ∧
          (Query.splitAt '/' path.toList).length = (Query.splitAt '/' path'.toList).length := by
  constructor
  · intro hbare params shown hshown hslash
    obtain ⟨path, hpath, hwritable, -⟩ := publicPath_eq_ok.1 hshown
    rw [head?_publicPath hpath hshown] at hslash
    obtain ⟨hname, hhash, hquery⟩ :=
      parse_shownPath hpath (isBare_shownPath hr hbare hpath) hslash hshown
    exact ⟨path, _, hpath, Query.write_eq_ok.2 ⟨hwritable, rfl⟩, hname, hhash, hquery,
      fun k v => mem_leftover⟩
  · intro params params' path path' hshapes hpath hpath'
    have hcount := Pattern.Compiled.count_slash_toPath hr hshapes hpath hpath'
    refine ⟨hcount, ?_⟩
    rw [Query.length_splitAt, Query.length_splitAt, hcount]

/-- Marks and slashes in a parameter, in the elements of a sequence, in the value of a star and
beside the path stay where they are. -/
theorem publicPath_structure_files :
    ∃ (r : Route) (shown path path' : String),
      Route.build (.str "f") (.str "/u/:id/:tags*/f/*") .null .null (.bool false) (.bool false)
        = .ok r ∧
      r.publicPath [(.str "id", .str "a/b?c#d"), (.str "tags", .list [.str "x/y", .int 2]),
        (.int 0, .str "e/f?g"), (.str "q", .str "1#2?")] = .ok shown ∧
      path = "/u/a%2Fb%3Fc%23d/x%2Fy/2/f/e/f%3Fg" ∧ (ParsedUrl.parse shown).pathname = path ∧
      (ParsedUrl.parse shown).hash = "" ∧
      r.compiled.toPath [(.str "id", .int 7), (.str "tags", .tuple [.bool true, .str "////"]),
        (.int 0, .str "e/f?g")] = .ok path' ∧
      path'.toList.count '/' = path.toList.count '/' := by
  let params : Mapping := [(.str "id", .str "a/b?c#d"), (.str "tags", .list [.str "x/y", .int 2]),
    (.int 0, .str "e/f?g"), (.str "q", .str "1#2?")]
  let params' : Mapping := [(.str "id", .int 7), (.str "tags", .tuple [.bool true, .str "////"]),
    (.int 0, .str "e/f?g")]
  let ts : List Pattern.Token := [.literal "/u".toList,
    .capture ⟨.named "id", some '/', .segment, .once, false⟩,
    .capture ⟨.named "tags", some '/', .segment, .optionalRepeated, false⟩, .literal "/f".toList,
    .capture ⟨.position 0, some '/', .anything, .once, false⟩]
  -- The route and what it writes are run at once.
  have hrun : ((Route.build (.str "f") (.str "/u/:id/:tags*/f/*") .null .null (.bool false)
      (.bool false)).toOption.bind fun r => (r.publicPath params).toOption.bind fun shown =>
        (r.compiled.toPath params).toOption.bind fun path =>
          (r.compiled.toPath params').toOption.map fun path' =>
            (r.compiled.tokens, shown.toList.head?, path)) =
      some (ts, some '/', "/u/a%2Fb%3Fc%23d/x%2Fy/2/f/e/f%3Fg") := by
    decide +kernel
  obtain ⟨r, hr, hrun⟩ := Option.bind_eq_some_iff.1 hrun
  obtain ⟨shown, hshown, hrun⟩ := Option.bind_eq_some_iff.1 hrun
  obtain ⟨path, hpath, hrun⟩ := Option.bind_eq_some_iff.1 hrun
  obtain ⟨path', hpath', hfacts⟩ := Option.map_eq_some_iff.1 hrun
  simp only [Prod.mk.injEq] at hfacts
  obtain ⟨htokens, hslash, htext⟩ := hfacts
  have hr := toOption_eq_some.1 hr
  have hshown := toOption_eq_some.1 hshown
  have hpath := toOption_eq_some.1 hpath
  have hpath' := toOption_eq_some.1 hpath'
  have hbare : ∀ t, .literal t ∈ r.compiled.tokens → ParsedUrl.IsBare t := by
    intro t ht
    rw [htokens] at ht
    have hcases : t = "/u".toList ∨ t = "/f".toList := by simpa [ts] using ht
    rcases hcases with rfl | rfl
    · decide
    · decide
  have hshapes : r.compiled.SameShapes params params' := by
    unfold Pattern.Compiled.SameShapes Pattern.Compiled.captures
    rw [htokens]
    have hcaptures : Pattern.captures ts = [⟨.named "id", some '/', .segment, .once, false⟩,
      ⟨.named "tags", some '/', .segment, .optionalRepeated, false⟩,
      ⟨.position 0, some '/', .anything, .once, false⟩] := rfl
    rw [hcaptures, List.forall_mem_cons, List.forall_mem_cons, List.forall_mem_singleton]
    exact ⟨⟨⟨rfl, rfl⟩, nofun⟩, ⟨⟨rfl, rfl⟩, nofun⟩, ⟨rfl, rfl⟩, fun _ => rfl⟩
  obtain ⟨hparts, hcounts⟩ := publicPath_structure (build_compiled hr)
  obtain ⟨written, query, hwritten, -, hname, hhash, -⟩ := hparts hbare params shown hshown hslash
  obtain rfl : path = written := Except.ok.inj (hpath.symm.trans hwritten)
  have hne : path ≠ "" := by
    rw [htext]
    decide
  rw [if_neg hne] at hname
  exact ⟨r, shown, path, path', hr, hshown, htext, hname, hhash, hpath',
    (hcounts params params' path path' hshapes hpath hpath').1.symm⟩

end Route

end SiteRouter
