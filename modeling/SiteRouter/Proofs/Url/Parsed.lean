import SiteRouter.Url.Parsed
import SiteRouter.Proofs.Url.Query

/-!
# The parts of a written URL

A URL is a path, a query string and a fragment, each of the last two behind its mark, which an empty
one may lack. `Comprises` says so of the text; every text comprises such parts (`exists_comprises`),
and they are the ones that it is cut into (`parse_eq`). So a URL that is put together from a path and
a query string comes apart at the same places, if the path has none of the marks that start another
part.
-/

namespace SiteRouter.ParsedUrl

/-- The characters have no mark that starts a query string or a fragment. -/
def IsBare (cs : List Char) : Prop := '?' ∉ cs ∧ '#' ∉ cs

instance (cs : List Char) : Decidable (IsBare cs) :=
  inferInstanceAs (Decidable ('?' ∉ cs ∧ '#' ∉ cs))

theorem isBare_append {s t : List Char} : IsBare (s ++ t) ↔ IsBare s ∧ IsBare t := by
  unfold IsBare
  rw [List.mem_append, List.mem_append, not_or, not_or]
  exact and_and_and_comm

/-! ## Parts of a text -/

/-- The text is the part behind its mark; the mark of an empty part may be missing. -/
def Behind (mark : Char) (part text : List Char) : Prop :=
  text = mark :: part ∨ (part = [] ∧ text = [])

/-- The text is a path, a query string and a fragment, cut at the first mark of each kind. -/
structure Comprises (cs path query fragment : List Char) : Prop where
  /-- The parts stand one after the other, the last two behind their marks. -/
  text : ∃ qs fs, cs = path ++ (qs ++ fs) ∧ Behind '?' query qs ∧ Behind '#' fragment fs
  /-- The path has none of the marks. -/
  bare : IsBare path
  /-- The query string has no number sign. -/
  query : '#' ∉ query

/-- A part that was marked stands behind its mark. -/
theorem behind_marked (mark : Char) (part : List Char) :
    Behind mark part (marked mark part).toList := by
  cases part with
  | nil => exact .inr ⟨rfl, rfl⟩
  | cons c part => exact .inl (String.toList_ofList)

/-- What stands neither for the mark nor in the part does not stand in the marked part. -/
theorem not_mem_marked {c mark : Char} {part : List Char} (hmark : c ≠ mark) (hpart : c ∉ part) :
    c ∉ (marked mark part).toList := by
  rcases behind_marked mark part with h | ⟨-, h⟩
  · rw [h, List.mem_cons, not_or]
    exact ⟨hmark, hpart⟩
  · rw [h]
    exact List.not_mem_nil

/-- Every text has a part behind its first mark, which may be empty and lack the mark. -/
theorem exists_behind (mark : Char) (cs : List Char) :
    ∃ before part text, cs = before ++ text ∧ mark ∉ before ∧ Behind mark part text := by
  by_cases h : mark ∈ cs
  · obtain ⟨before, part, rfl, hbefore⟩ := List.eq_append_cons_of_mem h
    exact ⟨before, part, _, rfl, hbefore, .inl rfl⟩
  · exact ⟨cs, [], [], (List.append_nil cs).symm, h, .inr ⟨rfl, rfl⟩⟩

/-- Every text is a path, a query string and a fragment. -/
theorem exists_comprises (cs : List Char) : ∃ path query fragment,
    Comprises cs path query fragment := by
  obtain ⟨before, fragment, fs, rfl, hbefore, hfs⟩ := exists_behind '#' cs
  obtain ⟨path, query, qs, rfl, hpath, hqs⟩ := exists_behind '?' before
  rw [List.mem_append, not_or] at hbefore
  refine ⟨path, query, fragment, ⟨qs, fs, List.append_assoc .., hqs, hfs⟩,
    ⟨hpath, hbefore.1⟩, ?_⟩
  rcases hqs with rfl | ⟨rfl, -⟩
  · exact fun hmem => hbefore.2 (List.mem_cons_of_mem _ hmem)
  · exact List.not_mem_nil

/-- A text is cut before the part behind its first mark. -/
theorem cutAt_of_behind {mark : Char} {before part text : List Char} (h : mark ∉ before)
    (htext : Behind mark part text) : Query.cutAt mark (before ++ text) = (before, part) := by
  rcases htext with rfl | ⟨rfl, rfl⟩
  · exact Query.cutAt_append h part
  · rw [List.append_nil]
    exact Query.cutAt_of_not_mem h

/-- A URL is cut into the parts that it comprises. -/
theorem parse_eq {url : String} {path query fragment : List Char}
    (h : Comprises url.toList path query fragment) :
    parse url = ⟨url, String.ofList (pathOf path), marked '?' query,
      Query.parse (String.ofList query), marked '#' fragment⟩ := by
  obtain ⟨qs, fs, hurl, hqs, hfs⟩ := h.text
  have hbefore : '#' ∉ path ++ qs := by
    rw [List.mem_append, not_or]
    refine ⟨h.bare.2, ?_⟩
    rcases hqs with rfl | ⟨-, rfl⟩
    · rw [List.mem_cons, not_or]
      exact ⟨by decide, h.query⟩
    · exact List.not_mem_nil
  unfold parse
  rw [hurl, ← List.append_assoc, cutAt_of_behind hbefore hfs]
  dsimp only
  rw [cutAt_of_behind h.bare.1 hqs]

/-- A URL with a query string. -/
theorem parse_of_query {url : String} {path query : List Char}
    (hurl : url.toList = path ++ '?' :: query) (hpath : IsBare path) (hquery : '#' ∉ query) :
    (parse url).pathname = String.ofList (pathOf path) ∧
      (parse url).query = Query.parse (String.ofList query) := by
  have hparts : Comprises url.toList path query [] :=
    ⟨⟨'?' :: query, [], by rw [hurl, List.append_nil], .inl rfl, .inr ⟨rfl, rfl⟩⟩, hpath, hquery⟩
  rw [parse_eq hparts]
  exact ⟨rfl, rfl⟩

/-- A URL without a query string. -/
theorem parse_of_bare {url : String} (h : IsBare url.toList) :
    (parse url).pathname = String.ofList (pathOf url.toList) ∧ (parse url).query = [] := by
  have hparts : Comprises url.toList url.toList [] [] :=
    ⟨⟨[], [], (List.append_nil _).symm, .inr ⟨rfl, rfl⟩, .inr ⟨rfl, rfl⟩⟩, h, List.not_mem_nil⟩
  rw [parse_eq hparts]
  exact ⟨rfl, rfl⟩

/-- A URL without a number sign has no fragment. -/
theorem hash_of_not_mem {url : String} (h : '#' ∉ url.toList) : (parse url).hash = "" := by
  unfold parse
  rw [Query.cutAt_of_not_mem h]
  rfl

/-- A cut at a mark leaves a slash at the start. -/
theorem head?_cutAt {mark : Char} (hmark : mark ≠ '/') {cs : List Char}
    (h : cs.head? = some '/') : (Query.cutAt mark cs).1.head? = some '/' := by
  obtain ⟨t, rfl⟩ := List.head?_eq_some_iff.1 h
  simp [Query.cutAt, hmark.symm]

/-- A text that starts with a slash is a path as a whole. -/
theorem pathOf_eq {cs : List Char} (h : cs.head? = some '/') : pathOf cs = cs := by
  obtain ⟨t, rfl⟩ := List.head?_eq_some_iff.1 h
  rfl

/-- The path of a URL that starts with a slash starts with it. -/
theorem head?_pathname {url : String} (h : url.toList.head? = some '/') :
    (parse url).pathname.toList.head? = some '/' := by
  have hbefore := head?_cutAt (show '#' ≠ '/' by decide) h
  have hrest := head?_cutAt (show '?' ≠ '/' by decide) hbefore
  unfold parse
  dsimp only
  rwa [String.toList_ofList, pathOf_eq hrest]

/-- A prefix without marks stands before the path of a URL, where both start with a slash. -/
theorem parse_prepend {pre url : String} (hbare : IsBare pre.toList)
    (hpre : pre.toList.head? = some '/') (hurl : url.toList.head? = some '/') :
    (parse (pre ++ url)).pathname = pre ++ (parse url).pathname ∧
      (parse (pre ++ url)).query = (parse url).query := by
  have hbefore := head?_cutAt (show '#' ≠ '/' by decide) hurl
  have hrest := head?_cutAt (show '?' ≠ '/' by decide) hbefore
  have hwhole : (pre.toList ++ (Query.cutAt '?' (Query.cutAt '#' url.toList).1).1).head?
      = some '/' := by
    rw [List.head?_append, hpre, Option.some_or]
  unfold parse
  rw [String.toList_append, Query.cutAt_after hbare.2]
  dsimp only
  rw [Query.cutAt_after hbare.1]
  dsimp only
  rw [pathOf_eq hwhole, pathOf_eq hrest, String.ofList_append, String.ofList_toList]
  exact ⟨rfl, rfl⟩

/-- The keys of the query of a URL are different texts. -/
theorem isTextual_query (url : String) : (parse url).query.IsTextual := by
  unfold parse
  dsimp only
  exact Query.isTextual_parse _

end SiteRouter.ParsedUrl
