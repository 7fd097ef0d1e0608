import SiteRouter.Proofs.Url.Grouped
import SiteRouter.Proofs.Url.Parsed

/-!
# What a URL is cut into

`HasOrigin` says what a scheme and a host before a path are. What is left of a path behind them
starts with a slash, so that no second origin is found there, and the marks behind a path neither
make an origin nor take one away. Hence putting the parts of a URL together again and cutting the
whole gives the same parts (`parse_whole_parse`).

The query is read from the text behind the question mark, and reading drops one more mark that
stands there. So it is the query of the search string unless this starts with two question marks
(`query_parse_search`).
-/

namespace SiteRouter.ParsedUrl

/-! ## Origins -/

/-- Whether the character ends a host. -/
def endsHost (c : Char) : Bool := c = '/' || c = '?' || c = '#'

/-- The text is at its end or before a character that ends a host. -/
def BehindHost (cs : List Char) : Prop := ∀ x, cs.head? = some x → endsHost x = true

/-- The text starts with a scheme, a colon, two slashes and a host, which may be empty, and goes on
with the rest where the host ends. -/
def HasOrigin (cs rest : List Char) : Prop :=
  ∃ c scheme host, cs = c :: (scheme ++ ':' :: '/' :: '/' :: (host ++ rest)) ∧
    startsScheme c = true ∧ (∀ x ∈ scheme, continuesScheme x = true) ∧
    (∀ x ∈ host, endsHost x = false) ∧ BehindHost rest

/-- A host is what stands before the characters that end one. -/
theorem not_endsHost (c : Char) : (c != '/' && c != '?' && c != '#') = !endsHost c := by
  rw [endsHost, Bool.not_or, Bool.not_or]
  rfl

/-- What follows the origin of a text is what is found behind it. -/
theorem afterOrigin?_eq_some_iff {cs rest : List Char} :
    afterOrigin? cs = some rest ↔ HasOrigin cs rest := by
  constructor
  · intro h
    cases cs with
    | nil => cases h
    | cons c cs =>
      rw [afterOrigin?] at h
      simp only [not_endsHost] at h
      split at h
      · next hstart =>
        split at h
        · next host hhost =>
          obtain rfl := Option.some.inj h
          refine ⟨c, cs.takeWhile continuesScheme, host.takeWhile (!endsHost ·), ?_, hstart,
            fun x => List.mem_takeWhile_imp, fun x hx => ?_, fun x hx => ?_⟩
          · rw [List.takeWhile_append_dropWhile, ← hhost, List.takeWhile_append_dropWhile]
          · simpa using List.mem_takeWhile_imp hx
          · have hnot := List.head?_dropWhile_not (!endsHost ·) host
            rw [hx] at hnot
            simpa using hnot
        · cases h
      · cases h
  · rintro ⟨c, scheme, host, rfl, hstart, hscheme, hhost, hrest⟩
    have hcolon : (scheme ++ ':' :: '/' :: '/' :: (host ++ rest)).dropWhile continuesScheme =
        ':' :: '/' :: '/' :: (host ++ rest) := by
      rw [List.dropWhile_append_of_pos hscheme]
      exact List.dropWhile_cons_of_neg (by decide)
    have hdrop : (host ++ rest).dropWhile (!endsHost ·) = rest := by
      rw [List.dropWhile_append_of_pos fun x hx => by rw [hhost x hx]; rfl]
      cases rest with
      | nil => rfl
      | cons x rest => exact List.dropWhile_cons_of_neg (by rw [hrest x rfl]; decide)
    rw [afterOrigin?, if_pos hstart, hcolon]
    simp only [not_endsHost, hdrop]

/-- What is left of a path behind its origin is the end of it. -/
theorem HasOrigin.exists_append {cs rest : List Char} (h : HasOrigin cs rest) :
    ∃ origin, cs = origin ++ rest := by
  obtain ⟨c, scheme, host, rfl, -⟩ := h
  exact ⟨c :: (scheme ++ ':' :: '/' :: '/' :: host), by simp⟩

/-- What is left of a bare path behind its origin is nothing, or starts with a slash. -/
theorem HasOrigin.atSlash {cs rest : List Char} (h : HasOrigin cs rest) (hcs : IsBare cs) :
    rest = [] ∨ rest.head? = some '/' := by
  obtain ⟨origin, rfl⟩ := h.exists_append
  obtain ⟨-, -, -, -, -, -, -, hrest⟩ := h
  cases rest with
  | nil => exact .inl rfl
  | cons x rest =>
    obtain ⟨hquestion, hnumber⟩ := (isBare_append.1 hcs).2
    rw [List.mem_cons, not_or] at hquestion hnumber
    have hend := hrest x rfl
    simp only [endsHost, Bool.or_eq_true, decide_eq_true_eq, Ne.symm hquestion.1,
      Ne.symm hnumber.1, or_false] at hend
    exact .inr (congrArg some hend)

/-- A path without an origin is kept. -/
theorem pathOf_of_no_origin {cs : List Char} (h : ∀ rest, ¬HasOrigin cs rest) :
    pathOf cs = cs := by
  have hnone : afterOrigin? cs = none :=
    Option.eq_none_iff_forall_ne_some.2 fun rest hrest => h rest (afterOrigin?_eq_some_iff.1 hrest)
  rw [pathOf, hnone]

/-- The text with a slash before it, unless it starts with one. -/
def rooted (cs : List Char) : List Char := if cs.head? = some '/' then cs else '/' :: cs

/-- A path behind an origin starts with a slash. -/
theorem pathOf_of_hasOrigin {cs rest : List Char} (h : HasOrigin cs rest) (hcs : IsBare cs) :
    pathOf cs = rooted rest := by
  rw [pathOf, afterOrigin?_eq_some_iff.2 h]
  rcases h.atSlash hcs with rfl | hhead
  · rfl
  · obtain ⟨t, rfl⟩ := List.head?_eq_some_iff.1 hhead
    rfl

theorem head?_rooted (cs : List Char) : (rooted cs).head? = some '/' := by
  unfold rooted
  split
  · assumption
  · rfl

/-- A path has no mark in it, and no origin to be dropped again. -/
theorem pathOf_pathOf {cs : List Char} (h : IsBare cs) :
    IsBare (pathOf cs) ∧ pathOf (pathOf cs) = pathOf cs := by
  by_cases horigin : ∃ rest, HasOrigin cs rest
  · obtain ⟨rest, hrest⟩ := horigin
    rw [pathOf_of_hasOrigin hrest h]
    refine ⟨?_, pathOf_eq (head?_rooted rest)⟩
    obtain ⟨origin, rfl⟩ := hrest.exists_append
    have hbare := (isBare_append.1 h).2
    unfold rooted
    split
    · exact hbare
    · exact isBare_append (s := ['/']).2 ⟨by decide, hbare⟩
  · have hkept := pathOf_of_no_origin fun rest hrest => horigin ⟨rest, hrest⟩
    rw [hkept]
    exact ⟨h, hkept⟩

/-! ## Origins before marks -/

/-- The text is at its end or before a mark. -/
def AtMark (cs : List Char) : Prop := ∀ x, cs.head? = some x → x = '?' ∨ x = '#'

/-- What stands behind a path is at a mark. -/
theorem atMark_of_behind {query fragment qs fs : List Char} (hqs : Behind '?' query qs)
    (hfs : Behind '#' fragment fs) : AtMark (qs ++ fs) := by
  rcases hqs with rfl | ⟨-, rfl⟩
  · rintro x ⟨⟩
    exact .inl rfl
  · rcases hfs with rfl | ⟨-, rfl⟩
    · rintro x ⟨⟩
      exact .inr rfl
    · exact nofun

/-- A host ends at a mark. -/
theorem AtMark.behindHost {cs : List Char} (h : AtMark cs) : BehindHost cs := by
  intro x hx
  rcases h x hx with rfl | rfl <;> rfl

/-- What may follow a host may be nothing before a text that may. -/
theorem BehindHost.append {s t : List Char} (hs : BehindHost s) (ht : BehindHost t) :
    BehindHost (s ++ t) := by
  cases s with
  | nil => exact ht
  | cons x s => exact hs

/-- An origin of a path is one of the path with marks behind it. -/
theorem HasOrigin.append {path rest tail : List Char} (h : HasOrigin path rest)
    (htail : AtMark tail) : HasOrigin (path ++ tail) (rest ++ tail) := by
  obtain ⟨c, scheme, host, rfl, hstart, hscheme, hhost, hrest⟩ := h
  exact ⟨c, scheme, host, by simp, hstart, hscheme, hhost, hrest.append htail.behindHost⟩

/-- There is no mark in an origin. -/
theorem isBare_origin {c : Char} {scheme host : List Char} (hstart : startsScheme c = true)
    (hscheme : ∀ x ∈ scheme, continuesScheme x = true) (hhost : ∀ x ∈ host, endsHost x = false) :
    IsBare (c :: (scheme ++ ':' :: '/' :: '/' :: host)) := by
  have hnot : ∀ {mark : Char}, startsScheme mark = false → continuesScheme mark = false →
      endsHost mark = true → mark ∉ [':', '/', '/'] →
      mark ∉ c :: (scheme ++ ([':', '/', '/'] ++ host)) := by
    intro mark h1 h2 h3 h4 hmem
    rcases List.mem_cons.1 hmem with rfl | hmem
    · cases h1.symm.trans hstart
    · rcases List.mem_append.1 hmem with hmem | hmem
      · cases h2.symm.trans (hscheme mark hmem)
      · rcases List.mem_append.1 hmem with hmem | hmem
        · exact h4 hmem
        · cases h3.symm.trans (hhost mark hmem)
  exact ⟨hnot (by decide) (by decide) (by decide) (by decide),
    hnot (by decide) (by decide) (by decide) (by decide)⟩

/-- A text without marks that ends before others starts a path that marks follow. -/
theorem exists_append_of_isBare {origin rest path tail : List Char} (horigin : IsBare origin)
    (htail : AtMark tail) (h : path ++ tail = origin ++ rest) :
    ∃ r, path = origin ++ r ∧ rest = r ++ tail := by
  rcases List.append_eq_append_iff.1 h with ⟨as, horigin', htail'⟩ | hprefix
  · cases as with
    | nil =>
      rw [List.append_nil] at horigin'
      exact ⟨[], by rw [horigin', List.append_nil], htail'.symm⟩
    | cons x as =>
      -- The origin would go on with a mark.
      have hmem : x ∈ origin := horigin' ▸ List.mem_append_right _ List.mem_cons_self
      rcases htail x (by rw [htail']; rfl) with rfl | rfl
      · exact absurd hmem horigin.1
      · exact absurd hmem horigin.2
  · exact hprefix

/-- An origin of a path with marks behind it is one of the path. -/
theorem HasOrigin.of_append {path rest tail : List Char} (h : HasOrigin (path ++ tail) rest)
    (htail : AtMark tail) : ∃ r, rest = r ++ tail ∧ HasOrigin path r := by
  obtain ⟨c, scheme, host, heq, hstart, hscheme, hhost, hrest⟩ := h
  have hsplit : path ++ tail = c :: (scheme ++ ':' :: '/' :: '/' :: host) ++ rest := by
    rw [heq]
    simp
  obtain ⟨r, rfl, rfl⟩ :=
    exists_append_of_isBare (isBare_origin hstart hscheme hhost) htail hsplit
  refine ⟨r, rfl, c, scheme, host, by simp, hstart, hscheme, hhost, fun x hx => ?_⟩
  exact hrest x (by rw [List.head?_append, hx]; rfl)

/-- A text that marks follow starts with a slash if it does without them. -/
theorem rooted_append {s t : List Char} (ht : AtMark t) : rooted (s ++ t) = rooted s ++ t := by
  cases s with
  | nil =>
    have hhead : t.head? ≠ some '/' := by
      intro hslash
      rcases ht '/' hslash with h | h <;> cases h
    show rooted t = '/' :: t
    exact if_neg hhead
  | cons x s =>
    unfold rooted
    rw [List.cons_append, List.head?_cons, List.head?_cons]
    split <;> rfl

/-! ## The whole again -/

/-- A URL put together from its parts. -/
def whole (p : ParsedUrl) : String := p.pathname ++ p.search ++ p.hash

/-- The text is the parts of a URL, but for the marks of an empty query string and an empty
fragment. -/
def Spells (p : ParsedUrl) (cs : List Char) : Prop :=
  ∃ qs fs, cs = p.pathname.toList ++ (qs ++ fs) ∧
    (qs = p.search.toList ∨ (p.search = "" ∧ qs = ['?'])) ∧
    (fs = p.hash.toList ∨ (p.hash = "" ∧ fs = ['#']))

/-- A part behind its mark is the marked part, or the mark of an empty one. -/
theorem Behind.eq_marked {mark : Char} {part text : List Char} (h : Behind mark part text) :
    text = (marked mark part).toList ∨ (marked mark part = "" ∧ text = [mark]) := by
  rcases h with rfl | ⟨rfl, rfl⟩
  · cases part with
    | nil => exact .inr ⟨rfl, rfl⟩
    | cons c part => exact .inl String.toList_ofList.symm
  · exact .inl rfl

/-- The whole comprises the parts again. -/
theorem comprises_whole {url : String} {path query fragment : List Char}
    (h : Comprises url.toList path query fragment) :
    Comprises (parse url).whole.toList (pathOf path) query fragment := by
  refine ⟨⟨(marked '?' query).toList, (marked '#' fragment).toList, ?_, behind_marked '?' query,
    behind_marked '#' fragment⟩, (pathOf_pathOf h.bare).1, h.query⟩
  rw [whole, parse_eq h, String.toList_append, String.toList_append, String.toList_ofList,
    List.append_assoc]

/-- Where the path of a URL is the one that is kept, the URL spells its parts. -/
theorem spells_of_comprises {url : String} {path query fragment qs fs cs : List Char}
    (h : Comprises url.toList path query fragment) (hqs : Behind '?' query qs)
    (hfs : Behind '#' fragment fs) (hcs : cs = pathOf path ++ (qs ++ fs)) :
    (parse url).Spells cs := by
  rw [parse_eq h]
  refine ⟨qs, fs, ?_, hqs.eq_marked, hfs.eq_marked⟩
  rw [String.toList_ofList, hcs]

/-- The path of a URL has no question mark and no number sign, and its search string no number
sign. Cutting the parts put together gives the same parts. A URL without an origin is the parts put
together, but for marks with nothing behind them, and so is what follows the origin of any other
URL, with a slash for an empty path. -/
theorem parse_whole_parse (url : String) :
    IsBare (parse url).pathname.toList ∧ '#' ∉ (parse url).search.toList ∧
      parse (parse url).whole = { parse url with href := (parse url).whole } ∧
      ((∀ rest, ¬HasOrigin url.toList rest) → (parse url).Spells url.toList) ∧
      ∀ rest, HasOrigin url.toList rest → (parse url).Spells (rooted rest) := by
  obtain ⟨path, query, fragment, hparts⟩ := exists_comprises url.toList
  obtain ⟨qs, fs, hurl, hqs, hfs⟩ := hparts.text
  have hmarks := atMark_of_behind hqs hfs
  obtain ⟨hbare, hpath⟩ := pathOf_pathOf hparts.bare
  have hparse := parse_eq hparts
  refine ⟨?_, ?_, ?_, fun hnone => ?_, fun rest hrest => ?_⟩
  · rw [hparse, String.toList_ofList]
    exact hbare
  · rw [hparse]
    exact not_mem_marked (by decide) hparts.query
  · rw [parse_eq (comprises_whole hparts), hpath, hparse]
  · -- The path has no origin either, since the marks do not end a scheme.
    refine spells_of_comprises hparts hqs hfs ?_
    rw [pathOf_of_no_origin fun rest hrest => ?_, hurl]
    rw [hurl] at hnone
    exact hnone _ (hrest.append hmarks)
  · -- The origin is one of the path, whose rest goes on with the marks.
    rw [hurl] at hrest
    obtain ⟨r, rfl, hr⟩ := hrest.of_append hmarks
    refine spells_of_comprises hparts hqs hfs ?_
    rw [pathOf_of_hasOrigin hr hparts.bare, rooted_append hmarks]

/-- A URL of a scheme and a host alone has the path `/`, and the mark of its empty query string is
not kept. A path that looks like an origin behind another origin stays as it is. -/
theorem parse_whole_parse_host :
    HasOrigin "http://h?#//a".toList "?#//a".toList ∧
      (parse "http://h?#//a").Spells "/?#//a".toList ∧
      (parse (parse "x://a://b?q=1").whole).pathname = (parse "x://a://b?q=1").pathname ∧
      (parse "//a://b?").Spells "//a://b?".toList := by
  have horigin : HasOrigin "http://h?#//a".toList "?#//a".toList :=
    ⟨'h', "ttp".toList, ['h'], rfl, by decide, List.all_eq_true.1 (by decide),
      List.forall_mem_singleton.2 rfl, by rintro x ⟨⟩; rfl⟩
  have hnone : ∀ rest, ¬HasOrigin "//a://b?".toList rest := by
    rintro rest ⟨c, scheme, host, heq, hstart, -⟩
    rw [← (List.cons.inj heq).1] at hstart
    cases hstart
  obtain ⟨-, -, -, -, hspells⟩ := parse_whole_parse "http://h?#//a"
  obtain ⟨-, -, hwhole, -, -⟩ := parse_whole_parse "x://a://b?q=1"
  obtain ⟨-, -, -, hkept, -⟩ := parse_whole_parse "//a://b?"
  refine ⟨horigin, hspells _ horigin, ?_, hkept hnone⟩
  rw [hwhole]

end SiteRouter.ParsedUrl

/-! ## The query and the search string -/

namespace SiteRouter.Query

/-- A text with a question mark before it has the same pairs but for the first, whose key starts
with the question mark; without it that pair may be missing. -/
theorem pairs_mark (cs : List Char) : ∃ part ps,
    pairs (String.ofList ('?' :: cs)) = pairOf ('?' :: part) :: ps ∧
      (pairs (String.ofList cs) = ps ∨ pairs (String.ofList cs) = pairOf part :: ps) := by
  obtain ⟨part, parts, hparts⟩ : ∃ part parts, splitAt '&' cs = part :: parts := by
    cases cs with
    | nil => exact ⟨_, _, rfl⟩
    | cons c cs =>
      rw [splitAt]
      split
      · exact ⟨_, _, rfl⟩
      · split <;> exact ⟨_, _, rfl⟩
  refine ⟨part, (parts.filter (!·.isEmpty)).map pairOf, ?_, ?_⟩
  · unfold pairs
    rw [String.toList_ofList, splitAt, if_neg (by decide), hparts]
    rfl
  · unfold pairs
    rw [String.toList_ofList, hparts]
    cases part with
    | nil => exact .inl rfl
    | cons c part => exact .inr rfl

/-- A key with a question mark before it is another key. -/
theorem key_mark_ne (part : List Char) : (pairOf part).1 ≠ (pairOf ('?' :: part)).1 := by
  -- The mark is no separator, no escape and no blank, so it is read in front of the key.
  have hkey : (pairOf ('?' :: part)).1.toList = '?' :: (pairOf part).1.toList := by
    have hpair : ∀ p, (pairOf p).1 = decodePart (cutAt '=' p).1 := fun _ => rfl
    have hcut : (cutAt '=' ('?' :: part)).1 = '?' :: (cutAt '=' part).1 := rfl
    rw [hpair, hpair, hcut, decodePart, decodePart, String.toList_ofList, String.toList_ofList]
    exact Text.Percent.decodeChars_cons (by decide) (by decide) _
  intro heq
  have hlength := congrArg List.length hkey
  rw [← heq, List.length_cons] at hlength
  omega

/-- One more pair with a key that the pair in its place does not have makes other groups. -/
theorem not_perm_group {p : String × String} {ps qs : List (String × String)}
    (h : qs = ps ∨ ∃ q, qs = q :: ps ∧ q.1 ≠ p.1) : ¬(group qs).Perm (group (p :: ps)) := by
  rw [group_eq_grouped, group_eq_grouped]
  intro hperm
  have hvalues : valuesOf p.1 qs = valuesOf p.1 ps := by
    rcases h with rfl | ⟨q, rfl, hq⟩
    · rfl
    · rw [← List.singleton_append, valuesOf_append, valuesOf_singleton, if_neg (Ne.symm hq),
        List.nil_append]
  have hmore : valuesOf p.1 (p :: ps) = p.2 :: valuesOf p.1 ps := by
    rw [← List.singleton_append, valuesOf_append, valuesOf_singleton, if_pos rfl,
      List.singleton_append]
  -- The values of the key are one more on one side.
  have hmem : (.str p.1, collected (p.2 :: valuesOf p.1 ps)) ∈ grouped (p :: ps) :=
    mem_grouped.2 ⟨List.mem_cons_self, by rw [hmore]⟩
  have hsame := collected_injective (mem_grouped.1 (hperm.mem_iff.2 hmem)).2
  rw [hvalues] at hsame
  exact absurd (congrArg List.length hsame) (Nat.succ_ne_self _)

/-- One question mark more before a query string that has one makes another query. -/
theorem not_perm_parse_mark (cs : List Char) :
    ¬(parse (String.ofList ('?' :: cs))).Perm (parse (String.ofList ('?' :: '?' :: cs))) := by
  obtain ⟨part, ps, hmarked, hpairs⟩ := pairs_mark cs
  rw [parse_mark, parse_mark, hmarked]
  exact not_perm_group (hpairs.imp_right fun h => ⟨_, h, key_mark_ne part⟩)

end SiteRouter.Query

namespace SiteRouter.ParsedUrl

/-- The query of a URL is that of its search string without the question mark. It is the query of
the search string itself unless two question marks start this, and then it is not: its first pair
has lost one of them. -/
theorem query_parse_search (url : String) :
    (parse url).query = Query.parse (Query.dropMark (parse url).search) ∧
      (¬['?', '?'] <+: (parse url).search.toList →
        (parse url).query = Query.parse (parse url).search) ∧
      (['?', '?'] <+: (parse url).search.toList →
        ¬(parse url).query.Perm (Query.parse (parse url).search)) := by
  obtain ⟨path, query, fragment, hparts⟩ := exists_comprises url.toList
  rw [parse_eq hparts]
  dsimp only
  cases query with
  | nil =>
    have hempty : marked '?' [] = "" := rfl
    rw [hempty]
    exact ⟨rfl, fun _ => rfl, fun h => absurd (List.prefix_nil.1 h) (List.cons_ne_nil _ _)⟩
  | cons c query =>
    have hsearch : marked '?' (c :: query) = String.ofList ('?' :: c :: query) := rfl
    rw [hsearch, Query.dropMark, String.toList_ofList]
    refine ⟨rfl, fun hsingle => ?_, fun hdouble => ?_⟩
    · rw [Query.parse_mark]
      refine Query.parse_of_not_marked fun hhead => hsingle ?_
      rw [String.toList_ofList] at hhead
      obtain rfl := Option.some.inj hhead
      exact ⟨query, rfl⟩
    · obtain ⟨rest, hrest⟩ := hdouble
      obtain ⟨-, htail⟩ := List.cons.inj hrest
      obtain ⟨rfl, -⟩ := List.cons.inj htail
      exact Query.not_perm_parse_mark query

/-- A question mark that is not right behind the first one makes no difference. -/
theorem query_parse_search_single :
    ¬['?', '?'] <+: (parse "x://h/a?b=?&c#??").search.toList ∧
      (parse "x://h/a?b=?&c#??").query = Query.parse (parse "x://h/a?b=?&c#??").search :=
  have hsingle : ¬['?', '?'] <+: (parse "x://h/a?b=?&c#??").search.toList := by decide
  ⟨hsingle, (query_parse_search _).2.1 hsingle⟩

/-- Two question marks before the first key: the query has the key without the second, and the
search string the key with it. -/
theorem query_two_marks :
    (parse "/p??a=1").query = [(.str "a", .str "1")] ∧ (parse "/p??a=1").search = "??a=1" ∧
      Query.parse (parse "/p??a=1").search = [(.str "?a", .str "1")] ∧
      ¬∀ url, (parse url).query.Perm (Query.parse (parse url).search) := by
  refine ⟨rfl, rfl, rfl, fun h => ?_⟩
  have hperm : [((.str "a" : Value), (.str "1" : Value))].Perm [(.str "?a", .str "1")] :=
    h "/p??a=1"
  have heq := (List.cons.inj (List.perm_singleton.1 hperm)).1
  exact absurd (Value.str.inj (Prod.mk.inj heq).1) (by decide)

end SiteRouter.ParsedUrl
