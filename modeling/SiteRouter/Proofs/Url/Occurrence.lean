import Mathlib.Data.List.Forall2
import SiteRouter.Proofs.Url.Grouped

/-!
# Every occurrence of a key is kept

The pairs of a query string are those that its parts stand for (`HasPairs`); no part of the string
is left out but those without characters. What is read holds every one of them: the keys in the
order in which they come first, each with its value or with all of its values in order, also where
two strings are put together (`parse_occurrences`).
-/

namespace SiteRouter.Query

/-! ## The pairs of a query string -/

/-- The pair that a part of a query string stands for, as it is cut at its first equals sign. -/
inductive StandsFor : List Char → String × String → Prop
  /-- The texts before and after the first equals sign. -/
  | cut {key value : List Char} : '=' ∉ key →
    StandsFor (key ++ '=' :: value) (decodePart key, decodePart value)
  /-- Without an equals sign, the whole part and an empty value. -/
  | whole {key : List Char} : '=' ∉ key → StandsFor key (decodePart key, "")

/-- The pairs of a query string are those of its parts, but for parts without characters. -/
def HasPairs (s : String) (ps : List (String × String)) : Prop :=
  ∃ parts : List (List Char), s.toList = ['&'].intercalate parts ∧ (∀ part ∈ parts, '&' ∉ part) ∧
    List.Forall₂ StandsFor (parts.filter (!·.isEmpty)) ps

/-- A part stands for the pair that is read, and for no other. -/
theorem standsFor_iff {part : List Char} {p : String × String} :
    StandsFor part p ↔ pairOf part = p := by
  constructor
  · rintro (hkey | hkey)
    · rw [pairOf, cutAt_append hkey]
    · rw [pairOf, cutAt_of_not_mem hkey]
      rfl
  · rintro rfl
    by_cases hmem : '=' ∈ part
    · obtain ⟨key, value, rfl, hkey⟩ := List.eq_append_cons_of_mem hmem
      rw [pairOf, cutAt_append hkey]
      exact .cut hkey
    · rw [pairOf, cutAt_of_not_mem hmem]
      exact .whole hmem

/-- Parts stand in turn for the pairs that are read. -/
theorem forall₂_standsFor_iff {parts : List (List Char)} {ps : List (String × String)} :
    List.Forall₂ StandsFor parts ps ↔ ps = parts.map pairOf := by
  induction parts generalizing ps with
  | nil => rw [List.forall₂_nil_left_iff, List.map_nil]
  | cons part parts ih =>
    rw [List.forall₂_cons_left_iff, List.map_cons]
    constructor
    · rintro ⟨p, qs, hp, hqs, rfl⟩
      rw [standsFor_iff.1 hp, ih.1 hqs]
    · rintro rfl
      exact ⟨_, _, standsFor_iff.2 rfl, ih.2 rfl, rfl⟩

/-- A query string has the pairs that are read, and no others. -/
theorem hasPairs_iff {s : String} {ps : List (String × String)} : HasPairs s ps ↔ ps = pairs s := by
  constructor
  · rintro ⟨parts, hs, hparts, hps⟩
    rw [forall₂_standsFor_iff.1 hps, pairs, hs]
    cases parts with
    | nil => rfl
    | cons part parts => rw [splitAt_intercalate hparts]
  · rintro rfl
    obtain ⟨hjoined, hparts⟩ := splitAt_spec '&' s.toList
    exact ⟨splitAt '&' s.toList, hjoined.symm, hparts, forall₂_standsFor_iff.2 rfl⟩

/-- The pairs of two strings with `&` between them. -/
theorem pairs_append (s t : String) : pairs (s ++ "&" ++ t) = pairs s ++ pairs t := by
  have hchars : (s ++ "&" ++ t).toList = s.toList ++ '&' :: t.toList := by simp
  rw [pairs, hchars, splitAt_append_cons, List.filter_append, List.map_append]
  rfl

/-! ## What is read -/

/-- The keys of grouped pairs, in the order in which they come first. -/
theorem keys_grouped (ps : List (String × String)) :
    (grouped ps).keys = (ps.map Prod.fst).eraseDups.map .str := by
  rw [grouped, Mapping.keys, Mapping.ofStrings, List.map_map, List.map_map]
  rfl

/-- A key that has values is found with them. -/
theorem get?_grouped_of_values {key : String} {ps : List (String × String)}
    (h : valuesOf key ps ≠ []) :
    (grouped ps).get? (.str key) = some (collected (valuesOf key ps)) := by
  rw [get?_grouped, if_pos (Decidable.not_not.1 fun hkey => h (valuesOf_eq_nil.2 hkey))]

/-- Several values are read as their list. -/
theorem collected_of_two_le {ts : List String} (h : 2 ≤ ts.length) :
    collected ts = .list (ts.map .str) := by
  match ts with
  | _ :: _ :: _ => rfl

/-- A query string without a question mark at its start has one list of pairs, and reading it keeps
all of them. The keys are those of the pairs in the order in which they come first; a key with one
value has that value, a key with several values the list of them in order. A further string after
`&` adds its pairs to these. -/
theorem parse_occurrences {s : String} (h : s.toList.head? ≠ some '?') :
    ∃ ps : List (String × String), (∀ qs, HasPairs s qs ↔ qs = ps) ∧
      (parse s).keys = (ps.map Prod.fst).eraseDups.map .str ∧
      (∀ key value, valuesOf key ps = [value] → (parse s).get? (.str key) = some (.str value)) ∧
      (∀ key, 2 ≤ (valuesOf key ps).length →
        (parse s).get? (.str key) = some (.list ((valuesOf key ps).map .str))) ∧
      ∀ t qs, HasPairs t qs → parse (s ++ "&" ++ t) = grouped (ps ++ qs) := by
  have hparse : parse s = grouped (pairs s) := by
    rw [parse_of_not_marked h, group_eq_grouped]
  refine ⟨pairs s, fun qs => hasPairs_iff, ?_, fun key value hvalue => ?_, fun key hvalues => ?_,
    fun t qs hqs => ?_⟩
  · rw [hparse, keys_grouped]
  · have hne : valuesOf key (pairs s) ≠ [] := by
      rw [hvalue]
      exact List.cons_ne_nil value []
    rw [hparse, get?_grouped_of_values hne, hvalue]
    rfl
  · have hne : valuesOf key (pairs s) ≠ [] := List.length_pos_iff.1 (by omega)
    rw [hparse, get?_grouped_of_values hne, collected_of_two_le hvalues]
  · have hmark : (s ++ "&" ++ t).toList.head? ≠ some '?' := by
      cases hs : s.toList with
      | nil => simp [hs]
      | cons c cs =>
        rw [hs] at h
        simpa [hs] using h
    rw [parse_of_not_marked hmark, group_eq_grouped, pairs_append, hasPairs_iff.1 hqs]

/-- Keys that are alike only once they are decoded are one key, and an empty key, a part without an
equals sign and a second equals sign are kept. -/
theorem parse_occurrences_alike :
    (parse "b=1&%62=2&=x&&c+d&b==3").keys = [.str "b", .str "", .str "c d"] ∧
      (parse "b=1&%62=2&=x&&c+d&b==3").get? (.str "b") =
        some (.list [.str "1", .str "2", .str "=3"]) ∧
      (parse "b=1&%62=2&=x&&c+d&b==3").get? (.str "") = some (.str "x") ∧
      parse ("b=1&%62=2&=x&&c+d&b==3" ++ "&" ++ "?e=%C3%A9&c%20d=4") =
        [(.str "b", .list [.str "1", .str "2", .str "=3"]), (.str "", .str "x"),
          (.str "c d", .list [.str "", .str "4"]), (.str "?e", .str "é")] := by
  have hpairs : pairs "b=1&%62=2&=x&&c+d&b==3" =
      [("b", "1"), ("b", "2"), ("", "x"), ("c d", ""), ("b", "=3")] := by decide +kernel
  have hmore : pairs "?e=%C3%A9&c%20d=4" = [("?e", "é"), ("c d", "4")] := by decide +kernel
  obtain ⟨ps, hps, hkeys, hone, hseveral, happend⟩ :=
    parse_occurrences (s := "b=1&%62=2&=x&&c+d&b==3") (by decide)
  obtain rfl := (hps _).1 (hasPairs_iff.2 hpairs.symm)
  refine ⟨hkeys, hseveral "b" (by decide), hone "" "x" (by decide), ?_⟩
  rw [happend _ _ (hasPairs_iff.2 hmore.symm)]
  rfl

end SiteRouter.Query
