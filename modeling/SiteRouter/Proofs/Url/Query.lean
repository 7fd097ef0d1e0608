import Mathlib.Data.List.TakeWhile
import SiteRouter.Url.Query
import SiteRouter.Proofs.Text.Percent
import SiteRouter.Proofs.Value.Mapping

/-!
# Query strings are read as they were written

An encoded component has none of the characters that a URL is cut at, so that the cuts undo the
joins: `pairs_render` gives the pairs back, in their order. Where the keys are different texts, the
mapping that is read holds the texts of the values (`parse_render_ofStrings`). A query string is
written where the keys and the values are (`write_eq_ok`).
-/

namespace SiteRouter.Query

open Text (Percent.encodeChars)

/-! ## Cutting -/

/-- The characters of a text without the separator are kept by looking for it. -/
theorem forall_bne_of_not_mem {separator : Char} {s : List Char} (h : separator ∉ s) :
    ∀ c ∈ s, (c != separator) = true :=
  fun _ hc => bne_iff_ne.2 (ne_of_mem_of_not_mem hc h)

/-- A text without the separator stays before the cut. -/
theorem cutAt_after {separator : Char} {s : List Char} (h : separator ∉ s) (t : List Char) :
    cutAt separator (s ++ t) = (s ++ (cutAt separator t).1, (cutAt separator t).2) := by
  have hall := forall_bne_of_not_mem h
  unfold cutAt
  rw [List.takeWhile_append_of_pos hall, List.dropWhile_append_of_pos hall]

/-- The first separator is where a text is cut. -/
theorem cutAt_append {separator : Char} {s : List Char} (h : separator ∉ s) (t : List Char) :
    cutAt separator (s ++ separator :: t) = (s, t) := by
  rw [cutAt_after h]
  simp [cutAt]

/-- A text without the separator is not cut. -/
theorem cutAt_of_not_mem {separator : Char} {s : List Char} (h : separator ∉ s) :
    cutAt separator s = (s, []) := by
  calc cutAt separator s = cutAt separator (s ++ []) := by rw [List.append_nil]
    _ = (s ++ [], []) := cutAt_after h []
    _ = (s, []) := by rw [List.append_nil]

/-- A text without the separator is one part. -/
theorem splitAt_of_not_mem {separator : Char} {s : List Char} (h : separator ∉ s) :
    splitAt separator s = [s] := by
  induction s with
  | nil => rfl
  | cons c s ih =>
    rw [List.mem_cons, not_or] at h
    rw [splitAt, if_neg fun heq => h.1 heq.symm, ih h.2]

/-- A text has a first part. -/
theorem exists_splitAt (separator : Char) (s : List Char) :
    ∃ part parts, splitAt separator s = part :: parts := by
  cases s with
  | nil => exact ⟨[], [], rfl⟩
  | cons c s =>
    rw [splitAt]
    split
    · exact ⟨[], _, rfl⟩
    · split <;> exact ⟨_, _, rfl⟩

/-- Any other character than the separator belongs to the first part. -/
theorem splitAt_cons {separator c : Char} (hc : c ≠ separator) {s part : List Char}
    {parts : List (List Char)} (h : splitAt separator s = part :: parts) :
    splitAt separator (c :: s) = (c :: part) :: parts := by
  rw [splitAt, if_neg hc, h]

/-- A separator is cut at, wherever it stands. -/
theorem splitAt_append_cons (separator : Char) (s t : List Char) :
    splitAt separator (s ++ separator :: t) = splitAt separator s ++ splitAt separator t := by
  induction s with
  | nil =>
    show splitAt separator (separator :: t) = [] :: splitAt separator t
    rw [splitAt, if_pos rfl]
  | cons c s ih =>
    rw [List.cons_append]
    by_cases hc : c = separator
    · rw [splitAt, if_pos hc, ih, splitAt, if_pos hc, List.cons_append]
    · obtain ⟨part, parts, hparts⟩ := exists_splitAt separator s
      rw [hparts, List.cons_append] at ih
      rw [splitAt_cons hc ih, splitAt_cons hc hparts, List.cons_append]

/-- The part before a separator comes first. -/
theorem splitAt_append {separator : Char} {s : List Char} (h : separator ∉ s) (t : List Char) :
    splitAt separator (s ++ separator :: t) = s :: splitAt separator t := by
  rw [splitAt_append_cons, splitAt_of_not_mem h, List.singleton_append]

/-- Joined parts are cut into the parts. -/
theorem splitAt_intercalate {separator : Char} {s : List Char} {ss : List (List Char)}
    (h : ∀ t ∈ s :: ss, separator ∉ t) :
    splitAt separator ([separator].intercalate (s :: ss)) = s :: ss := by
  induction ss generalizing s with
  | nil =>
    rw [List.intercalate_singleton]
    exact splitAt_of_not_mem (h s List.mem_cons_self)
  | cons t ss ih =>
    rw [List.forall_mem_cons] at h
    calc splitAt separator ([separator].intercalate (s :: t :: ss))
        = splitAt separator (s ++ separator :: [separator].intercalate (t :: ss)) := by
          rw [List.intercalate_cons_cons, List.append_assoc, List.singleton_append]
      _ = s :: splitAt separator ([separator].intercalate (t :: ss)) := splitAt_append h.1 _
      _ = s :: t :: ss := by rw [ih h.2]

/-- The parts of a text with the separator between them are the text, and have no separator. -/
theorem splitAt_spec (separator : Char) (s : List Char) :
    [separator].intercalate (splitAt separator s) = s ∧
      ∀ part ∈ splitAt separator s, separator ∉ part := by
  induction s with
  | nil => exact ⟨rfl, List.forall_mem_singleton.2 List.not_mem_nil⟩
  | cons c s ih =>
    obtain ⟨part, parts, hparts⟩ := exists_splitAt separator s
    by_cases hc : c = separator
    · rw [splitAt, if_pos hc, List.forall_mem_cons]
      refine ⟨?_, List.not_mem_nil, ih.2⟩
      rw [hparts] at ih ⊢
      rw [List.intercalate_cons_cons, ih.1, hc]
      rfl
    · rw [hparts, List.forall_mem_cons] at ih
      rw [splitAt_cons hc hparts, List.forall_mem_cons, List.mem_cons, not_or]
      refine ⟨?_, ⟨Ne.symm hc, ih.2.1⟩, ih.2.2⟩
      cases parts with
      | nil =>
        rw [List.intercalate_singleton] at ih ⊢
        rw [ih.1]
      | cons part' parts =>
        rw [List.intercalate_cons_cons] at ih ⊢
        rw [List.cons_append, List.cons_append, ih.1]

/-! ## Components -/

/-- The characters that a URL is cut at. -/
def marks : List Char := "&=+?#/".toList

/-- An encoded component has no character that a URL is cut at. -/
theorem mark_not_mem_component {c : Char} (h : c ∈ marks) (t : List Char) :
    c ∉ Percent.encodeChars componentSafe t := by
  obtain ⟨hreserved, hsafe, hpercent⟩ :
      Text.Percent.isUnreserved c.toNat = false ∧ c ∉ componentSafe ∧ c ≠ '%' := by
    have hall : marks.all (fun c => !Text.Percent.isUnreserved c.toNat &&
        !componentSafe.contains c && c != '%') = true := by decide
    simpa [and_assoc] using List.all_eq_true.1 hall c h
  exact Text.Percent.not_mem_encodeChars hreserved hsafe hpercent t

/-- An encoded component is read as its text. -/
theorem decodePart_component (t : String) :
    decodePart (Percent.encodeChars componentSafe t.toList) = t := by
  have hplus : '+' ∉ Percent.encodeChars componentSafe t.toList :=
    mark_not_mem_component (by decide) _
  -- No plus sign is there to be read as a space.
  have hmap : (Percent.encodeChars componentSafe t.toList).map (fun c => if c = '+' then ' ' else c)
      = Percent.encodeChars componentSafe t.toList := by
    refine (List.map_congr_left fun c hc => ?_).trans (List.map_id _)
    rw [if_neg]
    · rfl
    · rintro rfl
      exact hplus hc
  rw [decodePart, hmap, Text.Percent.decodeChars_encodeChars (by decide), String.ofList_toList]

/-! ## Pairs -/

/-- What a query string says of a mapping: the texts of the keys and the values, but for entries
without a value. -/
def written (m : Mapping) : List (String × String) :=
  m.filterMap fun (k, v) => if v.isNull then none else some (k.text, valueText v)

/-- The pairs are those of the entries that have a value. -/
theorem written_eq (m : Mapping) :
    written m = (m.filter fun e => !e.2.isNull).map fun e => (e.1.text, valueText e.2) := by
  induction m with
  | nil => rfl
  | cons e m ih =>
    obtain ⟨k, v⟩ := e
    unfold written at ih ⊢
    rw [List.filterMap_cons, List.filter_cons, ih]
    cases hnull : v.isNull <;> simp [hnull]

/-- The characters of a pair. -/
def pairChars (p : String × String) : List Char :=
  Percent.encodeChars componentSafe p.1.toList ++
    '=' :: Percent.encodeChars componentSafe p.2.toList

theorem toList_pairText (k v : Value) :
    (pairText k v).toList = pairChars (k.text, valueText v) := by
  simp [pairText, pairChars, Text.Percent.encode]

/-- A query string is its pairs with `&` between them. -/
theorem toList_render (m : Mapping) :
    (render m).toList = ['&'].intercalate ((written m).map pairChars) := by
  have hparts : (m.filterMap fun (k, v) => if v.isNull then none else some (pairText k v)).map
      String.toList = (written m).map pairChars := by
    rw [written, List.map_filterMap, List.map_filterMap]
    refine congrArg (fun f => List.filterMap f m) (funext fun (k, v) => ?_)
    dsimp only
    split
    · rfl
    · exact congrArg some (toList_pairText k v)
  rw [render, String.toList_intercalate, hparts]
  rfl

/-- Only the equals sign of the marks stands in a pair. -/
theorem mark_not_mem_pairChars {c : Char} (h : c ∈ marks) (hne : c ≠ '=') (p : String × String) :
    c ∉ pairChars p := by
  rw [pairChars, List.mem_append, List.mem_cons, not_or, not_or]
  exact ⟨mark_not_mem_component h _, hne, mark_not_mem_component h _⟩

/-- A pair is read as it was written. -/
theorem pairOf_pairChars (p : String × String) : pairOf (pairChars p) = p := by
  rw [pairOf, pairChars, cutAt_append (mark_not_mem_component (by decide) _)]
  show (decodePart _, decodePart _) = p
  rw [decodePart_component, decodePart_component]

/-- The pairs of a query string are those that were written. -/
theorem pairs_render (m : Mapping) : pairs (render m) = written m := by
  unfold pairs
  rw [toList_render]
  cases hwritten : written m with
  | nil => rfl
  | cons p ps =>
    -- The cuts are between the pairs.
    have hparts : ∀ t ∈ pairChars p :: ps.map pairChars, '&' ∉ t := by
      intro t ht
      obtain ⟨q, -, rfl⟩ := List.mem_map.1 (List.map_cons ▸ ht)
      exact mark_not_mem_pairChars (by decide) (by decide) q
    -- No pair is dropped as empty, since each has its equals sign.
    have hfilter : ((p :: ps).map pairChars).filter (!·.isEmpty) = (p :: ps).map pairChars := by
      refine List.filter_eq_self.2 fun t ht => ?_
      obtain ⟨q, -, rfl⟩ := List.mem_map.1 ht
      simp [pairChars]
    rw [List.map_cons, splitAt_intercalate hparts, ← List.map_cons, hfilter, List.map_map]
    refine (List.map_congr_left fun q _ => ?_).trans (List.map_id _)
    exact pairOf_pairChars q

/-- The characters of a query string are no marks but the two that it needs. -/
theorem mark_not_mem_render {c : Char} (h : c ∈ marks) (hne : c ≠ '=') (hne' : c ≠ '&')
    (m : Mapping) : c ∉ (render m).toList := by
  rw [toList_render]
  generalize written m = ps
  cases ps with
  | nil => exact List.not_mem_nil
  | cons p ps =>
    induction ps generalizing p with
    | nil =>
      rw [List.map_singleton, List.intercalate_singleton]
      exact mark_not_mem_pairChars h hne p
    | cons q ps ih =>
      rw [List.map_cons, List.map_cons, List.intercalate_cons_cons, List.append_assoc,
        List.mem_append, List.singleton_append, List.mem_cons, not_or, not_or]
      exact ⟨mark_not_mem_pairChars h hne p, hne', ih q⟩

/-! ## What is written -/

/-- The keys and the values of a mapping are written if each entry with a value is. -/
theorem isWritable_iff {m : Mapping} :
    isWritable m = true ↔
      ∀ e ∈ m, e.2.isNull = false → e.1.isWritable = true ∧ e.2.isWritable = true := by
  unfold isWritable
  rw [List.all_eq_true]
  refine forall₂_congr fun e _ => ?_
  rw [Bool.or_eq_true, Bool.and_eq_true]
  cases e.2.isNull <;> simp

/-- A mapping whose keys and values are written has a query string, and no other has. -/
theorem write_eq_ok {m : Mapping} {s : String} :
    write m = .ok s ↔ isWritable m = true ∧ s = render m := by
  unfold write
  split
  · next h => simp [h, eq_comm]
  · next h => simp [h]

/-! ## A question mark at the start -/

/-- A question mark at the start of a query string is dropped. -/
theorem parse_mark (cs : List Char) :
    parse (String.ofList ('?' :: cs)) = group (pairs (String.ofList cs)) := by
  rw [parse, dropMark, String.toList_ofList]
  rfl

/-- A query string without a question mark at its start is read as it is. -/
theorem parse_of_not_marked {s : String} (h : s.toList.head? ≠ some '?') :
    parse s = group (pairs s) := by
  unfold parse dropMark
  split
  · next cs hcs =>
    rw [hcs] at h
    exact absurd rfl h
  · rfl

/-- A query string is read as the pairs that were written, grouped by key. -/
theorem parse_render (m : Mapping) : parse (render m) = group (written m) := by
  have hnot := mark_not_mem_render (c := '?') (by decide) (by decide) (by decide) m
  rw [parse_of_not_marked fun hhead => hnot (List.mem_of_head? hhead), pairs_render]

/-! ## Different keys -/

/-- A pair with a new key is entered at the end. -/
theorem add_ofTexts {ps : List (String × String)} {p : String × String}
    (h : p.1 ∉ ps.map Prod.fst) :
    add (Mapping.ofTexts ps) p = Mapping.ofTexts (ps ++ [p]) := by
  rw [add, Mapping.get?_ofTexts_of_not_mem h, joined, Mapping.put_ofTexts h]

/-- Pairs with different keys are not grouped. -/
theorem group_of_nodup {ps : List (String × String)} (h : (ps.map Prod.fst).Nodup) :
    group ps = Mapping.ofTexts ps := by
  -- Generalised over the pairs that were entered before, which grow by one at each step.
  suffices hfold : ∀ qs : List (String × String), ((qs ++ ps).map Prod.fst).Nodup →
      ps.foldl add (Mapping.ofTexts qs) = Mapping.ofTexts (qs ++ ps) from hfold [] h
  clear h
  induction ps with
  | nil =>
    intro qs _
    rw [List.append_nil]
    rfl
  | cons p ps ih =>
    intro qs h
    have hnew : p.1 ∉ qs.map Prod.fst := Mapping.key_not_mem_of_nodup h
    rw [List.append_cons] at h ⊢
    rw [List.foldl_cons, add_ofTexts hnew, ih _ h]

/-- The texts of the values that parameters have. -/
def textPairs (params : List (String × Value)) : List (String × String) :=
  params.filterMap fun (k, v) => if v.isNull then none else some (k, valueText v)

theorem textPairs_cons (k : String) (v : Value) (params : List (String × Value)) :
    textPairs ((k, v) :: params) =
      if v.isNull then textPairs params else (k, valueText v) :: textPairs params := by
  cases hnull : v.isNull <;> simp [textPairs, hnull]

theorem mem_textPairs {params : List (String × Value)} {k t : String} :
    (k, t) ∈ textPairs params ↔ ∃ v, (k, v) ∈ params ∧ v.isNull = false ∧ t = valueText v := by
  unfold textPairs
  rw [List.mem_filterMap]
  constructor
  · rintro ⟨⟨k', v⟩, hmem, heq⟩
    dsimp only at heq
    split at heq
    · cases heq
    · next hnull =>
      cases heq
      exact ⟨v, hmem, Bool.eq_false_iff.2 hnull, rfl⟩
  · rintro ⟨v, hmem, hnull, rfl⟩
    exact ⟨(k, v), hmem, by simp [hnull]⟩

/-- The names of the parameters with a value are among all names, in their order. -/
theorem textPairs_keys_sublist (params : List (String × Value)) :
    ((textPairs params).map Prod.fst).Sublist (params.map Prod.fst) := by
  induction params with
  | nil => exact .slnil
  | cons p params ih =>
    obtain ⟨k, v⟩ := p
    rw [textPairs_cons]
    split
    · exact ih.cons k
    · exact ih.cons_cons k

/-- Parameters with different names come back from a query string as the texts of their values. -/
theorem parse_render_ofStrings {params : List (String × Value)} (h : (params.map Prod.fst).Nodup) :
    parse (render (Mapping.ofStrings params)) = Mapping.ofTexts (textPairs params) := by
  have hwritten : written (Mapping.ofStrings params) = textPairs params := by
    rw [written, Mapping.ofStrings, List.filterMap_map]
    rfl
  rw [parse_render, hwritten, group_of_nodup ((textPairs_keys_sublist params).nodup h)]

/-! ## Any text -/

/-- The keys of a query are different texts. -/
theorem isTextual_parse (search : String) : (parse search).IsTextual := by
  -- Entering one pair after the other keeps the keys so.
  suffices h : ∀ (ps : List (String × String)) (m : Mapping), m.IsTextual →
      (ps.foldl add m).IsTextual from h _ _ Mapping.isTextual_nil
  intro ps
  induction ps with
  | nil => exact fun _ h => h
  | cons p ps ih => exact fun m h => ih _ (h.put _ _)

end SiteRouter.Query
