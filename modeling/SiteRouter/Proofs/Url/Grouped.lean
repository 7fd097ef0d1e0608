import Mathlib.Data.List.Induction
import SiteRouter.Proofs.Except
import SiteRouter.Proofs.Url.Query

/-!
# Repeated keys of a query

Reading a query enters its pairs one by one, and a value that is entered once more turns from a text
into a list. `grouped` says at once what comes of it: each key stands where it comes first, with its
value, or with the list of its values if it has several. One more pair changes `grouped` as entering
it changes the mapping that is read (`add_grouped`), so the two are equal (`group_eq_grouped`), and
the query string of a mapping is read as its entries, as texts and grouped
(`parse_write_eq_grouped`). A query that was read and is written again has one text for each key
(`parse_render_flattened`).
-/

namespace SiteRouter.Query

/-! ## First occurrences -/

/-- One more member is kept unless it is there already. -/
theorem eraseDups_concat (l : List String) (a : String) :
    (l ++ [a]).eraseDups = if a ∈ l then l.eraseDups else l.eraseDups ++ [a] := by
  rw [List.eraseDups_append]
  split
  · next h =>
    have hnone : [a].removeAll l = [] := by simp [List.removeAll, h]
    rw [hnone, List.eraseDups_nil, List.append_nil]
  · next h =>
    have hone : [a].removeAll l = [a] := by simp [List.removeAll, h]
    rw [hone]
    rfl

/-- First occurrences are different. -/
theorem nodup_eraseDups (l : List String) : l.eraseDups.Nodup := by
  induction l using List.reverseRecOn with
  | nil => exact .nil
  | append_singleton l a ih =>
    rw [eraseDups_concat]
    split
    · exact ih
    · next h =>
      refine List.nodup_append.2 ⟨ih, List.pairwise_singleton _ a, ?_⟩
      rintro b hb _ ha rfl
      rw [List.mem_singleton.1 ha] at hb
      exact h (List.mem_eraseDups.1 hb)

/-! ## The values of a key -/

/-- The values of a key, in order. -/
def valuesOf (key : String) (ps : List (String × String)) : List String :=
  (ps.filter (·.1 == key)).map Prod.snd

theorem valuesOf_append (key : String) (ps qs : List (String × String)) :
    valuesOf key (ps ++ qs) = valuesOf key ps ++ valuesOf key qs := by
  rw [valuesOf, List.filter_append, List.map_append]
  rfl

/-- A pair adds its value to those of its key alone. -/
theorem valuesOf_singleton (key : String) (p : String × String) :
    valuesOf key [p] = if key = p.1 then [p.2] else [] := by
  rw [valuesOf, List.filter_cons]
  by_cases h : key = p.1
  · rw [if_pos (beq_iff_eq.2 h.symm), if_pos h]
    rfl
  · rw [if_neg fun heq => h (eq_of_beq heq).symm, if_neg h]
    rfl

/-- A key has values if it is the key of a pair. -/
theorem valuesOf_eq_nil {key : String} {ps : List (String × String)} :
    valuesOf key ps = [] ↔ key ∉ ps.map Prod.fst := by
  rw [valuesOf, List.map_eq_nil_iff, List.filter_eq_nil_iff, List.mem_map]
  constructor
  · rintro h ⟨p, hp, rfl⟩
    exact h p hp (beq_self_eq_true p.1)
  · intro h p hp heq
    exact h ⟨p, hp, eq_of_beq heq⟩

/-- What the values of one key are read as: a single one as itself, several as their list. -/
def collected : List String → Value
  | [t] => .str t
  | ts => .list (ts.map .str)

/-- The first value is read as itself. -/
theorem joined_none (t : String) : joined none t = collected [t] := rfl

/-- A further value comes after those that were read. -/
theorem joined_collected {ts : List String} (h : ts ≠ []) (t : String) :
    joined (some (collected ts)) t = collected (ts ++ [t]) := by
  match ts with
  | [a] => rfl
  | a :: b :: ts =>
    show Value.list ((a :: b :: ts).map .str ++ [.str t]) = .list ((a :: b :: ts ++ [t]).map .str)
    rw [List.map_append]
    rfl

/-- What values are read as says how many they are, and which. -/
theorem collected_injective {ts us : List String} (h : collected ts = collected us) : ts = us := by
  have hlist : ∀ ts : List String, (∃ t, ts = [t] ∧ collected ts = .str t) ∨
      collected ts = .list (ts.map .str) := by
    intro ts
    unfold collected
    split
    · exact .inl ⟨_, rfl, rfl⟩
    · exact .inr rfl
  rcases hlist ts with ⟨t, rfl, ht⟩ | ht <;> rcases hlist us with ⟨u, rfl, hu⟩ | hu
  · rw [ht, hu] at h
    rw [Value.str.inj h]
  · rw [ht, hu] at h
    cases h
  · rw [ht, hu] at h
    cases h
  · rw [ht, hu] at h
    exact (List.map_inj_right fun _ _ => Value.str.inj).1 (Value.list.inj h)

/-! ## Grouped pairs -/

/-- The keys in the order in which they come first, each with its values. -/
def grouped (ps : List (String × String)) : Mapping :=
  Mapping.ofStrings ((ps.map Prod.fst).eraseDups.map fun key => (key, collected (valuesOf key ps)))

/-- What is found for a key. -/
theorem get?_grouped (key : String) (ps : List (String × String)) :
    (grouped ps).get? (.str key) =
      if key ∈ ps.map Prod.fst then some (collected (valuesOf key ps)) else none := by
  have hkeys : ((ps.map Prod.fst).eraseDups.map fun key => (key, collected (valuesOf key ps))).map
      Prod.fst = (ps.map Prod.fst).eraseDups := by
    rw [List.map_map]
    exact List.map_id _
  rw [grouped]
  split
  · next h =>
    refine Mapping.get?_ofStrings_of_mem ?_ (List.mem_map.2 ⟨key, List.mem_eraseDups.2 h, rfl⟩)
    rw [hkeys]
    exact nodup_eraseDups _
  · next h =>
    refine Mapping.get?_ofStrings_of_not_mem ?_
    rwa [hkeys, List.mem_eraseDups]

/-- The entries are the keys of pairs, each with its values. -/
theorem mem_grouped {key : String} {v : Value} {ps : List (String × String)} :
    (.str key, v) ∈ grouped ps ↔ key ∈ ps.map Prod.fst ∧ v = collected (valuesOf key ps) := by
  rw [grouped, Mapping.ofStrings, List.map_map, List.mem_map]
  constructor
  · rintro ⟨k, hk, heq⟩
    cases heq
    exact ⟨List.mem_eraseDups.1 hk, rfl⟩
  · rintro ⟨hkey, rfl⟩
    exact ⟨key, List.mem_eraseDups.2 hkey, rfl⟩

/-- Entering one more pair groups it with the others. -/
theorem add_grouped (ps : List (String × String)) (p : String × String) :
    add (grouped ps) p = grouped (ps ++ [p]) := by
  obtain ⟨key, t⟩ := p
  have hvalues : ∀ k, valuesOf k (ps ++ [(key, t)]) =
      valuesOf k ps ++ if k = key then [t] else [] := by
    intro k
    rw [valuesOf_append, valuesOf_singleton]
  -- The key is known and its value grows, or it is new and comes at the end.
  rw [add, get?_grouped]
  dsimp only
  by_cases h : key ∈ ps.map Prod.fst
  · have hne : valuesOf key ps ≠ [] := fun hnil => valuesOf_eq_nil.1 hnil h
    rw [if_pos h, joined_collected hne, grouped, Mapping.put_tabulated (nodup_eraseDups _)
      (List.mem_eraseDups.2 h), grouped, List.map_append, List.map_singleton, eraseDups_concat,
      if_pos h]
    refine congrArg Mapping.ofStrings (List.map_congr_left fun k _ => ?_)
    rw [hvalues]
    split
    · next heq => rw [heq]
    · rw [List.append_nil]
  · have hnew : key ∉ ((ps.map Prod.fst).eraseDups.map fun key =>
        (key, collected (valuesOf key ps))).map Prod.fst := by
      simpa [List.mem_eraseDups] using h
    rw [if_neg h, joined_none, grouped, Mapping.put_ofStrings hnew, grouped, List.map_append,
      List.map_singleton, eraseDups_concat, if_neg h, List.map_append, List.map_singleton, hvalues,
      valuesOf_eq_nil.2 h, if_pos rfl]
    refine congrArg (fun qs => Mapping.ofStrings (qs ++ _)) (List.map_congr_left fun k hk => ?_)
    have hk : k ≠ key := fun heq => h (List.mem_eraseDups.1 (heq ▸ hk))
    rw [hvalues, if_neg hk, List.append_nil]

/-- Entering pairs in turn groups them. -/
theorem group_eq_grouped (ps : List (String × String)) : group ps = grouped ps := by
  induction ps using List.reverseRecOn with
  | nil => rfl
  | append_singleton ps p ih =>
    rw [← add_grouped, ← ih, group, List.foldl_append]
    rfl

/-! ## The entries of a mapping as texts -/

/-- The values of a parsed query are collected. -/
theorem values_parse (search : String) : ∀ p ∈ parse search, ∃ ts, p.2 = collected ts := by
  rw [parse, group_eq_grouped, grouped, Mapping.ofStrings, List.map_map]
  intro p hp
  obtain ⟨key, -, rfl⟩ := List.mem_map.1 hp
  exact ⟨_, rfl⟩

/-- Collected values are something. -/
theorem isNull_collected (ts : List String) : (collected ts).isNull = false := by
  unfold collected
  split <;> rfl

/-- Collected values are written, since they are texts. -/
theorem isWritable_collected (ts : List String) : (collected ts).isWritable = true := by
  unfold collected
  split
  · exact Value.isWritable_str _
  · rw [Value.isWritable, Value.areWritable_iff]
    intro v hv
    obtain ⟨t, -, rfl⟩ := List.mem_map.1 hv
    exact Value.isWritable_str t

/-- What was read can be written again. -/
theorem isWritable_of_collected {m : Mapping} (hkeys : m.IsTextual)
    (h : ∀ p ∈ m, ∃ ts, p.2 = collected ts) : isWritable m = true := by
  obtain ⟨ps, rfl, -⟩ := hkeys
  refine isWritable_iff.2 fun p hp _ => ?_
  obtain ⟨ts, hts⟩ := h p hp
  obtain ⟨q, -, rfl⟩ := List.mem_map.1 hp
  exact ⟨Value.isWritable_str _, hts ▸ isWritable_collected ts⟩

/-- Collected values are a sequence, or a text that stands for itself. -/
theorem collected_cases (ts : List String) :
    (collected ts).sequence? ≠ none ∨ collected ts = .str (valueText (collected ts)) := by
  unfold collected
  split
  · exact .inr rfl
  · exact .inl (Option.some_ne_none _)

/-- The query in which the values of each key are one text. -/
def flattened (m : Mapping) : Mapping := m.map fun (k, v) => (k, .str (valueText v))

theorem textPairs_of_values {ps : List (String × Value)} (h : ∀ p ∈ ps, p.2.isNull = false) :
    textPairs ps = ps.map fun (k, v) => (k, valueText v) := by
  induction ps with
  | nil => rfl
  | cons p ps ih =>
    rw [List.forall_mem_cons] at h
    rw [textPairs_cons, h.1, if_neg Bool.false_ne_true, ih h.2]
    rfl

/-- Entries that have a value come back from a query string with their values as one text. -/
theorem parse_render_flattened {m : Mapping} (h : m.IsTextual)
    (hvalues : ∀ p ∈ m, p.2.isNull = false) : parse (render m) = flattened m := by
  obtain ⟨ps, rfl, hkeys⟩ := h
  have hvalues : ∀ p ∈ ps, p.2.isNull = false :=
    fun p hp => hvalues (.str p.1, p.2) (List.mem_map.2 ⟨p, hp, rfl⟩)
  rw [parse_render_ofStrings hkeys, textPairs_of_values hvalues, Mapping.ofTexts, flattened,
    Mapping.ofStrings, List.map_map, List.map_map]
  rfl

/-- One text for each key changes a query unless no key has several values. -/
theorem flattened_perm_iff {m : Mapping} (h : ∀ p ∈ m, ∃ ts, p.2 = collected ts) :
    (flattened m).Perm m ↔ ∀ p ∈ m, p.2.sequence? = none := by
  constructor
  · intro hperm p hp
    obtain ⟨q, -, rfl⟩ := List.mem_map.1 (hperm.mem_iff.2 hp)
    rfl
  · intro hnone
    refine .of_eq ((List.map_congr_left fun p hp => ?_).trans (List.map_id m))
    obtain ⟨ts, hts⟩ := h p hp
    have hnone := hnone p hp
    rw [hts] at hnone
    have htext := (collected_cases ts).resolve_left (not_not_intro hnone)
    rw [← hts] at htext
    exact congrArg (p.1, ·) htext.symm

end SiteRouter.Query
