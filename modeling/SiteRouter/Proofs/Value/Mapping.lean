import SiteRouter.Value.Mapping

/-!
# Mappings with texts as keys

Parameters and queries are mappings whose keys are texts. `Mapping.ofStrings` makes one from pairs
of a text and a value; where the texts are different, looking a key up finds the value beside it,
and entering pairs with further keys puts them at the end. Entering any pairs lays them over the
mapping (`putAll_eq_overlay`).
-/

namespace SiteRouter.Mapping

/-- The mapping with the given texts as keys. -/
def ofStrings (ps : List (String × Value)) : Mapping := ps.map fun (k, v) => (.str k, v)

/-- The mapping with the given texts as keys and as values. -/
def ofTexts (ps : List (String × String)) : Mapping := ps.map fun (k, v) => (.str k, .str v)

theorem ofTexts_eq (ps : List (String × String)) :
    ofTexts ps = ofStrings (ps.map fun (k, v) => (k, .str v)) := by
  rw [ofTexts, ofStrings, List.map_map]
  rfl

@[simp] theorem ofStrings_cons (k : String) (v : Value) (ps : List (String × Value)) :
    ofStrings ((k, v) :: ps) = (.str k, v) :: ofStrings ps := rfl

/-- The first key decides whether the value beside it is found. -/
theorem get?_ofStrings_cons (k key : String) (v : Value) (ps : List (String × Value)) :
    (ofStrings ((k, v) :: ps)).get? (.str key) =
      if k = key then some v else (ofStrings ps).get? (.str key) := by
  rw [ofStrings_cons, get?, Value.same_str]
  simp only [beq_iff_eq]

/-- No value is found for a text that is no key. -/
theorem get?_ofStrings_of_not_mem {ps : List (String × Value)} {key : String}
    (h : key ∉ ps.map Prod.fst) : (ofStrings ps).get? (.str key) = none := by
  induction ps with
  | nil => rfl
  | cons p ps ih =>
    rw [List.map_cons, List.mem_cons, not_or] at h
    rw [get?_ofStrings_cons, if_neg fun heq => h.1 heq.symm, ih h.2]

/-- The value beside a key is found, where the keys are different. -/
theorem get?_ofStrings_of_mem {ps : List (String × Value)} (hkeys : (ps.map Prod.fst).Nodup)
    {key : String} {v : Value} (h : (key, v) ∈ ps) : (ofStrings ps).get? (.str key) = some v := by
  induction ps with
  | nil => cases h
  | cons p ps ih =>
    obtain ⟨k, w⟩ := p
    rw [List.map_cons, List.nodup_cons] at hkeys
    rw [get?_ofStrings_cons]
    rcases List.mem_cons.1 h with heq | hmem
    · cases heq
      rw [if_pos rfl]
    · have hne : k ≠ key := by
        rintro rfl
        exact hkeys.1 (List.mem_map.2 ⟨_, hmem, rfl⟩)
      rw [if_neg hne, ih hkeys.2 hmem]

/-- A new key is entered at the end. -/
theorem put_ofStrings {ps : List (String × Value)} {key : String} (h : key ∉ ps.map Prod.fst)
    (v : Value) : (ofStrings ps).put (.str key) v = ofStrings (ps ++ [(key, v)]) := by
  induction ps with
  | nil => rfl
  | cons p ps ih =>
    rw [List.map_cons, List.mem_cons, not_or] at h
    have hne : (Value.str p.1).same (.str key) = false := by
      rw [Value.same_str, beq_eq_false_iff_ne]
      exact fun heq => h.1 heq.symm
    rw [ofStrings_cons, put, hne, if_neg Bool.false_ne_true, ih h.2]
    rfl

/-- A key that is entered again keeps its place among the keys, and only its value changes. -/
theorem put_tabulated {keys : List String} (hkeys : keys.Nodup) {key : String} (h : key ∈ keys)
    (f : String → Value) (v : Value) :
    (ofStrings (keys.map fun k => (k, f k))).put (.str key) v =
      ofStrings (keys.map fun k => (k, if k = key then v else f k)) := by
  induction keys with
  | nil => cases h
  | cons k keys ih =>
    rw [List.nodup_cons] at hkeys
    rw [List.map_cons, List.map_cons, ofStrings_cons, ofStrings_cons, put, Value.same_str]
    by_cases heq : k = key
    · subst heq
      have hrest : keys.map (fun k' => (k', if k' = k then v else f k')) =
          keys.map fun k' => (k', f k') := by
        refine List.map_congr_left fun k' hk' => ?_
        rw [if_neg fun heq : k' = k => hkeys.1 (heq ▸ hk')]
      rw [if_pos (beq_self_eq_true k), if_pos rfl, hrest]
    · have hmem : key ∈ keys := (List.mem_cons.1 h).resolve_left (Ne.symm heq)
      rw [if_neg (by simpa using heq), if_neg heq, ih hkeys.2 hmem]

/-- Where the keys are different, none comes again after it. -/
theorem key_not_mem_of_nodup {α : Type} {ps qs : List (String × α)} {q : String × α}
    (h : ((ps ++ q :: qs).map Prod.fst).Nodup) : q.1 ∉ ps.map Prod.fst := by
  rw [List.map_append, List.map_cons] at h
  have hdisjoint := (List.nodup_append.1 h).2.2
  exact fun hmem => hdisjoint _ hmem _ List.mem_cons_self rfl

/-- New keys are entered at the end. -/
theorem putAll_ofStrings {ps qs : List (String × Value)}
    (h : ((ps ++ qs).map Prod.fst).Nodup) :
    (ofStrings ps).putAll (ofStrings qs) = ofStrings (ps ++ qs) := by
  induction qs generalizing ps with
  | nil =>
    rw [List.append_nil]
    rfl
  | cons q qs ih =>
    have hnew : q.1 ∉ ps.map Prod.fst := key_not_mem_of_nodup h
    rw [List.append_cons] at h ⊢
    rw [← ih h, ← put_ofStrings hnew]
    rfl

/-- No value is found for a text that is no key, where the values are texts. -/
theorem get?_ofTexts_of_not_mem {ps : List (String × String)} {key : String}
    (h : key ∉ ps.map Prod.fst) : (ofTexts ps).get? (.str key) = none := by
  rw [ofTexts_eq]
  refine get?_ofStrings_of_not_mem ?_
  rwa [List.map_map]

/-- The text beside a key is found, where the keys are different. -/
theorem get?_ofTexts_of_mem {ps : List (String × String)} (hkeys : (ps.map Prod.fst).Nodup)
    {key t : String} (h : (key, t) ∈ ps) : (ofTexts ps).get? (.str key) = some (.str t) := by
  rw [ofTexts_eq]
  refine get?_ofStrings_of_mem ?_ (List.mem_map.2 ⟨_, h, rfl⟩)
  rwa [List.map_map]

/-- The first key decides whether the text beside it is found, or nothing. -/
theorem getD_ofTexts_cons (k key t : String) (ps : List (String × String)) :
    (ofTexts ((k, t) :: ps)).getD (.str key) =
      if k = key then .str t else (ofTexts ps).getD (.str key) := by
  rw [getD, ofTexts_eq, List.map_cons, get?_ofStrings_cons]
  split
  · rfl
  · rw [getD, ofTexts_eq]

/-- Where a key comes first or not at all, the text beside it is found or nothing is, and the other
keys are found among the rest. -/
theorem getD_ofTexts_first {k : String} {ps : List (String × String)} (h : k ∉ ps.map Prod.fst)
    (text? : Option String) (key : String) :
    (ofTexts ((text?.map fun t => (k, t)).toList ++ ps)).getD (.str key) =
      if k = key then text?.elim .null .str else (ofTexts ps).getD (.str key) := by
  cases text? with
  | some t => exact getD_ofTexts_cons k key t ps
  | none =>
    show (ofTexts ps).getD (.str key) = _
    split
    · next heq =>
      rw [getD, get?_ofTexts_of_not_mem (heq ▸ h), Option.getD_none]
      rfl
    · rfl

/-- A new key with a text is entered at the end. -/
theorem put_ofTexts {ps : List (String × String)} {key : String} (h : key ∉ ps.map Prod.fst)
    (t : String) : (ofTexts ps).put (.str key) (.str t) = ofTexts (ps ++ [(key, t)]) := by
  rw [ofTexts_eq, put_ofStrings, ofTexts_eq, List.map_append]
  · rfl
  · rwa [List.map_map]

/-- New keys with texts are entered at the end. -/
theorem putAll_ofTexts {ps qs : List (String × String)} (h : ((ps ++ qs).map Prod.fst).Nodup) :
    (ofTexts ps).putAll (ofTexts qs) = ofTexts (ps ++ qs) := by
  rw [ofTexts_eq, ofTexts_eq, ofTexts_eq, List.map_append]
  refine putAll_ofStrings ?_
  rwa [← List.map_append, List.map_map]

/-! ## Entering and erasing one key -/

/-- The mapping without the entries of a key. -/
def erase (m : Mapping) (key : Value) : Mapping := m.filter fun e => !e.1.same key

/-- An erased key has no value. -/
theorem getD_erase_self (m : Mapping) (key : Value) : (m.erase key).getD key = .null := by
  have hnone : (m.erase key).get? key = none := by
    induction m with
    | nil => rfl
    | cons e m ih =>
      rw [erase, List.filter_cons]
      split
      · next hkeep =>
        rw [Bool.not_eq_true'] at hkeep
        rw [get?, hkeep, if_neg Bool.false_ne_true]
        exact ih
      · exact ih
  rw [getD, hnone, Option.getD_none]

/-- A text that is entered has the value entered for it. -/
theorem get?_put_self (m : Mapping) (k : String) (v : Value) :
    (m.put (.str k) v).get? (.str k) = some v := by
  induction m with
  | nil => rw [put, get?, if_pos (Value.same_str_iff.2 rfl)]
  | cons e m ih =>
    rw [put]
    split
    · next hsame => rw [get?, if_pos hsame]
    · next hother => rw [get?, if_neg hother, ih]

theorem getD_put_self (m : Mapping) (k : String) (v : Value) :
    (m.put (.str k) v).getD (.str k) = v := by
  rw [getD, get?_put_self, Option.getD_some]

/-- Erasing a text keeps the values of the other keys. -/
theorem get?_erase_of_ne {m : Mapping} {k : String} {key : Value} (h : key ≠ .str k) :
    (m.erase (.str k)).get? key = m.get? key := by
  induction m with
  | nil => rfl
  | cons e m ih =>
    rw [erase, List.filter_cons, get?]
    split
    · rw [get?, ← erase, ih]
    · next hdrop =>
      -- The entry that goes is one of the text, which is not the key that is looked up.
      have htext : e.1 = .str k := Value.same_str_iff.1 (by simpa using hdrop)
      rw [htext, if_neg fun hsame => h (Value.str_same_iff.1 hsame), ← erase, ih]

theorem getD_erase_of_ne {m : Mapping} {k : String} {key : Value} (h : key ≠ .str k) :
    (m.erase (.str k)).getD key = m.getD key := by
  rw [getD, get?_erase_of_ne h, getD]

/-- Entering a text keeps the values of the other keys. -/
theorem getD_put_of_ne {m : Mapping} {k : String} {key : Value} (h : key ≠ .str k) (v : Value) :
    (m.put (.str k) v).getD key = m.getD key := by
  have hnot : ¬(Value.str k).same key = true := fun hsame => h (Value.str_same_iff.1 hsame)
  have hget : (m.put (.str k) v).get? key = m.get? key := by
    induction m with
    | nil => exact if_neg hnot
    | cons e m ih =>
      rw [put]
      split
      · next hsame =>
        have htext : e.1 = .str k := Value.same_str_iff.1 hsame
        rw [get?, get?, htext, if_neg hnot, if_neg hnot]
      · rw [get?, get?, ih]
  rw [getD, hget, getD]

/-- Entering another key keeps the value of a text. -/
theorem get?_put_of_ne {m : Mapping} {k : String} {key : Value} (h : key ≠ .str k) (v : Value) :
    (m.put key v).get? (.str k) = m.get? (.str k) := by
  have hnot : ¬key.same (.str k) = true := fun hsame => h (Value.same_str_iff.1 hsame)
  induction m with
  | nil => exact if_neg hnot
  | cons e m ih =>
    rw [put]
    split
    · next hsame =>
      -- The entry that is changed is not one of the text.
      have hother : ¬e.1.same (.str k) = true := by
        intro htext
        rw [Value.same_str_iff.1 htext] at hsame
        exact h (Value.str_same_iff.1 hsame)
      rw [get?, get?, if_neg hother, if_neg hother]
    · rw [get?, get?, ih]

/-! ## Entering over a text that has a value -/

/-- A text without an entry has no value. -/
theorem get?_of_not_mem_keys {m : Mapping} {k : String} (h : .str k ∉ m.keys) :
    m.get? (.str k) = none := by
  induction m with
  | nil => rfl
  | cons e m ih =>
    rw [keys, List.map_cons, List.mem_cons, not_or] at h
    rw [get?, if_neg fun hsame => h.1 (Value.same_str_iff.1 hsame).symm]
    exact ih h.2

/-- A new text that is entered and erased leaves the mapping as it was. -/
theorem erase_put_of_not_mem {m : Mapping} {k : String} (h : .str k ∉ m.keys) (v : Value) :
    (m.put (.str k) v).erase (.str k) = m := by
  induction m with
  | nil =>
    have hsame : (Value.str k).same (.str k) = true := Value.same_str_iff.2 rfl
    simp [put, erase, hsame]
  | cons e m ih =>
    rw [keys, List.map_cons, List.mem_cons, not_or] at h
    have hother : ¬e.1.same (.str k) = true :=
      fun hsame => h.1 (Value.same_str_iff.1 hsame).symm
    rw [put, if_neg hother, erase, List.filter_cons_of_pos (by simpa using hother)]
    exact congrArg (e :: ·) (ih h.2)

/-- Entering for a text with an entry keeps the keys. -/
theorem keys_put_of_mem {m : Mapping} {k : String} (h : .str k ∈ m.keys) (v : Value) :
    (m.put (.str k) v).keys = m.keys := by
  induction m with
  | nil => cases h
  | cons e m ih =>
    rw [put]
    split
    · rfl
    · next hother =>
      rw [keys, List.map_cons, List.mem_cons] at h
      have hrest := h.resolve_left fun heq => hother (Value.same_str_iff.2 heq.symm)
      exact congrArg (e.1 :: ·) (ih hrest)

/-- Entering loses no key. -/
theorem mem_keys_put {m : Mapping} {key : Value} (h : key ∈ m.keys) (k v : Value) :
    key ∈ (m.put k v).keys := by
  induction m with
  | nil => cases h
  | cons e m ih =>
    rw [put]
    split
    · exact h
    · exact List.mem_cons.2 ((List.mem_cons.1 h).imp_right ih)

theorem mem_keys_putAll {m : Mapping} {key : Value} (h : key ∈ m.keys) (entries : Mapping) :
    key ∈ (m.putAll entries).keys := by
  induction entries generalizing m with
  | nil => exact h
  | cons e entries ih => exact ih (mem_keys_put h e.1 e.2)

/-- Entering adds no other key. -/
theorem mem_keys_of_mem_put {m : Mapping} {key k v : Value} (h : key ∈ (m.put k v).keys) :
    key ∈ m.keys ∨ key = k := by
  induction m with
  | nil => exact .inr (List.mem_singleton.1 h)
  | cons e m ih =>
    rw [put] at h
    split at h
    · exact .inl h
    · obtain rfl | hrest := List.mem_cons.1 h
      · exact .inl List.mem_cons_self
      · exact (ih hrest).imp_left (List.mem_cons_of_mem _)

theorem mem_keys_of_mem_putAll {m entries : Mapping} {key : Value}
    (h : key ∈ (m.putAll entries).keys) : key ∈ m.keys ∨ key ∈ entries.keys := by
  induction entries generalizing m with
  | nil => exact .inl h
  | cons e entries ih =>
    obtain hput | hrest := ih h
    · obtain hold | rfl := mem_keys_of_mem_put hput
      · exact .inl hold
      · exact .inr List.mem_cons_self
    · exact .inr (List.mem_cons_of_mem _ hrest)

/-- What is entered last for a text counts. -/
theorem put_put (m : Mapping) (k : String) (w v : Value) :
    (m.put (.str k) w).put (.str k) v = m.put (.str k) v := by
  induction m with
  | nil => rw [put, put, put, if_pos (Value.same_str_iff.2 rfl)]
  | cons e m ih =>
    rw [put, put]
    split
    · next hsame => rw [put, if_pos hsame]
    · next hother => rw [put, if_neg hother, ih]

/-- Another key may be entered before or after a text that has its place. -/
theorem put_comm {m : Mapping} {k : String} (hk : .str k ∈ m.keys) {key : Value}
    (hne : key ≠ .str k) (w v : Value) :
    (m.put key w).put (.str k) v = (m.put (.str k) v).put key w := by
  have hnot : ¬(Value.str k).same key = true := fun hsame => hne (Value.str_same_iff.1 hsame)
  induction m with
  | nil => cases hk
  | cons e m ih =>
    obtain ⟨a, x⟩ := e
    by_cases htext : a = .str k
    · subst htext
      have hsame : (Value.str k).same (.str k) = true := Value.same_str_iff.2 rfl
      simp only [put, hnot, hsame, if_true, if_false, Bool.false_eq_true]
    · have hother : ¬a.same (.str k) = true := fun hsame => htext (Value.same_str_iff.1 hsame)
      have hrest : Value.str k ∈ keys m := (List.mem_cons.1 hk).resolve_left (Ne.symm htext)
      by_cases hsame : a.same key = true
      · simp only [put, hsame, hother, if_true, if_false, Bool.false_eq_true]
      · simp only [put, hsame, hother, if_false, Bool.false_eq_true, ih hrest]

/-- Other keys may be entered before or after a text that has its place. -/
theorem putAll_comm {m : Mapping} {k : String} (hk : .str k ∈ m.keys) {entries : Mapping}
    (h : .str k ∉ entries.keys) (v : Value) :
    (m.putAll entries).put (.str k) v = (m.put (.str k) v).putAll entries := by
  induction entries generalizing m with
  | nil => rfl
  | cons e entries ih =>
    rw [keys, List.map_cons, List.mem_cons, not_or] at h
    show ((m.put e.1 e.2).putAll entries).put (.str k) v
      = ((m.put (.str k) v).put e.1 e.2).putAll entries
    rw [← put_comm hk (Ne.symm h.1), ih (mem_keys_put hk e.1 e.2) h.2]

/-- A value that is changed among the entries is changed in the mapping that they are entered in. -/
theorem putAll_put {m : Mapping} {k : String} (hk : .str k ∈ m.keys) {entries : Mapping}
    (hkeys : entries.keys.Nodup) (v : Value) :
    m.putAll (entries.put (.str k) v) = (m.putAll entries).put (.str k) v := by
  induction entries generalizing m with
  | nil => rfl
  | cons e entries ih =>
    obtain ⟨a, x⟩ := e
    obtain ⟨hfree, hrest⟩ := List.nodup_cons.1 hkeys
    have hstep := mem_keys_put hk a x
    rw [put]
    split
    · next hsame =>
      -- The rest of the entries has other keys.
      obtain rfl : a = .str k := Value.same_str_iff.1 hsame
      show (m.put (.str k) v).putAll entries = ((m.put (.str k) x).putAll entries).put (.str k) v
      rw [putAll_comm hstep hfree, put_put]
    · exact ih hstep hrest

/-- A text has the value of the entries that are entered, or else the one it had. -/
theorem get?_putAll (m : Mapping) {entries : Mapping} (hkeys : entries.keys.Nodup) (k : String) :
    (m.putAll entries).get? (.str k) = (entries.get? (.str k)).or (m.get? (.str k)) := by
  induction entries generalizing m with
  | nil => rfl
  | cons e entries ih =>
    obtain ⟨a, x⟩ := e
    obtain ⟨hfree, hrest⟩ := List.nodup_cons.1 hkeys
    show ((m.put a x).putAll entries).get? (.str k) = _
    rw [ih _ hrest, get?]
    split
    · next hsame =>
      obtain rfl : a = .str k := Value.same_str_iff.1 hsame
      rw [get?_of_not_mem_keys hfree, get?_put_self]
      rfl
    · next hother => rw [get?_put_of_ne fun heq => hother (Value.same_str_iff.2 heq)]

/-! ## The entries of some keys -/

/-- The mapping with another laid over it: a key keeps its place and takes the value that the other
has for it, and the keys that only the other has follow in their order. -/
def overlay (m upper : Mapping) : Mapping :=
  m.map (fun p => (p.1, (upper.get? p.1).getD p.2)) ++ upper.filter fun p => !m.has p.1

/-- The keys of the mapping are texts, and no two are the same. -/
def IsTextual (m : Mapping) : Prop :=
  ∃ ps : List (String × Value), m = ofStrings ps ∧ (ps.map Prod.fst).Nodup

theorem isTextual_nil : IsTextual [] := ⟨[], rfl, .nil⟩

theorem isTextual_ofTexts {ps : List (String × String)} (h : (ps.map Prod.fst).Nodup) :
    IsTextual (ofTexts ps) := by
  refine ⟨_, ofTexts_eq ps, ?_⟩
  rwa [List.map_map]

/-- Entering a value keeps the keys, up to a new one at the end. -/
theorem put_keys (ps : List (String × Value)) (key : String) (v : Value) :
    ∃ qs, (ofStrings ps).put (.str key) v = ofStrings qs ∧
      qs.map Prod.fst =
        if key ∈ ps.map Prod.fst then ps.map Prod.fst else ps.map Prod.fst ++ [key] := by
  by_cases h : key ∈ ps.map Prod.fst
  · rw [if_pos h]
    induction ps with
    | nil => cases h
    | cons p ps ih =>
      rw [ofStrings_cons, put, Value.same_str]
      split
      · exact ⟨(p.1, v) :: ps, rfl, rfl⟩
      · next hne =>
        have hne : key ≠ p.1 := fun heq => hne (beq_iff_eq.2 heq.symm)
        obtain ⟨qs, hput, hkeys⟩ := ih ((List.mem_cons.1 h).resolve_left hne)
        exact ⟨p :: qs, by rw [hput]; rfl, congrArg (p.1 :: ·) hkeys⟩
  · rw [if_neg h]
    exact ⟨_, put_ofStrings h v, List.map_append⟩

theorem IsTextual.put {m : Mapping} (h : m.IsTextual) (key : String) (v : Value) :
    (m.put (.str key) v).IsTextual := by
  obtain ⟨ps, rfl, hkeys⟩ := h
  obtain ⟨qs, hput, hqs⟩ := put_keys ps key v
  refine ⟨qs, hput, ?_⟩
  rw [hqs]
  split
  · exact hkeys
  · next hnew =>
    refine List.nodup_append.2 ⟨hkeys, List.pairwise_singleton _ key, ?_⟩
    rintro k hk _ hk' rfl
    exact hnew (List.mem_singleton.1 hk' ▸ hk)

theorem IsTextual.putAll {m : Mapping} (h : m.IsTextual) (ps : List (String × String)) :
    (m.putAll (ofTexts ps)).IsTextual := by
  induction ps generalizing m with
  | nil => exact h
  | cons p ps ih => exact ih (h.put p.1 (.str p.2))

/-- What holds of the values and of the one that is entered holds of the values afterwards. -/
theorem forall_put {P : Value → Prop} {m : Mapping} (h : ∀ p ∈ m, P p.2) (key : Value) {v : Value}
    (hv : P v) : ∀ p ∈ m.put key v, P p.2 := by
  induction m with
  | nil => exact List.forall_mem_singleton.2 hv
  | cons q m ih =>
    rw [List.forall_mem_cons] at h
    rw [put]
    split
    · exact List.forall_mem_cons.2 ⟨hv, h.2⟩
    · exact List.forall_mem_cons.2 ⟨h.1, ih h.2⟩

/-- What holds of the values and of all that are entered holds of the values afterwards. -/
theorem forall_putAll {P : Value → Prop} {m entries : Mapping} (h : ∀ p ∈ m, P p.2)
    (hentries : ∀ p ∈ entries, P p.2) : ∀ p ∈ m.putAll entries, P p.2 := by
  induction entries generalizing m with
  | nil => exact h
  | cons q entries ih =>
    rw [List.forall_mem_cons] at hentries
    exact ih (forall_put h q.1 hentries.1) hentries.2

/-- The value of another key is found among what is left without a key. -/
theorem get?_ofStrings_filter {qs : List (String × Value)} {k key : String} (h : key ≠ k) :
    (ofStrings (qs.filter (·.1 != k))).get? (.str key) = (ofStrings qs).get? (.str key) := by
  induction qs with
  | nil => rfl
  | cons q qs ih =>
    obtain ⟨k', v⟩ := q
    rw [List.filter_cons, get?_ofStrings_cons]
    split
    · rw [get?_ofStrings_cons, ih]
    · next heq =>
      obtain rfl : k' = k := by simpa using heq
      rw [if_neg (Ne.symm h), ih]

/-- The first entry takes the value that is entered for its key, and the rest of the values is
entered in the rest of the mapping. -/
theorem putAll_ofStrings_cons (k : String) (w : Value) (ps : List (String × Value))
    {qs : List (String × Value)} (h : (qs.map Prod.fst).Nodup) :
    (ofStrings ((k, w) :: ps)).putAll (ofStrings qs) =
      (.str k, ((ofStrings qs).get? (.str k)).getD w) ::
        (ofStrings ps).putAll (ofStrings (qs.filter (·.1 != k))) := by
  -- Generalised over the rest of the mapping, which grows by what is entered in it.
  rw [ofStrings_cons]
  generalize ofStrings ps = m
  induction qs generalizing w m with
  | nil => rfl
  | cons q qs ih =>
    obtain ⟨key, v⟩ := q
    rw [List.map_cons, List.nodup_cons] at h
    have hput : putAll ((.str k, w) :: m) (ofStrings ((key, v) :: qs)) =
        putAll (put ((.str k, w) :: m) (.str key) v) (ofStrings qs) := rfl
    rw [hput, put, Value.same_str, get?_ofStrings_cons, List.filter_cons]
    by_cases hkey : k = key
    · subst hkey
      rw [if_pos (beq_self_eq_true k), if_pos rfl, ih v h.2, get?_ofStrings_of_not_mem h.1,
        if_neg (by simp)]
      rfl
    · rw [if_neg (by simpa using hkey), if_neg (Ne.symm hkey), ih w h.2,
        if_pos (by simpa using Ne.symm hkey)]
      rfl

theorem filter_ofStrings (f : Value × Value → Bool) (ps : List (String × Value)) :
    (ofStrings ps).filter f = ofStrings (ps.filter fun p => f (.str p.1, p.2)) :=
  List.filter_map

/-- Whether there is a value for a key is decided by the first key or the ones after it. -/
theorem has_ofStrings_cons (k key : String) (v : Value) (ps : List (String × Value)) :
    (ofStrings ((k, v) :: ps)).has (.str key) = (k == key || (ofStrings ps).has (.str key)) := by
  rw [has, get?_ofStrings_cons, has]
  by_cases h : k = key <;> simp [h]

/-- Entering the entries of a mapping in another one lays it over that one. -/
theorem putAll_eq_overlay {m upper : Mapping} (hm : m.IsTextual) (hupper : upper.IsTextual) :
    m.putAll upper = m.overlay upper := by
  obtain ⟨ps, rfl, hps⟩ := hm
  obtain ⟨qs, rfl, hqs⟩ := hupper
  induction ps generalizing qs with
  | nil =>
    have hall : overlay [] (ofStrings qs) = ofStrings qs := List.filter_eq_self.2 fun _ _ => rfl
    have hput : putAll (ofStrings []) (ofStrings qs) = ofStrings qs := putAll_ofStrings hqs
    exact hput.trans hall.symm
  | cons p ps ih =>
    obtain ⟨k, w⟩ := p
    rw [List.map_cons, List.nodup_cons] at hps
    -- What is new beside the rest of the mapping and has another key is new beside the whole.
    have hnew : (ofStrings (qs.filter (·.1 != k))).filter (fun p => !(ofStrings ps).has p.1) =
        (ofStrings qs).filter fun p => !(ofStrings ((k, w) :: ps)).has p.1 := by
      rw [filter_ofStrings, filter_ofStrings, List.filter_filter]
      refine congrArg ofStrings (List.filter_congr fun q _ => ?_)
      rw [has_ofStrings_cons, Bool.not_or, Bool.and_comm, bne, Bool.beq_comm]
    -- No key in the rest is the first one.
    have hold : ∀ p ∈ ps, (ofStrings (qs.filter (·.1 != k))).get? (.str p.1) =
        (ofStrings qs).get? (.str p.1) := by
      intro p hp
      exact get?_ofStrings_filter fun heq => hps.1 (List.mem_map.2 ⟨p, hp, heq⟩)
    rw [putAll_ofStrings_cons k w ps hqs, ih hps.2 _ ((List.filter_sublist.map Prod.fst).nodup hqs),
      overlay, hnew, overlay, ofStrings_cons, List.map_cons, List.cons_append]
    refine congrArg (_ :: · ++ _) (List.map_congr_left fun p hp => ?_)
    obtain ⟨q, hq, rfl⟩ := List.mem_map.1 hp
    exact congrArg (fun v => (Value.str q.1, v.getD q.2)) (hold q hq)

end SiteRouter.Mapping
