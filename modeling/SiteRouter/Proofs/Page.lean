import Mathlib.Tactic.ByContra
import Mathlib.Tactic.SplitIfs
import SiteRouter.Page

/-!
# Names of pages in their normal form

Normalizing leaves out one `index` segment at the end of a name and puts one slash before it if
there is none (`toList_normalize`). A name that is left with another `index` segment, or that starts
with two slashes, keeps these: it is such names, and only such, whose normal form has an `index`
segment at its end and changes once more, or has two slashes at its start (`normalize_stem`).
-/

namespace SiteRouter.Page

/-! ## The `index` segment -/

/-- The second text has an `index` segment at its end, and the first one is what stands before that
segment and its slash. -/
inductive IndexOf : List Char → List Char → Prop
  /-- The segment is the whole text. -/
  | alone : IndexOf [] indexName
  /-- A slash stands before the segment. -/
  | inside (stem : List Char) : IndexOf stem (stem ++ '/' :: indexName)

/-- The text has an `index` segment at its end. -/
def HasIndex (cs : List Char) : Prop := ∃ stem, IndexOf stem cs

/-- The text without one `index` segment at its end. -/
def IsStem (stem cs : List Char) : Prop := IndexOf stem cs ∨ ¬HasIndex cs ∧ stem = cs

/-- A text with an `index` segment is longer than what stands before it by more than a slash. -/
theorem IndexOf.length_lt {stem cs : List Char} (h : IndexOf stem cs) :
    stem.length + 1 < cs.length := by
  have hname : indexName.length = 5 := rfl
  cases h with
  | alone => decide
  | inside =>
    rw [List.length_append, List.length_cons]
    omega

/-- An `index` segment is dropped with its slash. -/
theorem IndexOf.dropIndex_eq {stem cs : List Char} (h : IndexOf stem cs) : dropIndex cs = stem := by
  cases h with
  | alone => rfl
  | inside =>
    unfold dropIndex
    split_ifs with hname hsuffix
    · -- No text before the slash is short enough.
      have hlength := congrArg List.length hname
      rw [List.length_append, List.length_cons] at hlength
      omega
    · have hcount : (stem ++ '/' :: indexName).length - (indexName.length + 1) = stem.length := by
        rw [List.length_append, List.length_cons]
        omega
      rw [hcount, List.take_left]
    · exact absurd (List.isSuffixOf_iff_suffix.2 ⟨stem, rfl⟩) hsuffix

/-- A text without an `index` segment stays as it is. -/
theorem dropIndex_of_not_hasIndex {cs : List Char} (h : ¬HasIndex cs) : dropIndex cs = cs := by
  unfold dropIndex
  split_ifs with hname hsuffix
  · exact absurd ⟨[], hname ▸ .alone⟩ h
  · obtain ⟨stem, rfl⟩ := List.isSuffixOf_iff_suffix.1 hsuffix
    exact absurd ⟨stem, .inside stem⟩ h
  · rfl

/-- A text has an `index` segment if dropping it changes the text. -/
theorem hasIndex_iff {cs : List Char} : HasIndex cs ↔ dropIndex cs ≠ cs := by
  constructor
  · rintro ⟨stem, hindex⟩ heq
    have hlength := hindex.length_lt
    rw [← hindex.dropIndex_eq, heq] at hlength
    omega
  · intro hne
    by_contra h
    exact hne (dropIndex_of_not_hasIndex h)

instance (cs : List Char) : Decidable (HasIndex cs) := decidable_of_iff _ hasIndex_iff.symm

/-- What is left of a text is the text without one `index` segment. -/
theorem isStem_iff {stem cs : List Char} : IsStem stem cs ↔ dropIndex cs = stem := by
  constructor
  · rintro (hindex | ⟨hnone, rfl⟩)
    · exact hindex.dropIndex_eq
    · exact dropIndex_of_not_hasIndex hnone
  · rintro rfl
    by_cases h : HasIndex cs
    · obtain ⟨stem, hindex⟩ := h
      rw [hindex.dropIndex_eq]
      exact .inl hindex
    · exact .inr ⟨h, dropIndex_of_not_hasIndex h⟩

/-- Only a text with an `index` segment is changed by dropping it, whatever is put before it. -/
theorem withSlash_dropIndex_eq_iff {cs : List Char} (hslash : cs.head? = some '/') :
    withSlash (dropIndex cs) = cs ↔ ¬HasIndex cs := by
  constructor
  · rintro heq ⟨stem, hindex⟩
    have hlength := hindex.length_lt
    rw [hindex.dropIndex_eq, withSlash] at heq
    split_ifs at heq with hstem
    · rw [heq] at hlength
      omega
    · rw [← heq, List.length_cons] at hlength
      omega
  · intro h
    rw [dropIndex_of_not_hasIndex h, withSlash, if_pos hslash]

/-! ## The slash at the start -/

/-- A text has a slash at its start, put there if there was none. -/
theorem head?_withSlash (cs : List Char) : (withSlash cs).head? = some '/' := by
  unfold withSlash
  split_ifs with h
  · exact h
  · rfl

/-- Two slashes at the start stood there before. -/
theorem doubled_withSlash_iff {cs : List Char} :
    ['/', '/'] <+: withSlash cs ↔ ['/', '/'] <+: cs := by
  unfold withSlash
  split_ifs with h
  · rfl
  · -- Neither the text nor the slash before it can make up two.
    have hhead : ∀ t, cs ≠ '/' :: t := by
      rintro t rfl
      exact h rfl
    constructor
    · rintro ⟨t, ht⟩
      exact absurd (List.cons.inj ht).2.symm (hhead t)
    · rintro ⟨t, rfl⟩
      exact absurd rfl (hhead ('/' :: t))

/-- A slash at the start makes no `index` segment. -/
theorem hasIndex_withSlash_iff {cs : List Char} : HasIndex (withSlash cs) ↔ HasIndex cs := by
  unfold withSlash
  split_ifs with h
  · rfl
  constructor
  · rintro ⟨stem, hindex⟩
    generalize hwhole : '/' :: cs = whole at hindex
    cases hindex with
    | alone => exact absurd (List.cons.inj hwhole).1 (by decide)
    | inside =>
      cases stem with
      | nil =>
        rw [(List.cons.inj hwhole).2]
        exact ⟨[], .alone⟩
      | cons c stem =>
        rw [(List.cons.inj hwhole).2]
        exact ⟨stem, .inside stem⟩
  · rintro ⟨stem, hindex⟩
    cases hindex with
    | alone => exact ⟨[], .inside []⟩
    | inside => exact ⟨'/' :: stem, .inside ('/' :: stem)⟩

/-! ## The normal form -/

/-- Dropping an `index` segment leaves characters of the text. -/
theorem mem_of_mem_dropIndex {cs : List Char} {c : Char} (h : c ∈ dropIndex cs) : c ∈ cs := by
  rcases isStem_iff.2 (rfl : dropIndex cs = dropIndex cs) with hindex | ⟨-, heq⟩
  · generalize dropIndex cs = stem at h hindex
    cases hindex with
    | alone => cases h
    | inside => exact List.mem_append_left _ h
  · rwa [heq] at h

/-- The normal form of a name without line feeds. -/
theorem toList_normalize {page : String} (hline : '\n' ∉ page.toList) :
    (normalize page).toList = withSlash (dropIndex page.toList) := by
  have hlast : page.toList.getLast? ≠ some '\n' := fun heq => hline (List.mem_of_getLast? heq)
  rw [normalize, String.toList_ofList, dropLastIndex, if_neg hlast]

/-- A normal form has no line feed that the name did not have. -/
theorem newline_not_mem_normalize {page : String} (hline : '\n' ∉ page.toList) :
    '\n' ∉ (normalize page).toList := by
  rw [toList_normalize hline, withSlash]
  split_ifs
  · exact fun hmem => hline (mem_of_mem_dropIndex hmem)
  · rw [List.mem_cons, not_or]
    exact ⟨by decide, fun hmem => hline (mem_of_mem_dropIndex hmem)⟩

/-- The normal form of a name without line feeds is the name without one `index` segment, with a
slash at its start. It has two slashes at its start if what is left of the name has, and an `index`
segment at its end if what is left has one more. In this case it changes when it is normalized
again, and in no other. -/
theorem normalize_stem {page : String} (hline : '\n' ∉ page.toList) :
    ∃ stem, IsStem stem page.toList ∧
      (normalize page).toList = (if stem.head? = some '/' then stem else '/' :: stem) ∧
      (normalize page).toList.head? = some '/' ∧
      (['/', '/'] <+: (normalize page).toList ↔ ['/', '/'] <+: stem) ∧
      (HasIndex (normalize page).toList ↔ HasIndex stem) ∧
      (normalize (normalize page) = normalize page ↔ ¬HasIndex stem) := by
  have hform := toList_normalize hline
  have hagain := toList_normalize (newline_not_mem_normalize hline)
  have hhead : (normalize page).toList.head? = some '/' := by
    rw [hform]
    exact head?_withSlash _
  have hindex : HasIndex (normalize page).toList ↔ HasIndex (dropIndex page.toList) := by
    rw [hform]
    exact hasIndex_withSlash_iff
  refine ⟨dropIndex page.toList, isStem_iff.2 rfl, hform, hhead, ?_, hindex, ?_⟩
  · rw [hform]
    exact doubled_withSlash_iff
  · rw [← String.toList_inj, hagain, ← hindex]
    exact withSlash_dropIndex_eq_iff hhead

/-- One slash is put before a name that has none, and a name in its normal form stays. -/
theorem normalize_stem_calendar :
    (normalize "calendar/index").toList = "/calendar".toList ∧
      ¬['/', '/'] <+: (normalize "calendar/index").toList ∧
      ¬HasIndex (normalize "calendar/index").toList ∧
      normalize (normalize "calendar/index") = normalize "calendar/index" := by
  have hline : '\n' ∉ "calendar/index".toList := by decide
  obtain ⟨stem, hstem, hform, -, hdoubled, hindex, hagain⟩ := normalize_stem hline
  obtain rfl : "calendar".toList = stem := isStem_iff.1 hstem
  have hnone : ¬HasIndex "calendar".toList := by decide
  refine ⟨hform, fun h => absurd (hdoubled.1 h) (by decide), fun h => hnone (hindex.1 h),
    hagain.2 hnone⟩

/-- Two slashes stay at the start of a name, and of two `index` segments one. -/
theorem normalize_doubled :
    normalize "//calendar" = "//calendar" ∧ normalize "index/index" = "/index" ∧
      HasIndex (normalize "index/index").toList ∧ normalize (normalize "index/index") = "/" := by
  refine ⟨by rfl, by rfl, ⟨[], ?_⟩, by rfl⟩
  exact .inside []

end SiteRouter.Page
