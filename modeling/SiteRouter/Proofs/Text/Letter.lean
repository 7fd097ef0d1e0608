import SiteRouter.Proofs.Text.Case

/-!
# Letters that are the same without regard to case

The table of lower cases lists its runs so that no code point is in two of them
(`lowerRuns_pairwise`). So the code points with a given lower case are those that are found by
walking the runs backwards (`mem_lowerSources`), and a code point has as few of the same letter as
the tables list (`sameLetter_iff_mem_lowerSources`). To be the same letter goes both ways
(`sameLetter_comm`). A set of ASCII characters therefore holds, where case is ignored, what is the
same letter as one of its own characters, and nothing else (`CharSet.contains_true_iff`). A word of
letters that no character beyond ASCII has for its lower case is the lower case of the texts that
spell it in ASCII letters of either case (`lowercase_eq_iff`).
-/

namespace SiteRouter.Text

/-! ## The runs backwards -/

namespace CaseRun

/-- The run begins before the other one, and no code point is in both. -/
def Precedes (r r' : CaseRun) : Prop :=
  r.first < r'.first ∧
    (r.last < r'.first ∨ r.step = 2 ∧ r'.step = 2 ∧ r.first % 2 ≠ r'.first % 2)

instance : DecidableRel Precedes := fun _ _ => inferInstanceAs (Decidable (_ ∧ _))

/-- A code point of a run is between its ends, at a distance from the first that the step divides.
-/
theorem holds_iff {r : CaseRun} {m : Nat} :
    r.holds m = true ↔ r.first ≤ m ∧ m ≤ r.last ∧ (m - r.first) % r.step = 0 := by
  rw [holds, Bool.and_eq_true, Bool.and_eq_true, decide_eq_true_eq, decide_eq_true_eq, beq_iff_eq,
    and_assoc]

/-- A code point of a run lies behind the first of an earlier run and is not in it. -/
theorem Precedes.holds_eq_false {r r' : CaseRun} (h : r.Precedes r') {m : Nat}
    (hm : r'.holds m = true) : r.first ≤ m ∧ r.holds m = false := by
  obtain ⟨hfirst, hapart⟩ := h
  obtain ⟨hle, -, hstep'⟩ := holds_iff.1 hm
  refine ⟨by omega, Bool.eq_false_iff.2 fun hheld => ?_⟩
  obtain ⟨-, hlast, hstep⟩ := holds_iff.1 hheld
  rcases hapart with hbefore | ⟨htwo, htwo', hparity⟩
  · omega
  · rw [htwo] at hstep
    rw [htwo'] at hstep'
    omega

/-- The code point of a run with a given counterpart. -/
theorem preimage?_eq_some {r : CaseRun} {m n : Nat} :
    r.preimage? n = some m ↔ r.holds m = true ∧ r.image m = n := by
  unfold preimage? image
  rw [Option.ite_none_right_eq_some, Bool.and_eq_true, decide_eq_true_eq, Option.some.injEq]
  constructor
  · rintro ⟨⟨hle, hholds⟩, rfl⟩
    exact ⟨hholds, by omega⟩
  · rintro ⟨hholds, rfl⟩
    obtain ⟨hle, -⟩ := holds_iff.1 hholds
    have hback : r.first + (r.target + (m - r.first) - r.target) = m := by omega
    rw [hback]
    exact ⟨⟨by omega, hholds⟩, rfl⟩

/-- A code point of a run is mapped by that run. -/
theorem mapIn_of_holds {runs : List CaseRun} (h : runs.Pairwise Precedes) {r : CaseRun}
    (hr : r ∈ runs) {m : Nat} (hm : r.holds m = true) : mapIn runs m = r.image m := by
  induction runs with
  | nil => cases hr
  | cons r' runs ih =>
    rw [List.pairwise_cons] at h
    unfold mapIn
    rcases List.mem_cons.1 hr with rfl | hr
    · have hle := (holds_iff.1 hm).1
      rw [if_neg (by omega), if_pos hm]
    · obtain ⟨hle, hnot⟩ := (h.1 r hr).holds_eq_false hm
      rw [if_neg (by omega), hnot, if_neg Bool.false_ne_true]
      exact ih h.2 hr

/-- A code point is mapped by one of the runs or stays as it is. -/
theorem mapIn_cases (runs : List CaseRun) (m : Nat) :
    mapIn runs m = m ∨ ∃ r ∈ runs, r.holds m = true ∧ mapIn runs m = r.image m := by
  induction runs with
  | nil => exact .inl rfl
  | cons r runs ih =>
    unfold mapIn
    split
    · exact .inl rfl
    · split
      · next hholds => exact .inr ⟨r, List.mem_cons_self, hholds, rfl⟩
      · obtain hsame | ⟨r', hr', himage⟩ := ih
        · exact .inl hsame
        · exact .inr ⟨r', List.mem_cons_of_mem r hr', himage⟩

end CaseRun

/-- No code point is in two runs of the table of lower cases. -/
theorem lowerRuns_pairwise : lowerRuns.Pairwise CaseRun.Precedes := by decide +kernel

/-- The code points that are listed for a lower case are those that have it. -/
theorem mem_lowerSources {m n : Nat} : m ∈ lowerSources n ↔ lowerCode m = n := by
  have hruns : m ∈ lowerRuns.filterMap (·.preimage? n) ↔
      ∃ r ∈ lowerRuns, r.holds m = true ∧ r.image m = n := by
    simp only [List.mem_filterMap, CaseRun.preimage?_eq_some]
  have hmapped : ∀ r ∈ lowerRuns, r.holds m = true → lowerCode m = r.image m :=
    fun r hr hm => CaseRun.mapIn_of_holds lowerRuns_pairwise hr hm
  have hsources : m ∈ lowerSources n ↔
      (lowerCode n = n ∧ m = n) ∨ m ∈ lowerRuns.filterMap (·.preimage? n) := by
    unfold lowerSources
    dsimp only
    split
    · next hself => simp [hself]
    · next hself => simp [hself]
  rw [hsources, hruns]
  constructor
  · rintro (⟨hself, rfl⟩ | ⟨r, hr, hm, rfl⟩)
    · exact hself
    · exact hmapped r hr hm
  · intro hlow
    obtain hself | ⟨r, hr, hm, himage⟩ := CaseRun.mapIn_cases lowerRuns m
    · obtain rfl : m = n := hself.symm.trans hlow
      exact .inl ⟨hlow, rfl⟩
    · exact .inr ⟨r, hr, hm, himage.symm.trans hlow⟩

/-! ## The same letter -/

/-- A letter is listed beside those that are listed beside it. -/
theorem mem_caseMates_comm {m n : Nat} : m ∈ caseMates n ↔ n ∈ caseMates m := by
  have hall : ∀ e ∈ upperCaseMates, ∀ k ∈ e.2, e.1 ∈ (upperCaseMates.lookup k).getD [] := by
    decide +kernel
  have himp : ∀ m n, m ∈ caseMates n → n ∈ caseMates m := by
    intro m n h
    rw [caseMates, List.mem_cons] at h ⊢
    rcases h with rfl | h
    · exact .inl rfl
    · right
      cases hlookup : upperCaseMates.lookup n with
      | none => simp [hlookup] at h
      | some mates =>
        rw [hlookup, Option.getD_some] at h
        obtain ⟨before, after, htable, -⟩ := List.lookup_eq_some_iff.1 hlookup
        have hentry : (n, mates) ∈ upperCaseMates := by
          rw [htable]
          exact List.mem_append_right _ List.mem_cons_self
        exact hall _ hentry m h
  exact ⟨himp m n, himp n m⟩

/-- To be the same letter goes both ways. -/
theorem sameLetter_comm (m n : Nat) : sameLetter m n = sameLetter n m := by
  rw [Bool.eq_iff_iff, sameLetter, sameLetter, List.contains_iff_mem, List.contains_iff_mem]
  exact mem_caseMates_comm

/-- The same letters as a given one are listed by the tables. -/
theorem sameLetter_iff_mem_lowerSources {m n : Nat} :
    sameLetter m n = true ↔ n ∈ (caseMates (lowerCode m)).flatMap lowerSources := by
  rw [sameLetter, List.contains_iff_mem, List.mem_flatMap]
  simp only [mem_lowerSources, exists_eq_right']

/-! ## Words in lower case -/

/-- The character is an ASCII one, and so is every character that has it for its lower case. -/
def IsPlainLetter (d : Char) : Prop :=
  0 < d.toNat ∧ d.toNat < 0x80 ∧ ∀ m ∈ lowerSources d.toNat, m < 0x80

instance : DecidablePred IsPlainLetter := fun _ => inferInstanceAs (Decidable (_ ∧ _ ∧ _))

/-- A plain letter is the lower case of the characters that have it in ASCII. -/
theorem IsPlainLetter.lowerCode_eq_iff {d : Char} (h : IsPlainLetter d) {c : Char} :
    Char.ofNat (lowerCode c.toNat) = d ↔ c.toLower = d := by
  obtain ⟨hpos, hd, hsources⟩ := h
  by_cases hc : c.toNat < 0x80
  · rw [(lowerCode_ascii hc).1, Char.ofNat_toNat]
  · rw [toLower_of_not_ascii (Nat.le_of_not_lt hc)]
    constructor
    · intro heq
      have hvalid : (lowerCode c.toNat).isValidChar := by
        refine Decidable.byContradiction fun hnot => ?_
        rw [← heq, Char.ofNat, dif_neg hnot] at hpos
        exact absurd hpos (by decide)
      have hcode : lowerCode c.toNat = d.toNat := by
        rw [← heq, Char.ofNat, dif_pos hvalid]
        rfl
      exact absurd (hsources _ (mem_lowerSources.2 hcode)) hc
    · rintro rfl
      exact absurd hd hc

/-- The capitals whose lower case depends on the text around them, or is no single character, have
no plain letter for it. -/
theorem lowerBetween_eq_or (before : List Char) (c : Char) (after : List Char) :
    lowerBetween before c after = [Char.ofNat (lowerCode c.toNat)] ∨
      0x80 ≤ c.toNat ∧ ∃ x ∈ lowerBetween before c after, 0x80 ≤ x.toNat := by
  unfold lowerBetween
  split
  · next hsigma =>
    subst hsigma
    right
    split <;> simp
  · split
    · next hdotted =>
      subst hdotted
      exact .inr ⟨by decide, Char.ofNat 0x307, by simp, by decide⟩
    · exact .inl rfl

/-- A text has a word of plain letters for its lower case exactly if it is that word up to the case
of ASCII letters. -/
theorem lowercase_eq_iff {w s : String} (hw : ∀ d ∈ w.toList, IsPlainLetter d) :
    lowercase s = w ↔ s.toList.map Char.toLower = w.toList := by
  rw [← String.toList_inj, lowercase, String.toList_ofList]
  -- The characters that were read before do not matter for plain letters.
  generalize [] = before
  generalize w.toList = ds at hw
  induction s.toList generalizing before ds with
  | nil => exact Iff.rfl
  | cons c cs ih =>
    rw [lowerFrom, List.map_cons]
    obtain hone | ⟨hc, x, hx, hxcode⟩ := lowerBetween_eq_or before c cs
    · rw [hone, List.singleton_append]
      cases ds with
      | nil => simp
      | cons d ds =>
        rw [List.forall_mem_cons] at hw
        rw [List.cons.injEq, List.cons.injEq, hw.1.lowerCode_eq_iff, ih (c :: before) ds hw.2]
    · -- Neither text is a word of ASCII characters.
      have hascii : ∀ d ∈ ds, d.toNat < 0x80 := fun d hd => (hw d hd).2.1
      rw [toLower_of_not_ascii hc]
      constructor
      · rintro rfl
        exact absurd (hascii x (List.mem_append_left _ hx)) (Nat.not_lt.2 hxcode)
      · rintro rfl
        exact absurd (hascii c List.mem_cons_self) (Nat.not_lt.2 hc)

end SiteRouter.Text

namespace SiteRouter.Regex

open Text (sameLetter)

/-! ## Sets where case is ignored -/

/-- A range that ends below U+10000 holds the letter if it has the same letter between its ends. -/
theorem rangeHoldsLetter_iff {lo hi n : Nat} (hhi : hi ≤ 0xFFFF) :
    rangeHoldsLetter lo hi (Text.lowerCode n) = true ↔
      ∃ m, between lo hi m = true ∧ sameLetter m n = true := by
  have hlow : decide (0xFFFF < hi) = false := decide_eq_false (Nat.not_lt.2 hhi)
  have hsmall : ∀ m, between lo hi m = true → m ≤ 0xFFFF := by
    intro m hm
    rw [between, Bool.and_eq_true, decide_eq_true_eq, decide_eq_true_eq] at hm
    omega
  rw [rangeHoldsLetter, hlow, Bool.false_and, Bool.or_false, List.any_eq_true]
  simp only [← Text.sameLetter_iff_mem_lowerSources, Text.sameLetter_comm n, Bool.and_eq_true,
    decide_eq_true_eq]
  constructor
  · rintro ⟨m, hsame, -, hm⟩
    exact ⟨m, hm, hsame⟩
  · rintro ⟨m, hm, hsame⟩
    exact ⟨m, hsame, hsmall m hm, hm⟩

/-- The member is an ASCII character or a range of them. -/
def SetItem.IsAscii : SetItem → Prop
  | code n => n < 0x80
  | range _ hi => hi < 0x80
  | category _ _ => False

instance : DecidablePred SetItem.IsAscii
  | .code n => inferInstanceAs (Decidable (n < 0x80))
  | .range _ hi => inferInstanceAs (Decidable (hi < 0x80))
  | .category _ _ => inferInstanceAs (Decidable False)

/-- An ASCII code point is that of a character. -/
theorem exists_ascii_iff {p : Nat → Prop} (hp : ∀ n, p n → n < 0x80) :
    (∃ n, p n) ↔ ∃ a : Char, p a.toNat := by
  constructor
  · rintro ⟨n, hn⟩
    have hvalid : n.isValidChar := .inl (Nat.lt_trans (hp n hn) (by decide))
    have hcode : (Char.ofNat n).toNat = n := by
      rw [Char.ofNat, dif_pos hvalid]
      rfl
    exact ⟨Char.ofNat n, hcode.symm ▸ hn⟩
  · rintro ⟨a, ha⟩
    exact ⟨_, ha⟩

/-- A member holds, where case is ignored, what is the same letter as a character that it holds. -/
theorem SetItem.contains_true_iff {i : SetItem} (hi : i.IsAscii) {c : Char} :
    i.contains true c = true ↔
      ∃ a : Char, i.contains false a = true ∧ sameLetter a.toNat c.toNat = true := by
  cases i with
  | code n =>
    have hn : n < 0x80 := hi
    have hsmall : decide (0xFFFF < n) = false := decide_eq_false (by omega)
    have hcode : (∃ m, m = n ∧ sameLetter m c.toNat = true) ↔
        ∃ a : Char, a.toNat = n ∧ sameLetter a.toNat c.toNat = true :=
      exists_ascii_iff fun m hm => hm.1 ▸ hn
    rw [exists_eq_left] at hcode
    simp only [contains, hsmall, fitsCode, Bool.and_false, Bool.false_eq_true, if_true,
      if_false, beq_iff_eq]
    exact hcode
  | range lo hi' =>
    have hhi : hi' < 0x80 := hi
    rw [contains, if_pos rfl, rangeHoldsLetter_iff (by omega)]
    refine exists_ascii_iff fun m hm => ?_
    have hbetween := hm.1
    rw [between, Bool.and_eq_true, decide_eq_true_eq, decide_eq_true_eq] at hbetween
    omega
  | category kind negated => exact hi.elim

/-- A set of ASCII characters holds, where case is ignored, what is the same letter as a character
that it holds. -/
theorem CharSet.contains_true_iff {s : CharSet} (hs : s.negated = false)
    (hitems : ∀ i ∈ s.items, i.IsAscii) {c : Char} :
    s.contains true c = true ↔
      ∃ a : Char, s.contains false a = true ∧ sameLetter a.toNat c.toNat = true := by
  simp only [contains, hs, bne_iff_ne, ne_eq, Bool.not_eq_false, List.any_eq_true]
  constructor
  · rintro ⟨i, hi, hc⟩
    obtain ⟨a, ha, hsame⟩ := (SetItem.contains_true_iff (hitems i hi)).1 hc
    exact ⟨a, ⟨i, hi, ha⟩, hsame⟩
  · rintro ⟨a, ⟨i, hi, ha⟩, hsame⟩
    exact ⟨i, hi, (SetItem.contains_true_iff (hitems i hi)).2 ⟨a, ha, hsame⟩⟩

end SiteRouter.Regex
