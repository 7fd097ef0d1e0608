import SiteRouter.Regex.CharSet

/-!
# Characters without case and ASCII letters

The characters below `A` have no counterpart in another case, and no letter has one of them for a
counterpart: the tables begin above them. So the slash and the point that cut a path are themselves
whether case is ignored or not (`fitsCode_caseless_left`, `fitsCode_caseless_right`). The letters of
ASCII have the counterparts that they have without the tables, and nothing tells the two apart that
is made for either case (`eq_of_toLower_eq`).
-/

namespace SiteRouter.Text

/-- The code point of `A`; what lies below it has no case. -/
def firstLetter : Nat := 65

/-- The runs from upper to lower case begin and end among the letters. -/
theorem lowerRuns_among_letters :
    ∀ r ∈ lowerRuns, firstLetter ≤ r.first ∧ firstLetter ≤ r.target := by
  decide +kernel

/-- The letters that share their upper case are letters. -/
theorem upperCaseMates_among_letters :
    ∀ e ∈ upperCaseMates, firstLetter ≤ e.1 ∧ ∀ n ∈ e.2, firstLetter ≤ n := by
  decide +kernel

/-- Runs that begin and end among the letters leave the caseless characters as they are, and map
nothing to them. -/
theorem mapIn_caseless {runs : List CaseRun}
    (h : ∀ r ∈ runs, firstLetter ≤ r.first ∧ firstLetter ≤ r.target) (n : Nat) :
    (n < firstLetter → CaseRun.mapIn runs n = n) ∧
      (CaseRun.mapIn runs n < firstLetter → CaseRun.mapIn runs n = n) := by
  induction runs with
  | nil => exact ⟨fun _ => rfl, fun _ => rfl⟩
  | cons r runs ih =>
    rw [List.forall_mem_cons] at h
    obtain ⟨⟨hfirst, htarget⟩, hrest⟩ := h
    unfold CaseRun.mapIn
    split
    · exact ⟨fun _ => rfl, fun _ => rfl⟩
    · split
      · unfold CaseRun.image
        constructor <;> intro hlt <;> omega
      · exact ih hrest

theorem lowerCode_of_lt {n : Nat} (h : n < firstLetter) : lowerCode n = n :=
  (mapIn_caseless lowerRuns_among_letters n).1 h

theorem eq_of_lowerCode_lt {n : Nat} (h : lowerCode n < firstLetter) : lowerCode n = n :=
  (mapIn_caseless lowerRuns_among_letters n).2 h

/-- The letters beside a code point in the table of mates are letters, and so is that code point. -/
theorem among_letters_of_mem_mates {t : List (Nat × List Nat)} {m n : Nat}
    (h : ∀ e ∈ t, firstLetter ≤ e.1 ∧ ∀ n ∈ e.2, firstLetter ≤ n)
    (hn : n ∈ (t.lookup m).getD []) : firstLetter ≤ m ∧ firstLetter ≤ n := by
  induction t with
  | nil => simp at hn
  | cons e t ih =>
    rw [List.forall_mem_cons] at h
    obtain ⟨⟨hk, hks⟩, hrest⟩ := h
    rw [List.lookup_cons] at hn
    split at hn
    · next heq =>
      rw [beq_iff_eq] at heq
      exact ⟨heq ▸ hk, hks n hn⟩
    · exact ih hrest hn

/-- A caseless character is the same letter as itself alone. -/
theorem sameLetter_caseless_right {m n : Nat} (h : n < firstLetter) :
    sameLetter m n = true ↔ m = n := by
  refine ⟨fun hsame => ?_, fun heq => heq ▸ sameLetter_self n⟩
  rw [sameLetter, lowerCode_of_lt h, List.contains_iff_mem, caseMates, List.mem_cons] at hsame
  rcases hsame with hlow | hmate
  · rw [hlow] at h ⊢
    exact (eq_of_lowerCode_lt h).symm
  · have := (among_letters_of_mem_mates upperCaseMates_among_letters hmate).2
    omega

/-- No other letter is the same letter as a caseless character. -/
theorem sameLetter_caseless_left {m n : Nat} (h : m < firstLetter) :
    sameLetter m n = true ↔ m = n := by
  refine ⟨fun hsame => ?_, fun heq => heq ▸ sameLetter_self m⟩
  rw [sameLetter, lowerCode_of_lt h, List.contains_iff_mem, caseMates, List.mem_cons] at hsame
  rcases hsame with hlow | hmate
  · rw [← hlow] at h ⊢
    exact eq_of_lowerCode_lt h
  · have := (among_letters_of_mem_mates upperCaseMates_among_letters hmate).1
    omega

/-! ## ASCII letters -/

/-- The lower case of ASCII changes ASCII letters alone. -/
theorem toLower_of_not_ascii {c : Char} (h : 0x80 ≤ c.toNat) : c.toLower = c := by
  have hnot : ¬(c.val ≥ 'A'.val ∧ c.val ≤ 'Z'.val) := by
    rintro ⟨-, hle⟩
    have hle : c.toNat ≤ 'Z'.toNat := hle
    exact absurd (Nat.le_trans h hle) (by decide)
  exact dif_neg hnot

/-- What is the same for an ASCII character and its lower case is the same for every character and
its ASCII lower case. -/
theorem eq_toLower {β : Type} {f : Char → β}
    (hascii : ∀ n < 0x80, f (Char.ofNat n).toLower = f (Char.ofNat n)) (c : Char) :
    f c.toLower = f c := by
  by_cases hc : c.toNat < 0x80
  · have hcode := hascii c.toNat hc
    rwa [Char.ofNat_toNat] at hcode
  · rw [toLower_of_not_ascii (Nat.le_of_not_lt hc)]

/-- So it is the same for any two characters that are the same up to the case of ASCII letters. -/
theorem eq_of_toLower_eq {β : Type} {f : Char → β}
    (hascii : ∀ n < 0x80, f (Char.ofNat n).toLower = f (Char.ofNat n)) {c d : Char}
    (h : c.toLower = d.toLower) : f c = f d := by
  rw [← eq_toLower hascii c, h, eq_toLower hascii]

/-- The lower case of an ASCII character is that of ASCII. -/
theorem lowerCode_ascii {c : Char} (h : c.toNat < 0x80) :
    lowerCode c.toNat = c.toLower.toNat ∧ c.toLower.toNat < 0x80 := by
  have hall : ∀ n < 0x80, lowerCode n = (Char.ofNat n).toLower.toNat ∧
      (Char.ofNat n).toLower.toNat < 0x80 := by decide
  have hcode := hall c.toNat h
  rwa [Char.ofNat_toNat] at hcode

/-- ASCII characters are the same letter if they are the same up to the case of ASCII. -/
theorem sameLetter_ascii {a x : Char} (ha : a.toNat < 0x80) (hx : x.toNat < 0x80) :
    sameLetter a.toNat x.toNat = true ↔ a.toLower = x.toLower := by
  -- The letters beside an ASCII letter in the table of mates are not ASCII.
  have hmates : ∀ m < 0x80, ∀ n ∈ caseMates m, n < 0x80 → n = m := by decide
  obtain ⟨hlow, hlt⟩ := lowerCode_ascii ha
  obtain ⟨hlow', hlt'⟩ := lowerCode_ascii hx
  rw [sameLetter, hlow, hlow', List.contains_iff_mem]
  constructor
  · intro hmem
    exact Char.toNat_inj.1 (hmates _ hlt _ hmem hlt').symm
  · intro heq
    rw [heq]
    exact List.mem_cons_self

/-- The character, an ASCII letter in lower case if case is ignored. -/
def foldAscii (ignoreCase : Bool) (c : Char) : Char := if ignoreCase then c.toLower else c

/-- What is the same for ASCII letters in either case is the same for a character and the folded
one. -/
theorem eq_of_foldAscii_eq {β : Type} {f : Char → β}
    (hascii : ∀ n < 0x80, f (Char.ofNat n).toLower = f (Char.ofNat n)) {ignoreCase : Bool}
    {c d : Char} (h : foldAscii ignoreCase c = foldAscii ignoreCase d) : f c = f d := by
  cases ignoreCase with
  | false => exact congrArg f h
  | true => exact eq_of_toLower_eq hascii h

end SiteRouter.Text

namespace SiteRouter.Regex

open Text (firstLetter foldAscii)

/-- A caseless character of an expression fits itself alone. -/
theorem fitsCode_caseless_left (ignoreCase : Bool) {a : Char} (h : a.toNat < firstLetter)
    (x : Char) : fitsCode ignoreCase a.toNat x = true ↔ x = a := by
  cases ignoreCase with
  | false => simp [fitsCode, Char.toNat_inj]
  | true =>
    rw [fitsCode, if_pos rfl, Text.sameLetter_caseless_left h, Char.toNat_inj]
    exact eq_comm

/-- A caseless character of a text fits itself alone. -/
theorem fitsCode_caseless_right (ignoreCase : Bool) {x : Char} (h : x.toNat < firstLetter)
    (a : Char) : fitsCode ignoreCase a.toNat x = true ↔ x = a := by
  cases ignoreCase with
  | false => simp [fitsCode, Char.toNat_inj]
  | true =>
    rw [fitsCode, if_pos rfl, Text.sameLetter_caseless_right h, Char.toNat_inj]
    exact eq_comm

/-- An ASCII character fits the ASCII characters that are folded as it is. -/
theorem fitsCode_ascii (ignoreCase : Bool) {a x : Char} (ha : a.toNat < 0x80)
    (hx : x.toNat < 0x80) :
    fitsCode ignoreCase a.toNat x = true ↔ foldAscii ignoreCase a = foldAscii ignoreCase x := by
  cases ignoreCase with
  | false =>
    rw [fitsCode, if_neg Bool.false_ne_true, beq_iff_eq, Char.toNat_inj]
    exact eq_comm
  | true => exact Text.sameLetter_ascii ha hx

/-- A character fits itself. -/
@[simp] theorem fitsCode_self (ignoreCase : Bool) (a : Char) :
    fitsCode ignoreCase a.toNat a = true := by
  cases ignoreCase <;> simp [fitsCode]

end SiteRouter.Regex
