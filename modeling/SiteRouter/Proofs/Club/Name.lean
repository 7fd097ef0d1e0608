import SiteRouter.Proofs.Club.Strip
import SiteRouter.Proofs.Pattern.Written
import SiteRouter.Proofs.Text.Letter
import SiteRouter.Text.BasicLatin

/-!
# The names of folders

The pattern of the folders ignores case, and so does the set of the characters of a name in it: it
holds what is the same letter as one of those characters (`contains_nameSet_iff`). The folder of a
path is the longest run of them behind the prefix, and stripping leaves what follows that run
(`folderOf?_longest`). Four letters beyond ASCII are the same letter as one of ASCII
(`isNameChar_iff`), so a folder that is read is a valid name unless it has one of these
(`folderOf?_name`).
-/

namespace SiteRouter.ClubFolders

open Pattern (SameText)

variable {text path : String}

/-! ## Characters of names -/

/-- The character is the same letter as one that may stand in the name of a folder. -/
def IsNameChar (c : Char) : Prop :=
  ∃ a, isFolderChar a = true ∧ Text.sameLetter a.toNat c.toNat = true

/-- Characters of names are those of folders where case counts. -/
theorem contains_nameSet_false (c : Char) : nameSet.contains false c = isFolderChar c := by
  have hle : ∀ a b : Char, decide (a ≤ b) = decide (a.toNat ≤ b.toNat) := fun _ _ => rfl
  have hcode : ∀ a : Char, (c.toNat == a.toNat) = (c == a) := by
    intro a
    rw [Bool.eq_iff_iff, beq_iff_eq, beq_iff_eq, Char.toNat_inj]
  simp only [Regex.CharSet.contains, nameSet, List.any_cons, List.any_nil, Regex.SetItem.contains,
    Regex.between, Regex.fitsCode, Bool.false_and, Bool.false_eq_true, if_false, hcode,
    isFolderChar, Regex.isAsciiLetter, Regex.isAsciiDigit, hle]
  simp only [Bool.or_false, Bool.bne_false, Bool.or_assoc]

/-- The set of the pattern holds the characters of names. -/
theorem contains_nameSet_iff {c : Char} : nameSet.contains true c = true ↔ IsNameChar c := by
  rw [Regex.CharSet.contains_true_iff rfl (by decide), IsNameChar]
  simp only [contains_nameSet_false]

/-! ## The extent of a folder -/

/-- The common prefix and a slash are read in any case as that prefix in any case and a slash. -/
theorem sameText_root_iff {start : List Char} :
    SameText true ((plainRule text).root.toList ++ ['/']) start ↔
      ∃ before, start = before ++ ['/'] ∧ SameText true (rootOf text) before := by
  rw [plainRule, String.toList_ofList]
  exact Pattern.sameText_concat_slash

/-- On one line, a folder is read where a character of a name stands behind the common prefix and a
slash. -/
theorem isSome_folderOf?_iff (hline : '\n' ∉ path.toList) :
    ((plainRule text).folderOf? path).isSome = true ↔
      ∃ start c rest, path.toList = start ++ c :: rest ∧
        SameText true ((plainRule text).root.toList ++ ['/']) start ∧ IsNameChar c := by
  rw [Option.isSome_iff_exists]
  constructor
  · rintro ⟨folder, hfolder⟩
    obtain ⟨before, rest, hlies⟩ := folderOf?_eq_some_iff.1 hfolder
    obtain ⟨c, cs, hname⟩ := List.exists_cons_of_ne_nil hlies.ne_nil
    refine ⟨before ++ ['/'], c, cs ++ rest, ?_, sameText_root_iff.2 ⟨before, rfl, hlies.root⟩,
      contains_nameSet_iff.1 (hlies.name c (hname ▸ List.mem_cons_self))⟩
    rw [hlies.path_eq, hname, List.append_assoc]
    rfl
  · rintro ⟨start, c, rest, hpath, hstart, hc⟩
    obtain ⟨before, rfl, hbefore⟩ := sameText_root_iff.1 hstart
    have hparts : path.toList = before ++ '/' :: ([c] ++ rest) := by
      rw [hpath, List.append_assoc]
      rfl
    have hrest : '\n' ∉ rest := by
      intro hmem
      rw [hpath] at hline
      exact hline (List.mem_append_right _ (List.mem_cons_of_mem c hmem))
    -- The character may be the first of a longer name.
    obtain ⟨folder, rest', hlies⟩ := exists_liesIn hparts hbefore (List.cons_ne_nil c [])
      (List.forall_mem_singleton.2 (contains_nameSet_iff.2 hc)) hrest
    exact ⟨_, hlies.folderOf?_eq⟩

/-- A folder that is read is the longest run of characters of names behind the common prefix and a
slash, and what follows it is left when it is stripped. -/
theorem extent_of_folderOf? {folder : String} (h : (plainRule text).folderOf? path = some folder) :
    ∃ start rest, path.toList = start ++ (folder.toList ++ rest) ∧
      SameText true ((plainRule text).root.toList ++ ['/']) start ∧ folder ≠ "" ∧
      (∀ c ∈ folder.toList, IsNameChar c) ∧ (∀ c, rest.head? = some c → ¬IsNameChar c) ∧
      ((plainRule text).strip path).toList =
        if rest.head? = some '/' then rest else '/' :: rest := by
  obtain ⟨before, rest, hlies⟩ := folderOf?_eq_some_iff.1 h
  refine ⟨before ++ ['/'], rest, ?_, sameText_root_iff.2 ⟨before, rfl, hlies.root⟩, ?_,
    fun c hc => contains_nameSet_iff.1 (hlies.name c hc), fun c hc hname => ?_,
    hlies.toList_strip⟩
  · rw [hlies.path_eq, List.append_assoc]
    rfl
  · rintro rfl
    exact hlies.ne_nil rfl
  · have hstop := hlies.longest c hc
    rw [contains_nameSet_iff.2 hname] at hstop
    cases hstop

/-- On one line, a folder is read where a character of a name stands behind the common prefix, in
any case, and a slash. It is the longest run of such characters at that place, and stripping leaves
exactly what follows the run, with a slash before it if there was none. Every other path is left as
it is. -/
theorem folderOf?_longest [CharacterNames] (h : IsLiteralPrefix text) :
    ∃ f, ofPrefix text = .ok f ∧ ∀ path : String, '\n' ∉ path.toList →
      ((f.folderOf? path).isSome = true ↔
        ∃ start c rest, path.toList = start ++ c :: rest ∧
          SameText true (f.root.toList ++ ['/']) start ∧ IsNameChar c) ∧
      (∀ folder, f.folderOf? path = some folder →
        ∃ start rest, path.toList = start ++ (folder.toList ++ rest) ∧
          SameText true (f.root.toList ++ ['/']) start ∧ folder ≠ "" ∧
          (∀ c ∈ folder.toList, IsNameChar c) ∧ (∀ c, rest.head? = some c → ¬IsNameChar c) ∧
          (f.strip path).toList = if rest.head? = some '/' then rest else '/' :: rest) ∧
      (f.folderOf? path = none → f.strip path = path) := by
  refine ⟨plainRule text, ofPrefix_eq h, fun path hline => ⟨?_, fun folder hfolder => ?_, ?_⟩⟩
  · exact isSome_folderOf?_iff hline
  · exact extent_of_folderOf? hfolder
  · exact strip_of_folderOf?_eq_none

/-- A name goes on over capital letters and signs up to a point, and there is none behind two
slashes. -/
theorem folderOf?_longest_chess :
    ∃ f, ofPrefix "clubs/" = .ok f ∧ f.folderOf? "/Clubs/Chess_1.a" = some "Chess_1" ∧
      f.strip "/Clubs/Chess_1.a" = "/.a" ∧ f.folderOf? "/clubs//a" = none ∧
      f.strip "/clubs//a" = "/clubs//a" := by
  have hliteral : IsLiteralPrefix "clubs/" := by decide
  obtain ⟨f, hf, hall⟩ := folderOf?_longest hliteral
  obtain rfl : plainRule "clubs/" = f := Except.ok.inj ((ofPrefix_eq hliteral).symm.trans hf)
  obtain ⟨-, hextent, -⟩ := hall "/Clubs/Chess_1.a" (by decide)
  obtain ⟨-, -, houtside⟩ := hall "/clubs//a" (by decide)
  have hfolder : (plainRule "clubs/").folderOf? "/Clubs/Chess_1.a" = some "Chess_1" := by
    decide +kernel
  have hnone : (plainRule "clubs/").folderOf? "/clubs//a" = none := by decide +kernel
  obtain ⟨start, rest, hpath, hstart, -, -, -, hstrip⟩ := hextent "Chess_1" hfolder
  -- The prefix and the slash have seven characters, so the rest is what stands behind the folder.
  have hparts : "/Clubs/".toList ++ ("Chess_1".toList ++ ".a".toList) =
      start ++ ("Chess_1".toList ++ rest) := hpath
  have hlength : "/Clubs/".toList.length = start.length := hstart.length_eq
  obtain rfl : ".a".toList = rest :=
    List.append_cancel_left (List.append_inj hparts hlength).2
  refine ⟨_, hf, hfolder, ?_, hnone, houtside hnone⟩
  rw [← String.toList_inj, hstrip]
  rfl

/-! ## Letters beyond ASCII -/

/-- The letters beyond ASCII that are the same letter as one of ASCII: the capital `I` with a dot,
the small `i` without one, the long `s` and the sign of the unit kelvin. -/
def foreignLetters : List Char := [0x130, 0x131, 0x17F, 0x212A].map Char.ofNat

/-- A character of a name is one of folders or one of these letters. -/
theorem isNameChar_iff {c : Char} :
    IsNameChar c ↔ isFolderChar c = true ∨ c ∈ foreignLetters := by
  constructor
  · rintro ⟨a, ha, hsame⟩
    -- The tables list what is the same letter as an ASCII character.
    have hall : ∀ n < 0x80, isFolderChar (Char.ofNat n) = true →
        ∀ m ∈ (Text.caseMates (Text.lowerCode n)).flatMap Text.lowerSources,
          isFolderChar (Char.ofNat m) = true ∨ Char.ofNat m ∈ foreignLetters := by
      decide +kernel
    have hlisted := hall a.toNat (lt_of_isFolderChar ha)
    rw [Char.ofNat_toNat] at hlisted
    have hc := hlisted ha c.toNat (Text.sameLetter_iff_mem_lowerSources.1 hsame)
    rwa [Char.ofNat_toNat] at hc
  · rintro (hc | hc)
    · exact ⟨c, hc, Text.sameLetter_self _⟩
    · have hall : (foreignLetters.all fun c => ['i', 's', 'k'].any fun a =>
          isFolderChar a && Text.sameLetter a.toNat c.toNat) = true := by
        decide +kernel
      obtain ⟨a, -, ha⟩ := List.any_eq_true.1 (List.all_eq_true.1 hall c hc)
      exact ⟨a, Bool.and_eq_true_iff.1 ha⟩

/-- No character of folders is one of these letters. -/
theorem not_mem_foreignLetters {c : Char} (h : isFolderChar c = true) : c ∉ foreignLetters := by
  have hall : (foreignLetters.all fun c => !isFolderChar c) = true := by decide
  intro hc
  have hnot := List.all_eq_true.1 hall c hc
  rw [h] at hnot
  cases hnot

/-- A text of characters of names is read as a folder behind the common prefix and a slash. -/
theorem folderOf?_of_name {folder : String} (hne : folder ≠ "")
    (hname : ∀ c ∈ folder.toList, IsNameChar c) :
    (plainRule text).folderOf? ((plainRule text).prefixPath folder "") = some folder := by
  refine folderOf?_eq_some_iff.2 ⟨rootOf text, [], ?_, SameText.refl true _,
    fun hnil => hne (String.toList_eq_nil_iff.1 hnil),
    fun c hc => contains_nameSet_iff.2 (hname c hc), nofun, List.not_mem_nil⟩
  simp [prefixPath, plainRule]

/-- The folders that are read in paths are the texts of characters of folders and of the letters
beyond ASCII, but for the empty one. Such a folder is a valid name unless it has one of these
letters. -/
theorem folderOf?_name [CharacterNames] (h : IsLiteralPrefix text) :
    ∃ f, ofPrefix text = .ok f ∧ ∀ folder : String,
      ((∃ path, f.folderOf? path = some folder) ↔
        folder ≠ "" ∧ ∀ c ∈ folder.toList, isFolderChar c = true ∨ c ∈ foreignLetters) ∧
      ∀ path, f.folderOf? path = some folder →
        (IsFolder folder ↔ ∀ c ∈ folder.toList, c ∉ foreignLetters) := by
  have hread : ∀ path folder, (plainRule text).folderOf? path = some folder →
      folder ≠ "" ∧ ∀ c ∈ folder.toList, isFolderChar c = true ∨ c ∈ foreignLetters := by
    intro path folder hfolder
    obtain ⟨-, -, -, -, hne, hname, -⟩ := extent_of_folderOf? hfolder
    exact ⟨hne, fun c hc => isNameChar_iff.1 (hname c hc)⟩
  refine ⟨plainRule text, ofPrefix_eq h, fun folder => ⟨⟨?_, ?_⟩, fun path hfolder => ⟨?_, ?_⟩⟩⟩
  · rintro ⟨path, hfolder⟩
    exact hread path folder hfolder
  · rintro ⟨hne, hname⟩
    exact ⟨_, folderOf?_of_name hne fun c hc => isNameChar_iff.2 (hname c hc)⟩
  · intro hvalid c hc
    exact not_mem_foreignLetters (hvalid.2 c hc)
  · intro hascii
    obtain ⟨hne, hname⟩ := hread path folder hfolder
    exact ⟨hne, fun c hc => (hname c hc).resolve_right (hascii c hc)⟩

/-- A folder in a path with capital letters is a valid name. -/
theorem folderOf?_name_chess :
    ∃ f, ofPrefix "clubs/" = .ok f ∧ f.folderOf? "/Clubs/Chess_1.a" = some "Chess_1" ∧
      IsFolder "Chess_1" := by
  have hliteral : IsLiteralPrefix "clubs/" := by decide
  obtain ⟨f, hf, hall⟩ := folderOf?_name hliteral
  obtain rfl : plainRule "clubs/" = f := Except.ok.inj ((ofPrefix_eq hliteral).symm.trans hf)
  have hfolder : (plainRule "clubs/").folderOf? "/Clubs/Chess_1.a" = some "Chess_1" := by
    decide +kernel
  exact ⟨_, hf, hfolder, ((hall "Chess_1").2 _ hfolder).2 (by simp [foreignLetters])⟩

/-- A folder that begins with a long `s` is read, and is no valid name. -/
theorem folderOf?_long_s :
    ∃ f, ofPrefix defaultRoot = .ok f ∧ f.folderOf? "/clubs/ſam" = some "ſam" ∧
      ¬IsFolder "ſam" :=
  ⟨_, ofPrefix_eq (by decide), by decide +kernel, by decide⟩

end SiteRouter.ClubFolders
