import Mathlib.Data.List.DropRight
import SiteRouter.Club
import SiteRouter.Page
import SiteRouter.Proofs.Pattern.Matching
import SiteRouter.Proofs.Pattern.Segment

/-!
# The folder of a club

The rule for club folders is a pattern: the common prefix, a folder and the rest of the path. Where
the prefix has no pattern syntax its steps are known (`ofPrefix_eq`), and on a path that lies in a
folder (`LiesIn`) each of them has one way or a first one: the prefix reads itself, the folder stops
at the first character that cannot stand in one, and the rest reads what is left. So the folder that
is read and stripped is the one that the path lies in, and a path that was put into a folder lies in
it (`folderOf?_prefixPath`, `strip_prefixPath`).
-/

namespace SiteRouter.ClubFolders

open Regex (CharSet Cursor ends endsAll)
open Pattern (Step SameText literalExprs)

/-! ## Folders and prefixes -/

/-- Whether the character may stand in the name of a folder. -/
def isFolderChar (c : Char) : Bool :=
  Regex.isAsciiLetter c || Regex.isAsciiDigit c || c == '_' || c == '-'

/-- The text is a name of a folder: it is not empty and has only characters of such names. -/
def IsFolder (folder : String) : Prop := folder ≠ "" ∧ ∀ c ∈ folder.toList, isFolderChar c = true

instance (folder : String) : Decidable (IsFolder folder) :=
  decidable_of_iff (folder ≠ "" ∧ folder.toList.all isFolderChar = true)
    (and_congr_right fun _ => List.all_eq_true)

/-- Whether the character has no meaning of its own in a pattern or a URL, and is no line feed. -/
def isPrefixChar (c : Char) : Bool := !":*()\\?#\n".toList.contains c

/-- The text can be a prefix that stands for itself. -/
def IsPlainPrefix (text : String) : Prop := ∀ c ∈ text.toList, isPrefixChar c = true

instance (text : String) : Decidable (IsPlainPrefix text) :=
  decidable_of_iff (text.toList.all isPrefixChar = true) List.all_eq_true

/-- The common prefix of the folders that a text asks for. -/
def rootOf (text : String) : List Char := '/' :: trimSlashes text.toList

/-- Nothing is left of a text that has only slashes, and what is left of another one starts with a
character other than the slash. -/
theorem trimSlashes_cases (cs : List Char) :
    (trimSlashes cs = [] ∧ ∀ c ∈ cs, c = '/') ∨
      ∃ c ∈ cs, c ≠ '/' ∧ ∃ rest, trimSlashes cs = c :: rest := by
  have htrim : trimSlashes cs = (cs.dropWhile (· == '/')).rdropWhile (· == '/') := rfl
  have hhead := List.head?_dropWhile_not (· == '/') cs
  cases hdrop : cs.dropWhile (· == '/') with
  | nil =>
    rw [hdrop] at htrim
    exact .inl ⟨htrim, fun c hc => beq_iff_eq.1 (List.dropWhile_eq_nil_iff.1 hdrop c hc)⟩
  | cons c ds =>
    rw [hdrop] at htrim hhead
    have hc : c ≠ '/' := by simpa using hhead
    have hmem : c ∈ cs := (List.dropWhile_sublist _).subset (hdrop ▸ List.mem_cons_self)
    refine .inr ⟨c, hmem, hc, ?_⟩
    cases hkept : (c :: ds).rdropWhile (· == '/') with
    | nil =>
      exact absurd (beq_iff_eq.1 (List.rdropWhile_eq_nil_iff.1 hkept c List.mem_cons_self)) hc
    | cons d rest =>
      obtain ⟨t, ht⟩ := hkept ▸ List.rdropWhile_prefix (· == '/') (c :: ds)
      obtain rfl : d = c := (List.cons.inj ht).1
      exact ⟨rest, htrim.trans hkept⟩

/-- Trimming leaves characters of the text. -/
theorem mem_of_mem_trimSlashes {cs : List Char} {c : Char} (h : c ∈ trimSlashes cs) : c ∈ cs := by
  rw [trimSlashes, List.mem_reverse] at h
  have h := (List.dropWhile_sublist _).subset h
  rw [List.mem_reverse] at h
  exact (List.dropWhile_sublist _).subset h

/-- What holds of a slash and of the characters of a text holds of those of its common prefix. -/
theorem forall_rootOf {text : String} {P : Char → Prop} (hslash : P '/')
    (h : ∀ c ∈ text.toList, P c) : ∀ c ∈ rootOf text, P c :=
  List.forall_mem_cons.2 ⟨hslash, fun c hc => h c (mem_of_mem_trimSlashes hc)⟩

/-- The common prefix of a plain text has its characters and slashes. -/
theorem IsPlainPrefix.root {text : String} (h : IsPlainPrefix text) :
    ∀ c ∈ rootOf text, isPrefixChar c = true :=
  forall_rootOf (by decide) h

/-- The text has no character with a meaning of its own in a pattern. -/
def IsLiteralPrefix (text : String) : Prop := ∀ c ∈ text.toList, c ∉ ":*()\\".toList

instance (text : String) : Decidable (IsLiteralPrefix text) :=
  decidable_of_iff (text.toList.all fun c => decide (c ∉ ":*()\\".toList)) <| by
    simp only [List.all_eq_true, decide_eq_true_eq, IsLiteralPrefix]

/-- A plain prefix is one without pattern syntax. -/
theorem IsPlainPrefix.isLiteral {text : String} (h : IsPlainPrefix text) :
    IsLiteralPrefix text := by
  intro c hc hmem
  have hall : (":*()\\".toList.all fun c => !isPrefixChar c) = true := by decide
  have hnot := List.all_eq_true.1 hall c hmem
  rw [h c hc] at hnot
  cases hnot

/-- A character without a meaning of its own is plain in a pattern, or a slash. -/
theorem isPlain_of_not_mem {c : Char} (h : c ∉ ":*()\\".toList) :
    Pattern.Segment.isPlain c = true ∨ c = '/' := by
  have hchars : "/:*()\\".toList = '/' :: ":*()\\".toList := by decide
  by_cases hslash : c = '/'
  · exact .inr hslash
  · refine .inl ?_
    rw [Pattern.Segment.isPlain, Bool.not_eq_true', Bool.eq_false_iff]
    intro hcontains
    rw [List.contains_iff_mem, hchars, List.mem_cons] at hcontains
    exact hcontains.elim hslash h

/-! ## The pattern of the folders -/

/-- The characters of a folder as a set. -/
def nameSet : CharSet :=
  ⟨false, [.range 'a'.toNat 'z'.toNat, .range 'A'.toNat 'Z'.toNat, .range '0'.toNat '9'.toNat,
    .code '_'.toNat, .code '-'.toNat]⟩

/-- The capture of the folder. -/
def folderCapture : Pattern.Capture :=
  ⟨.named "folder", some '/', .custom "[a-zA-Z0-9_-]+".toList, .once, true⟩

/-- The capture of the rest of the path. -/
def restCapture : Pattern.Capture := ⟨.position 0, none, .custom ".*".toList, .once, false⟩

/-- What a folder may be. -/
def folderExpr : Regex := .repeated (.set nameSet) 1 none .greedy

/-- What the rest may be. -/
def restExpr : Regex := .repeated .any 0 none .greedy

/-- The steps of the pattern. -/
def steps (root : List Char) : List Step :=
  [.literal root, .capture folderCapture folderExpr, .capture restCapture restExpr]

/-- The rule for a prefix without pattern syntax. -/
def plainRule (text : String) : ClubFolders :=
  { root := String.ofList (rootOf text)
    compiled :=
      { source := folderPattern (String.ofList (rootOf text))
        options := ⟨false, false, true⟩
        tokens := (steps (rootOf text)).map Step.token
        steps := steps (rootOf text)
        program := Pattern.program ⟨false, false, true⟩ (steps (rootOf text)) } }

/-- The pattern after the prefix is a folder and the rest. -/
theorem pieces_tail :
    Pattern.pieces "/:folder([a-zA-Z0-9_-]+)(.*)".toList =
      [.capture (some '/') (.parameter "folder".toList (some "[a-zA-Z0-9_-]+".toList)) .once
          (some '('),
        .capture none (.group ".*".toList) .once none] := by
  decide

/-- The pattern of the folders is read as its steps. -/
theorem parse_folderPattern {text : String} (h : IsLiteralPrefix text) :
    Pattern.parse (folderPattern (String.ofList (rootOf text))).toList =
      .ok ((steps (rootOf text)).map Step.token) := by
  have hchars : ∀ c ∈ rootOf text, c ∉ ":*()\\".toList := forall_rootOf (by decide) h
  have hplain : ∀ c ∈ rootOf text, Pattern.Segment.isPlain c = true ∨ c = '/' :=
    fun c hc => isPlain_of_not_mem (hchars c hc)
  have hbare : ∀ c ∈ rootOf text, c ≠ '(' ∧ c ≠ ')' := by
    intro c hc
    refine ⟨?_, ?_⟩ <;> rintro rfl <;> exact absurd (by decide) (hchars _ hc)
  have htail : Pattern.NoCapture "/:folder([a-zA-Z0-9_-]+)(.*)".toList := by
    rintro c ⟨⟩
    decide
  rw [folderPattern, String.toList_append, String.toList_ofList, Pattern.parse,
    Pattern.pieces_plain hplain htail, Pattern.Reader.readAll_plain hbare, pieces_tail]
  -- The prefix is the literal that the first capture ends.
  obtain ⟨c, cs, hcs⟩ := List.exists_cons_of_ne_nil (l := (rootOf text).reverse) (by simp [rootOf])
  have hroot : rootOf text = (c :: cs).reverse := by rw [← hcs, List.reverse_reverse]
  have hstart : Pattern.Reader.start.pending = [] := rfl
  rw [hroot, List.reverse_reverse, hstart, List.append_nil]
  rfl

/-- The rule for a prefix without pattern syntax is the one with these steps. -/
theorem ofPrefix_eq [CharacterNames] {text : String} (h : IsLiteralPrefix text) :
    ofPrefix text = .ok (plainRule text) := by
  have hplus : ∀ cs, Regex.readLexeme '+' cs = Regex.readCount 1 none 0 cs := fun _ => rfl
  have hset : Regex.Closed "[a-zA-Z0-9_-]".toList 0 fun _ => .set nameSet :=
    .of_lexeme (.cons (by decide) _) fun rest => rfl
  have hany : Regex.Closed ['.'] 0 fun _ => .any :=
    .of_lexeme (.cons (by decide) _) fun rest => rfl
  have hfolder : folderCapture.segmentExpression
      = ['(', '?', ':'] ++ ("[a-zA-Z0-9_-]".toList ++ ['+'] ++ [')']) := by decide
  have hrest : restCapture.segmentExpression
      = ['(', '?', ':'] ++ (['.'] ++ ['*'] ++ [')']) := by decide
  have hvalid : ∀ s ∈ steps (rootOf text), s.Valid := by
    refine List.forall_mem_cons.2 ⟨⟨trivial, nofun⟩, List.forall_mem_cons.2
      ⟨⟨?_, nofun⟩, List.forall_mem_singleton.2 ⟨?_, nofun⟩⟩⟩
    · rw [Step.Stands, hfolder]
      exact (hset.counted hplus).body.plain
    · rw [Step.Stands, hrest]
      exact (hany.counted Pattern.readLexeme_star).body.plain
  have hcompile : Pattern.compile (folderPattern (String.ofList (rootOf text)))
      ⟨false, false, true⟩ = .ok (plainRule text).compiled :=
    Pattern.compile_eq _ _ (parse_folderPattern h) hvalid
  rw [rootOf] at hcompile
  rw [ofPrefix, hcompile]
  rfl

/-! ## What a path in a folder is read as -/

/-- Characters of folders are ASCII characters. -/
theorem lt_of_isFolderChar {c : Char} (h : isFolderChar c = true) : c.toNat < 0x80 := by
  simp only [isFolderChar, Regex.isAsciiLetter, Regex.isAsciiDigit, Bool.or_eq_true,
    Bool.and_eq_true, decide_eq_true_eq, beq_iff_eq] at h
  have hle : ∀ d : Char, c ≤ d → c.toNat ≤ d.toNat := fun d hd => hd
  rcases h with (((⟨-, h⟩ | ⟨-, h⟩) | ⟨-, h⟩) | rfl) | rfl
  · exact Nat.lt_of_le_of_lt (hle _ h) (by decide)
  · exact Nat.lt_of_le_of_lt (hle _ h) (by decide)
  · exact Nat.lt_of_le_of_lt (hle _ h) (by decide)
  · decide
  · decide

/-- Characters of folders are in the set. -/
theorem contains_nameSet {c : Char} (h : isFolderChar c = true) :
    nameSet.contains true c = true := by
  have hall : ∀ n < 0x80, isFolderChar (Char.ofNat n) = true →
      nameSet.contains true (Char.ofNat n) = true := by
    decide +kernel
  have hc := hall c.toNat (lt_of_isFolderChar h)
  rw [Char.ofNat_toNat] at hc
  exact hc h

/-- The path is a prefix, a slash, a folder and a rest. -/
structure LiesIn (text path : String) (before folder rest : List Char) : Prop where
  /-- The parts make up the path. -/
  path_eq : path.toList = before ++ '/' :: (folder ++ rest)
  /-- The first part is the common prefix but for case. -/
  root : SameText true (rootOf text) before
  /-- The folder has a name. -/
  ne_nil : folder ≠ []
  /-- The name has characters of folders only, whatever their case. -/
  name : ∀ x ∈ folder, nameSet.contains true x = true
  /-- The name is as long as it can be. -/
  longest : ∀ x, rest.head? = some x → nameSet.contains true x = false
  /-- The rest is on one line. -/
  line : '\n' ∉ rest

namespace LiesIn

variable {text path : String} {before folder rest : List Char}

/-- The groups of a path in a folder are the folder and the rest, however the prefix is written. -/
theorem groups?_eq (h : LiesIn text path before folder rest) :
    (plainRule text).compiled.groups? path
      = some [some (String.ofList folder), some (String.ofList rest)] := by
  -- The lead of the folder is read together with the prefix.
  have hsteps : Pattern.stepExprs 0
      (Pattern.matchedSteps ⟨false, false, true⟩ (steps (rootOf text))) =
      literalExprs (rootOf text ++ ['/']) ++ [.group 1 folderExpr, .group 2 restExpr] := by
    rw [literalExprs, List.map_append, List.append_assoc]
    rfl
  have hroot : SameText true (rootOf text ++ ['/']) (before ++ ['/']) :=
    List.rel_append h.root (SameText.refl true ['/'])
  have hstart : (Cursor.atStart path.toList).rest = (before ++ ['/']) ++ (folder ++ rest) := by
    rw [List.append_assoc]
    exact h.path_eq
  -- The places after the prefix, the folder and the rest.
  let c₁ := (Cursor.atStart path.toList).reading (before ++ ['/']) (folder ++ rest)
  let c₂ := Pattern.recorded (c₁.reading folder rest) 1 (some folder)
  let c₃ := Pattern.recorded (c₂.reading rest []) 2 (some rest)
  have h₁ : (endsAll true (literalExprs (rootOf text ++ ['/'])) (.atStart path.toList)).head?
      = some c₁ := Pattern.head?_literalExprs true hroot hstart
  have h₂ : (ends true (.group 1 folderExpr) c₁).head? = some c₂ := by
    have hrun : (ends true folderExpr c₁).head? = some (c₁.reading folder rest) :=
      Regex.head?_repeated_one h.name h.longest (List.length_pos_iff.2 h.ne_nil) rfl
    exact Pattern.head?_group true rfl hrun 1
  have h₃ : (ends true (.group 2 restExpr) c₂).head? = some c₃ := by
    have hany : ∀ x ∈ rest, (x != '\n') = true :=
      fun x hx => bne_iff_ne.2 (ne_of_mem_of_not_mem hx h.line)
    have hend : ∀ x, ([] : List Char).head? = some x → (x != '\n') = false := by
      rintro x ⟨⟩
    have hall : c₂.rest = rest ++ [] := (List.append_nil rest).symm
    have hrun : (ends true restExpr c₂).head? = some (c₂.reading rest []) :=
      Regex.head?_repeated_one hany hend (Nat.zero_le _) hall
    exact Pattern.head?_group true hall hrun 2
  have hmatch : (plainRule text).compiled.program.expr.matchStart true path.toList = some c₃ := by
    rw [Regex.matchStart_eq_head?]
    show (ends true (Pattern.program _ _).expr _).head? = _
    rw [Pattern.ends_program, hsteps, Regex.endsAll_append]
    refine Regex.head?_flatMap (Regex.head?_flatMap h₁ (Regex.head?_flatMap h₂ ?_))
      (Pattern.head?_endExprs true _ _ rfl)
    rw [Regex.endsAll_singleton]
    exact h₃
  have hgroups : c₃.groups 2 = [some folder, some rest] := by
    simp [c₃, c₂, c₁, Pattern.recorded, Cursor.groups, Cursor.group?, Regex.Span.chars,
      List.range_succ, List.lookup_cons, Cursor.atStart]
  rw [Pattern.Compiled.groups?]
  show ((plainRule text).compiled.program.expr.matchStart true path.toList).map
    (fun c => (c.groups 2).map (·.map String.ofList)) = _
  rw [hmatch, Option.map_some, hgroups]
  rfl

/-- The folder that a path lies in is read. -/
theorem folderOf?_eq (h : LiesIn text path before folder rest) :
    (plainRule text).folderOf? path = some (String.ofList folder) := by
  rw [folderOf?, h.groups?_eq]
  rfl

/-- What is left of a path in a folder is the rest, with a slash at its start. -/
theorem toList_strip (h : LiesIn text path before folder rest) :
    ((plainRule text).strip path).toList = Page.withSlash rest := by
  have hlength : (plainRule text).root.length + 1 + (String.ofList folder).length =
      (before ++ '/' :: folder).length := by
    have hroot : (plainRule text).root.length = before.length := by
      rw [← h.root.length_eq, plainRule, String.length_ofList]
    rw [hroot, String.length_ofList, List.length_append, List.length_cons]
    omega
  have hdrop : path.toList.drop
      ((plainRule text).root.length + 1 + (String.ofList folder).length) = rest := by
    have hpath : path.toList = (before ++ '/' :: folder) ++ rest := by
      rw [h.path_eq, List.append_assoc, List.cons_append]
    rw [hlength, hpath, List.drop_left]
  rw [strip, h.folderOf?_eq]
  dsimp only
  rw [hdrop, String.toList_ofList]
  rfl

end LiesIn

/-- A path outside the folders is not changed. -/
theorem strip_of_folderOf?_eq_none {f : ClubFolders} {path : String}
    (h : f.folderOf? path = none) : f.strip path = path := by
  unfold strip
  rw [h]

/-! ## Putting a path into a folder -/

/-- A path with a slash at its start, put into a folder, lies there and is the rest. -/
theorem liesIn_prefixPath {text folder path : String} (hfolder : IsFolder folder)
    (hslash : path.toList.head? = some '/') (hline : '\n' ∉ path.toList) :
    LiesIn text ((plainRule text).prefixPath folder path) (rootOf text) folder.toList
      path.toList where
  path_eq := by simp [prefixPath, plainRule]
  root := SameText.refl true _
  ne_nil := fun hnil => hfolder.1 (String.toList_eq_nil_iff.1 hnil)
  name := fun x hx => contains_nameSet (hfolder.2 x hx)
  longest := by
    intro x hx
    obtain rfl : '/' = x := Option.some.inj (hslash.symm.trans hx)
    decide +kernel
  line := hline

/-- The folder of a path that was put into one. -/
theorem folderOf?_prefixPath {text folder path : String} (hfolder : IsFolder folder)
    (hslash : path.toList.head? = some '/') (hline : '\n' ∉ path.toList) :
    (plainRule text).folderOf? ((plainRule text).prefixPath folder path) = some folder := by
  rw [(liesIn_prefixPath hfolder hslash hline).folderOf?_eq, String.ofList_toList]

/-- Stripping the folder undoes putting a path into it. -/
theorem strip_prefixPath {text folder path : String} (hfolder : IsFolder folder)
    (hslash : path.toList.head? = some '/') (hline : '\n' ∉ path.toList) :
    (plainRule text).strip ((plainRule text).prefixPath folder path) = path := by
  rw [← String.toList_inj, (liesIn_prefixPath hfolder hslash hline).toList_strip, Page.withSlash,
    if_pos hslash]

end SiteRouter.ClubFolders
