import Mathlib.Data.List.TakeWhile
import SiteRouter.Proofs.Club.Folder
import SiteRouter.Proofs.Page
import SiteRouter.Text.BasicLatin

/-!
# Paths without their folder

A folder is read in a path exactly if the path lies in it (`folderOf?_eq_some_iff`): no other match
of the pattern comes first. Stripping the folder leaves the rest of the path, with a slash at its
start if there was none. Slashes that stood at the start of the rest stay, so the path that is left
starts with two where the rest does (`strip_rest`).
-/

namespace SiteRouter.ClubFolders

open Pattern (SameText)

variable {text path : String} {before folder rest : List Char}

/-! ## Where a folder is read -/

/-- The pattern of the rule stands for its steps. -/
theorem faithful_plainRule (text : String) : (plainRule text).compiled.Faithful where
  tokens := rfl
  program := rfl
  regular := by
    have hlead : ∀ x, folderCapture.lead = some x → x.toNat < Text.firstLetter := by
      rintro x ⟨⟩
      decide
    refine List.forall_mem_cons.2 ⟨trivial, List.forall_mem_cons.2
      ⟨⟨⟨trivial, nofun, nofun⟩, hlead⟩, List.forall_mem_singleton.2
        ⟨⟨trivial, nofun, nofun⟩, nofun⟩⟩⟩

/-- A name that is followed by more of its kind is part of a longer one. -/
theorem exists_liesIn {tail : List Char} (hpath : path.toList = before ++ '/' :: (folder ++ tail))
    (hroot : SameText true (rootOf text) before) (hne : folder ≠ [])
    (hname : ∀ x ∈ folder, nameSet.contains true x = true) (hline : '\n' ∉ tail) :
    ∃ longer rest, LiesIn text path before longer rest := by
  let inName : Char → Bool := nameSet.contains true
  have hsplit : tail.takeWhile inName ++ tail.dropWhile inName = tail :=
    List.takeWhile_append_dropWhile
  refine ⟨folder ++ tail.takeWhile inName, tail.dropWhile inName, ?_, hroot,
    List.append_ne_nil_of_left_ne_nil hne _, ?_, fun x hx => ?_, ?_⟩
  · rw [hpath, List.append_assoc, hsplit]
  · exact List.forall_mem_append.2 ⟨hname, fun x hx => List.mem_takeWhile_imp hx⟩
  · have hstop := List.head?_dropWhile_not inName tail
    rwa [hx] at hstop
  · exact fun hmem => hline ((List.dropWhile_sublist inName).subset hmem)

/-- A path in which a folder is read lies in one. -/
theorem exists_liesIn_of_folderOf? {name : String}
    (h : (plainRule text).folderOf? path = some name) :
    ∃ before folder rest, LiesIn text path before folder rest := by
  obtain ⟨gs, hgs, -⟩ := Option.bind_eq_some_iff.1 h
  obtain ⟨w, left, vs, hpath, hw, hleft, -⟩ := (faithful_plainRule text).groups?_sound hgs
  have hsteps : Pattern.matchedSteps (plainRule text).compiled.options
      (plainRule text).compiled.steps = steps (rootOf text) := rfl
  rw [hsteps] at hw
  -- The steps take the prefix, the slash with the folder, and the rest.
  cases hw with
  | @literal _ u _ _ _ hu hw =>
  cases hw with
  | capture hfolder hw =>
  cases hw with
  | capture hrest hw =>
  cases hw
  obtain ⟨v, rfl, -, hv⟩ := (Pattern.Capture.takes_once_iff rfl).1 hfolder
  obtain ⟨r, hlead, -, hr⟩ := (Pattern.Capture.takes_once_iff rfl).1 hrest
  obtain ⟨hlength, hname⟩ := (Regex.repeats_one (nameSet.contains true) 1 v).1 hv
  obtain ⟨-, hany⟩ := (Regex.repeats_one (· != '\n') 0 r).1 hr
  have hline : '\n' ∉ r ++ left := by
    rw [List.mem_append, not_or]
    refine ⟨fun hmem => absurd (hany _ hmem) (by decide), ?_⟩
    rcases (Pattern.endsAt_toEnd rfl).1 hleft with rfl | ⟨-, rfl⟩ <;> decide
  have hparts : path.toList = u ++ '/' :: (v ++ (r ++ left)) := by
    rw [hpath, hlead, List.append_nil, List.append_assoc, List.append_assoc, List.append_assoc]
    rfl
  obtain ⟨longer, rest, hlies⟩ :=
    exists_liesIn hparts hu (List.length_pos_iff.1 hlength) hname hline
  exact ⟨u, longer, rest, hlies⟩

/-- A folder is read in a path exactly if the path lies in it. -/
theorem folderOf?_eq_some_iff {name : String} :
    (plainRule text).folderOf? path = some name ↔
      ∃ before rest, LiesIn text path before name.toList rest := by
  constructor
  · intro h
    obtain ⟨before, folder, rest, hlies⟩ := exists_liesIn_of_folderOf? h
    obtain rfl : String.ofList folder = name := Option.some.inj (hlies.folderOf?_eq.symm.trans h)
    rw [← String.toList_ofList (l := folder)] at hlies
    exact ⟨before, rest, hlies⟩
  · rintro ⟨before, rest, hlies⟩
    rw [hlies.folderOf?_eq, String.ofList_toList]

/-! ## Stripping the folder -/

/-- Where a folder is read in a path, the path is the common prefix in any case, the folder and a
rest, and stripping leaves the rest with a slash at its start, put there only if there was none. The
path that is left starts with two slashes exactly if the rest does. -/
theorem strip_rest [CharacterNames] (h : IsLiteralPrefix text) :
    ∃ f, ofPrefix text = .ok f ∧ ∀ (path folder : String), f.folderOf? path = some folder →
      ∃ before rest, LiesIn text path before folder.toList rest ∧
        (f.strip path).toList = (if rest.head? = some '/' then rest else '/' :: rest) ∧
        (f.strip path).toList.head? = some '/' ∧
        (['/', '/'] <+: (f.strip path).toList ↔ ['/', '/'] <+: rest) := by
  refine ⟨plainRule text, ofPrefix_eq h, fun path folder hfolder => ?_⟩
  obtain ⟨before, rest, hlies⟩ := folderOf?_eq_some_iff.1 hfolder
  have hstrip := hlies.toList_strip
  refine ⟨before, rest, hlies, hstrip, ?_, ?_⟩
  · rw [hstrip]
    exact Page.head?_withSlash rest
  · rw [hstrip]
    exact Page.doubled_withSlash_iff

/-- The prefix may be written in another case, and the folder ends before a point, which gets a slash
before it. Two slashes further on do not matter. -/
theorem strip_rest_chess :
    ∃ f, ofPrefix "clubs/" = .ok f ∧ f.folderOf? "/Clubs/chess-1.a//b" = some "chess-1" ∧
      f.strip "/Clubs/chess-1.a//b" = "/.a//b" ∧
      (f.strip "/Clubs/chess-1.a//b").toList.head? = some '/' ∧
      ¬['/', '/'] <+: (f.strip "/Clubs/chess-1.a//b").toList := by
  have hliteral : IsLiteralPrefix "clubs/" := by decide
  obtain ⟨f, hf, hall⟩ := strip_rest hliteral
  obtain rfl : plainRule "clubs/" = f := Except.ok.inj ((ofPrefix_eq hliteral).symm.trans hf)
  have hfolder : (plainRule "clubs/").folderOf? "/Clubs/chess-1.a//b" = some "chess-1" := by
    decide +kernel
  obtain ⟨before, rest, hlies, hstrip, hhead, hdoubled⟩ := hall _ _ hfolder
  -- The prefix has six characters, so the rest is what stands behind the folder.
  have hpath : "/Clubs".toList ++ '/' :: ("chess-1".toList ++ ".a//b".toList) =
      before ++ '/' :: ("chess-1".toList ++ rest) := hlies.path_eq
  have hlength : "/Clubs".toList.length = before.length := hlies.root.length_eq
  obtain ⟨-, hbehind⟩ := List.append_inj hpath hlength
  obtain rfl : ".a//b".toList = rest := List.append_cancel_left (List.cons.inj hbehind).2
  refine ⟨_, hf, hfolder, ?_, hhead, fun h => absurd (hdoubled.1 h) (by decide)⟩
  rw [← String.toList_inj, hstrip]
  rfl

/-- Two slashes behind the folder stay, and the path that is left starts with both. -/
theorem strip_doubled :
    ∃ f, ofPrefix defaultRoot = .ok f ∧ f.folderOf? "/clubs/x//a" = some "x" ∧
      f.strip "/clubs/x//a" = "//a" ∧ ['/', '/'] <+: (f.strip "/clubs/x//a").toList := by
  have hstrip : (plainRule defaultRoot).strip "/clubs/x//a" = "//a" := by decide +kernel
  refine ⟨_, ofPrefix_eq (by decide), by decide +kernel, hstrip, ?_⟩
  rw [hstrip]
  decide

end SiteRouter.ClubFolders
