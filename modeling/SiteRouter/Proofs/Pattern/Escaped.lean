import SiteRouter.Proofs.Pattern.Default
import SiteRouter.Proofs.Pattern.Segment
import SiteRouter.Proofs.Pattern.Writing
import SiteRouter.Text.BasicLatin

/-!
# Texts behind backslashes

A backslash takes its meaning from the character behind it. A text with a backslash before each of
its characters is therefore read as one literal (`parse_backslashed`), and since a literal is escaped
once more in the expression of the pattern, what is compiled writes this text and, where neither
case nor a slash at the end may differ, matches it alone (`compile_backslashed`).
-/

namespace SiteRouter.Pattern

/-- The text with a backslash before each character. -/
def backslashed (cs : List Char) : List Char := cs.flatMap fun c => ['\\', c]

/-- A character behind a backslash is a piece of its own, unless it is a line feed. -/
theorem readPiece_backslash {c : Char} (h : c ≠ '\n') (cs : List Char) :
    readPiece '\\' (c :: cs) = (.escaped c, 1) := by
  unfold readPiece
  rw [if_pos rfl]
  exact if_neg h

/-- Characters behind backslashes are read one by one, whatever follows them. -/
theorem pieces_backslashed {cs : List Char} (h : '\n' ∉ cs) (rest : List Char) :
    pieces (backslashed cs ++ rest) = cs.map Piece.escaped ++ pieces rest := by
  induction cs with
  | nil => rfl
  | cons c cs ih =>
    rw [List.mem_cons, not_or] at h
    have hpiece := readPiece_backslash (Ne.symm h.1) (backslashed cs ++ rest)
    show pieces ('\\' :: c :: (backslashed cs ++ rest)) = _
    rw [pieces_cons, hpiece]
    show Piece.escaped c :: pieces (backslashed cs ++ rest) = _
    rw [ih h.2]
    rfl

/-- Characters behind backslashes are added to the literal. -/
theorem Reader.readAll_escaped (cs : List Char) (r : Reader) :
    r.readAll (cs.map Piece.escaped) = .ok { r with pending := cs.reverse ++ r.pending } := by
  induction cs generalizing r with
  | nil => rfl
  | cons c cs ih =>
    have hread : r.readAll ((c :: cs).map Piece.escaped) =
        { r with pending := c :: r.pending }.readAll (cs.map Piece.escaped) := rfl
    rw [hread, ih, List.reverse_cons, List.append_assoc, List.singleton_append]

/-- A text behind backslashes is read as one literal. -/
theorem parse_backslashed {cs : List Char} (hne : cs ≠ []) (h : '\n' ∉ cs) :
    parse (backslashed cs) = .ok [.literal cs] := by
  have hpieces : pieces (backslashed cs) = cs.map Piece.escaped := by
    have hall := pieces_backslashed h []
    rwa [List.append_nil, show pieces [] = [] from rfl, List.append_nil] at hall
  have hflush : Reader.flush { Reader.start with pending := cs.reverse ++ [] } = [.literal cs] := by
    unfold Reader.flush
    simp [hne, Reader.start]
  rw [parse, hpieces, Reader.readAll_escaped]
  exact congrArg (fun ts => Except.ok (List.reverse ts)) hflush

/-! ## Patterns that are one text -/

/-- Where case counts, only the text itself is the same as it. -/
theorem sameText_sensitive {t w : List Char} : SameText false t w ↔ w = t := by
  constructor
  · intro h
    induction h with
    | nil => rfl
    | cons hx _ ih => rw [Char.toNat_inj.1 (eq_of_beq hx), ih]
  · rintro rfl
    exact .refl false w

/-- The token of a text has no sub-pattern. -/
theorem isDefault_literal {cs : List Char} (h : cs ≠ []) :
    ∀ t ∈ [Token.literal cs], t.IsDefault := List.forall_mem_singleton.2 h

/-- A text is written as it is. -/
theorem toPath_literal (pattern : String) (o : Options) (s : String) (params : Mapping) :
    (compiledDefault pattern o [.literal s.toList]).toPath params = .ok s := by
  rw [Compiled.toPath_eq_ok]
  show Compiled.writeSteps _ params [.literal s.toList] = _
  rw [Compiled.writeSteps_literal_eq_ok]
  exact ⟨[], rfl, (List.append_nil _).symm⟩

/-- Where case and a slash at the end count, a text matches itself and nothing else. -/
theorem groups?_literal {cs : List Char} (h : cs ≠ []) (pattern : String) {path : String}
    {gs : List (Option String)} :
    (compiledDefault pattern ⟨true, true, true⟩ [.literal cs]).groups? path = some gs ↔
      path.toList = cs ∧ gs = [] := by
  have hfaithful := faithful_compiledDefault pattern ⟨true, true, true⟩ (isDefault_literal h)
  have hsound : ∀ {gs}, (compiledDefault pattern ⟨true, true, true⟩ [.literal cs]).groups? path =
      some gs → path.toList = cs ∧ gs = [] := by
    intro gs hgs
    obtain ⟨w, rest, vs, hpath, hw, hrest, rfl⟩ := hfaithful.groups?_sound hgs
    obtain ⟨hsame, rfl⟩ := derives_literal_alone.1 hw
    obtain rfl : rest = [] := hrest.elim id fun hslash => absurd hslash.1 nofun
    rw [hpath, List.append_nil, sameText_sensitive.1 hsame]
    exact ⟨rfl, rfl⟩
  refine ⟨hsound, ?_⟩
  rintro ⟨hpath, rfl⟩
  have hw : Derives false [.literal cs] cs [] := derives_literal_alone.2 ⟨.refl false cs, rfl⟩
  have hmatched := hfaithful.groups?_complete (hpath.trans (List.append_nil cs).symm) hw (.inl rfl)
  obtain ⟨gs, hgs⟩ := Option.isSome_iff_exists.1 hmatched
  rw [hgs, (hsound hgs).2]

/-- A text with a backslash before each character is a pattern without captures whose only token is
the text. It writes the text whatever the parameters are and, where case and a slash at the end
count, matches the text and nothing else. -/
theorem compile_backslashed [CharacterNames] {s : String} (hne : s ≠ "") (hline : '\n' ∉ s.toList) :
    parse (backslashed s.toList) = .ok [.literal s.toList] ∧
      ∀ o, ∃ p, compile (String.ofList (backslashed s.toList)) o = .ok p ∧
        p.tokens = [.literal s.toList] ∧ p.captures = [] ∧ (∀ params, p.toPath params = .ok s) ∧
        (o = ⟨true, true, true⟩ →
          ∀ path gs, p.groups? path = some gs ↔ path = s ∧ gs = []) := by
  have hchars : s.toList ≠ [] := fun hnil => hne (String.toList_eq_nil_iff.1 hnil)
  have hparse := parse_backslashed hchars hline
  refine ⟨hparse, fun o => ?_⟩
  have hread : parse (String.ofList (backslashed s.toList)).toList = .ok [.literal s.toList] := by
    rwa [String.toList_ofList]
  refine ⟨_, compile_default o hread (isDefault_literal hchars), rfl, rfl, toPath_literal _ o s, ?_⟩
  rintro rfl path gs
  rw [groups?_literal hchars, String.toList_inj]

/-- Nothing in `/a:b(c)*\.+?` has a meaning behind a backslash. -/
theorem compile_backslashed_marks :
    ∃ p, compile "\\/\\a\\:\\b\\(\\c\\)\\*\\\\\\.\\+\\?" ⟨true, true, true⟩ = .ok p ∧
      p.toPath [(.str "b", .int 1)] = .ok "/a:b(c)*\\.+?" ∧
      p.groups? "/a:b(c)*\\.+?" = some [] ∧ p.groups? "/A:b(c)*\\.+?" = none := by
  obtain ⟨-, hcompile⟩ := compile_backslashed (s := "/a:b(c)*\\.+?") (by decide) (by decide)
  obtain ⟨p, hp, -, -, hpath, hgroups⟩ := hcompile ⟨true, true, true⟩
  refine ⟨p, hp, hpath _, (hgroups rfl _ _).2 ⟨rfl, rfl⟩, ?_⟩
  rw [Option.eq_none_iff_forall_ne_some]
  intro gs hgs
  exact absurd ((hgroups rfl _ gs).1 hgs).1 (by decide)

end SiteRouter.Pattern
