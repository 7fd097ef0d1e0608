import SiteRouter.Proofs.Except
import SiteRouter.Proofs.Regex.Enclosed

/-!
# Oversized numbers

A repetition count between braces may be too long or too large to be taken, and so may the number of
an escaped character. Of all that can be wrong with an expression these faults alone are told apart.
The builder adds none of its own: the expression is refused for the first lexeme that is a fault
(`exists_fault_of_readAll`). A count is at fault only where the braces with their digits stand in
the text (`hasOversizedCount_of_mem_lexemes`), as only the reader of braces fails in this way.
-/

namespace SiteRouter.Regex

/-- The faults of a count that is too long or too large. -/
def SyntaxFault.IsOversizedCount (f : SyntaxFault) : Prop := f = .countTooLong ∨ f = .countTooLarge

/-- The faults of a number that is too long or too large. -/
def SyntaxFault.IsOversized (f : SyntaxFault) : Prop := f = .codeTooLarge ∨ f.IsOversizedCount

instance : DecidablePred SyntaxFault.IsOversizedCount :=
  fun f => inferInstanceAs (Decidable (f = .countTooLong ∨ f = .countTooLarge))

instance : DecidablePred SyntaxFault.IsOversized :=
  fun f => inferInstanceAs (Decidable (f = .codeTooLarge ∨ f.IsOversizedCount))

/-- The digits are too many, or their number is too large. -/
def Oversized (digits : List Char) : Prop :=
  4300 < digits.length ∨ 4294967295 ≤ numberIn 10 digits

/-- Braces around a count, or around a least and a greatest one, that is oversized. -/
inductive IsOversizedCount : List Char → Prop
  /-- As in `{n}`. -/
  | one {digits : List Char} : (∀ c ∈ digits, isAsciiDigit c = true) → Oversized digits →
      IsOversizedCount ('{' :: (digits ++ ['}']))
  /-- As in `{n,m}`. -/
  | two {lo hi : List Char} : (∀ c ∈ lo, isAsciiDigit c = true) →
      (∀ c ∈ hi, isAsciiDigit c = true) → Oversized lo ∨ Oversized hi →
      IsOversizedCount ('{' :: (lo ++ ',' :: (hi ++ ['}'])))

/-- Somewhere in the text stands an oversized count. -/
def HasOversizedCount (cs : List Char) : Prop := ∃ u, IsOversizedCount u ∧ u <:+: cs

/-! ## Which faults a reader has -/

/-- The reading is a fault. -/
def Reading.Fails (r : Reading) (f : SyntaxFault) : Prop := r.1 = some (.fault f)

theorem readNumber_fails {d : Char} {ds : List Char} {f : SyntaxFault}
    (h : (readNumber d ds).Fails f) : f = .badEscape := by
  unfold readNumber at h
  split at h
  · split at h
    · dsimp only at h
      split at h <;> cases h
      rfl
    · split at h <;> cases h
  · split at h <;> cases h
  · cases h

theorem fixedCode_eq_error {width : Nat} {cs : List Char} {f : SyntaxFault}
    (h : fixedCode width cs = .error f) : f = .badEscape := by
  unfold fixedCode at h
  split at h
  · cases h
  · cases h
    rfl

theorem longCode_eq_error {cs : List Char} {f : SyntaxFault} (h : longCode cs = .error f) :
    f = .badEscape ∨ (f = .codeTooLarge ∧ ∃ n, fixedHex? 8 cs = some n ∧ 2147483648 ≤ n) := by
  obtain hcode | ⟨⟨n, digits⟩, hcode, h⟩ := bind_eq_error.1 h
  · exact .inl (fixedCode_eq_error hcode)
  · have hn : fixedHex? 8 cs = some n := by
      unfold fixedCode at hcode
      split at hcode
      · next heq =>
        cases hcode
        exact heq
      · cases hcode
    dsimp only at h
    split at h
    · cases h
    · split at h
      · cases h
        exact .inl rfl
      · next hlarge =>
        cases h
        exact .inr ⟨rfl, n, hn, Nat.le_of_not_lt hlarge⟩

theorem namedCode_eq_error [CharacterNames] {cs : List Char} {f : SyntaxFault}
    (h : namedCode cs = .error f) :
    f = .badEscape := by
  unfold namedCode at h
  split at h
  · dsimp only at h
    split at h
    · split at h
      · cases h
      · cases h
        rfl
    · cases h
      rfl
  · cases h
    rfl

/-- An escaped number is too large only behind the letter for eight digits. -/
theorem codeEscape_eq_error [CharacterNames] {letter : Char} {cs : List Char} {f : SyntaxFault}
    (h : codeEscape letter cs = .error f) : f = .badEscape ∨
      (f = .codeTooLarge ∧ letter = 'U' ∧ ∃ n, fixedHex? 8 cs = some n ∧ 2147483648 ≤ n) := by
  unfold codeEscape at h
  split at h
  · exact .inl (fixedCode_eq_error h)
  · exact .inl (fixedCode_eq_error h)
  · exact (longCode_eq_error h).imp_right fun ⟨hf, hn⟩ => ⟨hf, rfl, hn⟩
  · exact .inl (namedCode_eq_error h)

theorem readEscape_fails [CharacterNames] {cs : List Char} {f : SyntaxFault}
    (h : (readEscape cs).Fails f) :
    f = .badEscape ∨ (f = .codeTooLarge ∧ ∃ ds n,
      cs = 'U' :: ds ∧ fixedHex? 8 ds = some n ∧ 2147483648 ≤ n) := by
  unfold readEscape at h
  split at h
  · cases h
    exact .inl rfl
  · split at h
    · cases h
    · cases h
    · cases h
    · split at h
      · split at h
        · cases h
        · next hcode =>
          cases h
          refine (codeEscape_eq_error hcode).imp_right ?_
          rintro ⟨hf, rfl, n, hn⟩
          exact ⟨hf, _, n, rfl, hn⟩
      · split at h
        · cases h
        · split at h
          · exact .inl (readNumber_fails h)
          · split at h <;> cases h
            exact .inl rfl

theorem SetAtom.ofEscape_eq_error [CharacterNames] {cs : List Char} {f : SyntaxFault}
    (h : SetAtom.ofEscape cs = .error f) : f = .badEscape ∨ (f = .codeTooLarge ∧ ∃ ds n,
      cs = 'U' :: ds ∧ fixedHex? 8 ds = some n ∧ 2147483648 ≤ n) := by
  unfold SetAtom.ofEscape at h
  split at h
  · cases h
    exact .inl rfl
  · split at h
    · cases h
    · cases h
    · split at h
      · cases h
      · split at h
        · refine (codeEscape_eq_error (map_eq_error.1 h)).imp_right ?_
          rintro ⟨hf, rfl, n, hn⟩
          exact ⟨hf, _, n, rfl, hn⟩
        · split at h
          · dsimp only at h
            split at h <;> cases h
            exact .inl rfl
          · split at h <;> cases h
            exact .inl rfl

/-- A set is without an end, or one of its escapes is at fault. -/
theorem SetAtom.read_eq_error [CharacterNames] {first : Bool} {skip : Nat} {cs : List Char}
    {f : SyntaxFault}
    (h : (SetAtom.read first skip cs).2 = .error f) :
    f = .unterminatedSet ∨ f = .badEscape ∨ f = .codeTooLarge := by
  induction cs generalizing first skip with
  | nil =>
    cases h
    exact .inl rfl
  | cons c cs ih =>
    cases skip with
    | succ skip => exact ih (map_eq_error.1 h)
    | zero =>
      rw [SetAtom.read] at h
      split at h
      · cases h
      · split at h
        · split at h
          · next hescape =>
            cases h
            exact .inr ((SetAtom.ofEscape_eq_error hescape).imp_right And.left)
          · exact ih (map_eq_error.1 h)
        · exact ih (map_eq_error.1 h)

theorem SetAtom.items_eq_error {atoms : List SetAtom} {f : SyntaxFault}
    (h : SetAtom.items atoms = .error f) : f = .badRange := by
  induction atoms using SetAtom.items.induct with
  | case1 a b rest lo hi hlo hhi hle ih =>
    simp only [SetAtom.items, hlo, hhi, hle, if_true] at h
    exact ih (map_eq_error.1 h)
  | case2 a b rest lo hi hlo hhi hle =>
    simp only [SetAtom.items, hlo, hhi, hle, if_false] at h
    cases h
    rfl
  | case3 a b rest hnone =>
    rw [SetAtom.items] at h
    split at h
    · next lo hi hlo hhi => exact absurd hhi (hnone lo hi hlo)
    · cases h
      rfl
  | case4 a rest hdash ih =>
    rw [SetAtom.items] at h
    · exact ih (map_eq_error.1 h)
    · exact hdash
  | case5 => cases h

/-- A set fails for one of its ranges, or as its atoms do. -/
theorem setReading_fails {negated : Bool} {read : List SetAtom × Except SyntaxFault Nat}
    {f : SyntaxFault} (h : (setReading negated read).Fails f) :
    f = .badRange ∨ read.2 = .error f := by
  unfold setReading at h
  split at h
  · next hitems =>
    cases h
    exact .inl (SetAtom.items_eq_error hitems)
  · next hread =>
    cases h
    exact .inr hread
  · cases h

theorem readSet_fails [CharacterNames] {cs : List Char} {f : SyntaxFault}
    (h : (readSet cs).Fails f) :
    f = .badRange ∨ f = .unterminatedSet ∨ f = .badEscape ∨ f = .codeTooLarge := by
  unfold readSet at h
  split at h
  · exact (setReading_fails h).imp_right SetAtom.read_eq_error
  · exact (setReading_fails h).imp_right SetAtom.read_eq_error

theorem readOpening_fails {cs : List Char} {f : SyntaxFault} (h : (readOpening cs).Fails f) :
    f = .unterminatedComment ∨ f = .badGroupName ∨ f = .unknownGroup := by
  unfold readOpening at h
  split at h
  · cases h
  · cases h
  · cases h
  · split at h <;> cases h
    exact .inl rfl
  · dsimp only at h
    split at h <;> cases h
    exact .inr (.inl rfl)
  · cases h
    exact .inr (.inr rfl)
  · cases h

/-! ## Counts in braces -/

theorem countFault?_eq_some {digits : List Char} {f : SyntaxFault}
    (h : countFault? digits = some f) : f.IsOversizedCount ∧ Oversized digits := by
  unfold countFault? at h
  split at h
  · next hlong =>
    cases h
    exact ⟨.inl rfl, .inl hlong⟩
  · split at h
    · next hlarge =>
      cases h
      exact ⟨.inr rfl, .inr hlarge⟩
    · cases h

/-- The bounds of a repetition fail because one of them is oversized, or for their order. -/
theorem readBounds_fails {lo hi : List Char} {extra : Nat} {after : List Char} {f : SyntaxFault}
    (h : (readBounds lo hi extra after).Fails f) :
    (f.IsOversizedCount ∧ (Oversized lo ∨ Oversized hi)) ∨ f = .countsReversed := by
  unfold readBounds at h
  split at h
  · next hlo =>
    cases h
    exact .inl ((countFault?_eq_some hlo).imp_right .inl)
  · next hhi =>
    cases h
    exact .inl ((countFault?_eq_some hhi).imp_right .inr)
  · dsimp only at h
    generalize (if hi.isEmpty then none else some (numberIn 10 hi)) = max at h
    split at h
    · cases h
      exact .inr rfl
    · cases h

/-- A brace fails for an oversized count that starts at it, or for the order of two counts. -/
theorem readBrace_fails {cs : List Char} {f : SyntaxFault} (h : (readBrace cs).Fails f) :
    (f.IsOversizedCount ∧ ∃ u, IsOversizedCount u ∧ u <+: '{' :: cs) ∨ f = .countsReversed := by
  have hlo : ∀ c ∈ cs.takeWhile isAsciiDigit, isAsciiDigit c = true :=
    fun c hc => List.mem_takeWhile_imp hc
  have hcs : cs.takeWhile isAsciiDigit ++ cs.dropWhile isAsciiDigit = cs :=
    List.takeWhile_append_dropWhile
  unfold readBrace at h
  dsimp only at h
  split at h
  · next after hafter =>
    rw [hafter] at hcs
    split at h
    · cases h
    · -- The one count is read as the least and the greatest.
      refine (readBounds_fails h).imp_left fun ⟨hf, hsize⟩ =>
        ⟨hf, _, .one hlo (or_self_iff.1 hsize), after, ?_⟩
      rw [List.cons_append, List.append_assoc, List.singleton_append, hcs]
  · next rest hrest =>
    rw [hrest] at hcs
    have hhi : ∀ c ∈ rest.takeWhile isAsciiDigit, isAsciiDigit c = true :=
      fun c hc => List.mem_takeWhile_imp hc
    have hsplit : rest.takeWhile isAsciiDigit ++ rest.dropWhile isAsciiDigit = rest :=
      List.takeWhile_append_dropWhile
    split at h
    · next after hafter =>
      rw [hafter] at hsplit
      refine (readBounds_fails h).imp_left fun ⟨hf, hsize⟩ =>
        ⟨hf, _, .two hlo hhi hsize, after, ?_⟩
      rw [List.cons_append, List.append_assoc, List.cons_append, List.append_assoc,
        List.singleton_append, hsplit, hcs]
    · cases h
  · cases h

/-! ## Whole expressions -/

/-- Of all lexemes only a count in braces fails as an oversized count. -/
theorem readLexeme_fails_count [CharacterNames] {c : Char} {cs : List Char} {f : SyntaxFault}
    (hf : f.IsOversizedCount) (h : (readLexeme c cs).Fails f) :
    ∃ u, IsOversizedCount u ∧ u <+: c :: cs := by
  unfold readLexeme at h
  split at h
  · rcases readEscape_fails h with rfl | ⟨rfl, -⟩ <;> exact absurd hf (by decide)
  · cases h
  · cases h
  · cases h
  · cases h
  · rcases readOpening_fails h with rfl | rfl | rfl <;> exact absurd hf (by decide)
  · cases h
  · rcases readSet_fails h with rfl | rfl | rfl | rfl <;> exact absurd hf (by decide)
  · cases h
  · cases h
  · cases h
  · obtain ⟨-, hcount⟩ | rfl := readBrace_fails h
    · exact hcount
    · exact absurd hf (by decide)
  · cases h

/-- A fault of this kind among the lexemes of a text comes from a count in the text. -/
theorem hasOversizedCount_of_mem_lexemes [CharacterNames] {cs : List Char} {f : SyntaxFault}
    (hf : f.IsOversizedCount) (h : Lexeme.fault f ∈ lexemes cs) : HasOversizedCount cs := by
  obtain ⟨c, rest, hsuffix, hread⟩ := exists_of_mem_lexemes h
  obtain ⟨u, hu, hprefix⟩ := readLexeme_fails_count hf hread
  exact ⟨u, hu, hprefix.isInfix.trans hsuffix.isInfix⟩

/-- Reading a lexeme fails in this way only if the lexeme is that fault. -/
theorem Builder.eq_fault_of_read {b : Builder} {l : Lexeme} {f : SyntaxFault}
    (hf : f.IsOversized) (h : b.read l = .error f) : l = .fault f := by
  cases l with
  | single r => cases h
  | anchor a => cases h
  | bar => cases h
  | backref n =>
    rw [Builder.read, Builder.backref] at h
    split at h
    · cases h
      exact absurd hf (by decide)
    · split at h
      · cases h
        exact absurd hf (by decide)
      · cases h
  | opening kind =>
    rw [Builder.read] at h
    unfold Builder.opening at h
    split at h
    · cases h
    · cases h
    · cases h
    · cases h
    · split at h
      · cases h
        exact absurd hf (by decide)
      · cases h
  | closing =>
    rw [Builder.read, Builder.closing] at h
    split at h
    · cases h
      exact absurd hf (by decide)
    · cases h
  | count min max mode =>
    rw [Builder.read, Builder.count] at h
    split at h
    · cases h
      exact absurd hf (by decide)
    · split at h
      · cases h
        exact absurd hf (by decide)
      · cases h
        exact absurd hf (by decide)
      · cases h
  | fault f' =>
    cases h
    rfl

/-- Reading lexemes in turn fails in this way for the first one that is a fault. -/
theorem Builder.exists_fault_of_readAll {b : Builder} {ls : List Lexeme} {f : SyntaxFault}
    (hf : f.IsOversized) (h : b.readAll ls = .error f) :
    ∃ before after, ls = before ++ .fault f :: after ∧ ∀ f', Lexeme.fault f' ∉ before := by
  induction ls generalizing b with
  | nil => cases h
  | cons l ls ih =>
    rw [Builder.readAll_cons] at h
    obtain hread | ⟨b', hread, hrest⟩ := bind_eq_error.1 h
    · rw [Builder.eq_fault_of_read hf hread]
      exact ⟨[], ls, rfl, fun _ => List.not_mem_nil⟩
    · obtain ⟨before, after, rfl, hbefore⟩ := ih hrest
      refine ⟨l :: before, after, rfl, fun f' hmem => ?_⟩
      rcases List.mem_cons.1 hmem with rfl | hmem
      · cases hread
      · exact hbefore f' hmem

/-- So does reading an expression. -/
theorem exists_fault_of_parse [CharacterNames] {cs : List Char} {f : SyntaxFault}
    (hf : f.IsOversized)
    (h : parse cs = .error f) :
    ∃ before after, lexemes cs = before ++ .fault f :: after ∧ ∀ f', Lexeme.fault f' ∉ before := by
  obtain hread | ⟨b, -, h⟩ := bind_eq_error.1 h
  · exact Builder.exists_fault_of_readAll hf hread
  · split at h
    · cases h
    · cases h
      exact absurd hf (by decide)

end SiteRouter.Regex
