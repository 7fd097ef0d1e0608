import SiteRouter.Proofs.Regex.Counts

/-!
# Oversized codes

The number of an escaped character may be too large to be taken. Where an expression is refused for
such a number, the backslash with its digits stands in the text (`hasOversized_of_parse`). Not
every backslash before digits does: one that is escaped itself is a character. Backslashes belong
together with the character behind them, from the left to the right. `HasOversizedCode` goes through
a text in these pairs, and so do the readers of lexemes: what they read leaves no backslash without
its character (`readLexeme_ends`).
-/

namespace SiteRouter.Regex

open Text

/-- The text starts with eight hexadecimal digits for a number of 2147483648 or more. -/
def StartsOversized (cs : List Char) : Prop :=
  ∃ n, fixedHex? 8 cs = some n ∧ 2147483648 ≤ n

/-- Somewhere in the text such a number is escaped. -/
inductive HasOversizedCode : List Char → Prop
  /-- At the start of the text. -/
  | here {cs : List Char} : StartsOversized cs → HasOversizedCode ('\\' :: 'U' :: cs)
  /-- Behind a backslash and its character. -/
  | pair {c : Char} {cs : List Char} : HasOversizedCode cs → HasOversizedCode ('\\' :: c :: cs)
  /-- Behind another character. -/
  | plain {c : Char} {cs : List Char} : c ≠ '\\' → HasOversizedCode cs → HasOversizedCode (c :: cs)

/-! ## Texts that keep pairs together -/

/-- The text leaves no backslash without its character: escapes behind it stay escapes. -/
def KeepsPairs (cs : List Char) : Prop :=
  ∀ rest, HasOversizedCode rest → HasOversizedCode (cs ++ rest)

namespace KeepsPairs

variable {s t : List Char}

theorem nil : KeepsPairs [] := fun _ h => h

theorem append (hs : KeepsPairs s) (ht : KeepsPairs t) : KeepsPairs (s ++ t) := by
  intro rest h
  rw [List.append_assoc]
  exact hs _ (ht rest h)

theorem cons {c : Char} (hc : c ≠ '\\') (ht : KeepsPairs t) : KeepsPairs (c :: t) :=
  fun rest h => .plain hc (ht rest h)

theorem pair (c : Char) (ht : KeepsPairs t) : KeepsPairs ('\\' :: c :: t) :=
  fun rest h => .pair (ht rest h)

/-- A text without a backslash keeps pairs together. -/
theorem of_not_mem (h : '\\' ∉ t) : KeepsPairs t := by
  induction t with
  | nil => exact nil
  | cons c t ih =>
    rw [List.mem_cons, not_or] at h
    exact cons (Ne.symm h.1) (ih h.2)

end KeepsPairs

/-! ## Escapes -/

/-- No backslash stands among the next characters. -/
def NoneWithin (n : Nat) (cs : List Char) : Prop := '\\' ∉ cs.take n

/-- It is enough to name the next characters. -/
theorem NoneWithin.of_start {s t : List Char} {n : Nat} (hs : '\\' ∉ s) (hn : s.length = n)
    (h : s <+: t) : NoneWithin n t := by
  obtain ⟨rest, rfl⟩ := h
  rw [NoneWithin, List.take_left' hn]
  exact hs

theorem NoneWithin.keepsPairs {n : Nat} {cs : List Char} (h : NoneWithin n cs) :
    KeepsPairs (cs.take n) := .of_not_mem h

/-- A text of other characters has no backslash. -/
theorem not_mem_of_forall {p : Char → Bool} (hp : p '\\' = false) {cs : List Char}
    (h : ∀ c ∈ cs, p c = true) : '\\' ∉ cs :=
  fun hmem => Bool.false_ne_true (hp.symm.trans (h _ hmem))

theorem not_mem_takeWhile {p : Char → Bool} (hp : p '\\' = false) (cs : List Char) :
    '\\' ∉ cs.takeWhile p :=
  not_mem_of_forall hp fun _ => List.mem_takeWhile_imp

theorem noneWithin_of_fixedHex? {width n : Nat} {cs : List Char}
    (h : fixedHex? width cs = some n) : NoneWithin width cs := by
  unfold fixedHex? at h
  split at h
  · intro hmem
    rw [hexNumber?_eq_none rfl hmem] at h
    cases h
  · cases h

theorem noneWithin_of_fixedCode {width n extra : Nat} {cs : List Char}
    (h : fixedCode width cs = .ok (n, extra)) : NoneWithin extra cs := by
  unfold fixedCode at h
  split at h
  · next hhex =>
    cases h
    exact noneWithin_of_fixedHex? hhex
  · cases h

theorem noneWithin_of_longCode {n extra : Nat} {cs : List Char}
    (h : longCode cs = .ok (n, extra)) : NoneWithin extra cs := by
  obtain ⟨⟨m, digits⟩, hcode, h⟩ := bind_eq_ok.1 h
  dsimp only at h
  split at h
  · cases h
    exact noneWithin_of_fixedCode hcode
  · split at h <;> cases h

theorem noneWithin_of_namedCode [CharacterNames] {n extra : Nat} {cs : List Char}
    (h : namedCode cs = .ok (n, extra)) : NoneWithin extra cs := by
  unfold namedCode at h
  split at h
  · next cs =>
    dsimp only at h
    split at h
    · next hname =>
      split at h
      · cases h
        obtain ⟨rest, hrest⟩ := List.head?_eq_some_iff.1 hname.2
        have hrun := not_mem_takeWhile (p := isNamePart) rfl cs
        have hstart : '{' :: (cs.takeWhile isNamePart ++ ['}']) <+: '{' :: cs := by
          refine List.cons_prefix_cons.2 ⟨rfl, rest, ?_⟩
          rw [List.append_assoc, List.singleton_append, ← hrest,
            List.takeWhile_append_dropWhile]
        exact .of_start (by simp [hrun]) (by simp) hstart
      · cases h
    · cases h
  · cases h

theorem noneWithin_of_codeEscape [CharacterNames] {letter : Char} {n extra : Nat} {cs : List Char}
    (h : codeEscape letter cs = .ok (n, extra)) : NoneWithin extra cs := by
  unfold codeEscape at h
  split at h
  · exact noneWithin_of_fixedCode h
  · exact noneWithin_of_fixedCode h
  · exact noneWithin_of_longCode h
  · exact noneWithin_of_namedCode h

/-- Octal digits are no backslashes. -/
theorem noneWithin_octalDigits (cs : List Char) :
    NoneWithin ((cs.take 2).takeWhile isOctalDigit).length cs :=
  .of_start (not_mem_takeWhile rfl _) rfl ((List.takeWhile_prefix _).trans (List.take_prefix 2 cs))

/-- Behind its first character an escape has no backslash. -/
def EscapeKeeps (taken : Nat) (cs : List Char) : Prop :=
  ∃ n, taken = n + 1 ∧ NoneWithin n cs

theorem EscapeKeeps.one (cs : List Char) : EscapeKeeps 1 cs := ⟨0, rfl, by simp [NoneWithin]⟩

/-- So it leaves no backslash without its character. -/
theorem EscapeKeeps.keepsPairs {taken : Nat} {d : Char} {ds : List Char}
    (h : EscapeKeeps taken ds) : KeepsPairs ('\\' :: (d :: ds).take taken) := by
  obtain ⟨n, rfl, hn⟩ := h
  exact .pair d hn.keepsPairs

theorem readNumber_escapeKeeps (d : Char) (ds : List Char) :
    (readNumber d ds).1 = some (.fault .badEscape) ∨ EscapeKeeps (readNumber d ds).2 ds := by
  have hone : ∀ {e : Char} (es : List Char), isAsciiDigit e = true → EscapeKeeps 2 (e :: es) := by
    intro e es he
    refine ⟨1, rfl, .of_start (s := [e]) ?_ rfl (List.prefix_append _ es)⟩
    exact not_mem_of_forall (p := isAsciiDigit) rfl (List.forall_mem_singleton.2 he)
  unfold readNumber
  split
  · next d₂ d₃ es =>
    split
    · next hoctal =>
      simp only [Bool.and_eq_true] at hoctal
      dsimp only
      split
      · refine .inr ⟨2, rfl, .of_start (s := [d₂, d₃]) ?_ rfl (List.prefix_append _ es)⟩
        refine not_mem_of_forall (p := isOctalDigit) rfl ?_
        rw [List.forall_mem_cons, List.forall_mem_singleton]
        exact ⟨hoctal.1.2, hoctal.2⟩
      · exact .inl rfl
    · split
      · next hdigit => exact .inr (hone _ hdigit)
      · exact .inr (.one _)
  · split
    · next hdigit => exact .inr (hone _ hdigit)
    · exact .inr (.one _)
  · exact .inr (.one _)

/-- What an escape takes, unless it is a fault. -/
theorem readEscape_escapeKeeps [CharacterNames] (d : Char) (ds : List Char) :
    (∃ f, (readEscape (d :: ds)).Fails f) ∨ EscapeKeeps (readEscape (d :: ds)).2 ds := by
  unfold readEscape
  dsimp only
  split
  · exact .inr (.one ds)
  · exact .inr (.one ds)
  · exact .inr (.one ds)
  · split
    · split
      · next extra hcode =>
        exact .inr ⟨extra, Nat.add_comm 1 extra, noneWithin_of_codeEscape hcode⟩
      · exact .inl ⟨_, rfl⟩
    · split
      · exact .inr ⟨_, Nat.add_comm 1 _, noneWithin_octalDigits ds⟩
      · split
        · exact (readNumber_escapeKeeps d ds).imp_left fun h => ⟨_, h⟩
        · split
          · exact .inl ⟨_, rfl⟩
          · exact .inr (.one ds)

/-! ## Sets -/

namespace SetAtom

theorem escapeKeeps_of_ofEscape [CharacterNames] {d : Char} {ds : List Char} {atom : SetAtom}
    {taken : Nat} (h : ofEscape (d :: ds) = .ok (atom, taken)) : EscapeKeeps taken ds := by
  unfold ofEscape at h
  dsimp only at h
  split at h
  · cases h
    exact .one ds
  · cases h
    exact .one ds
  · split at h
    · cases h
      exact .one ds
    · split at h
      · obtain ⟨⟨n, extra⟩, hcode, heq⟩ := map_eq_ok.1 h
        cases heq
        exact ⟨extra, Nat.add_comm 1 extra, noneWithin_of_codeEscape hcode⟩
      · split at h
        · split at h
          · cases h
            exact ⟨_, rfl, noneWithin_octalDigits ds⟩
          · cases h
        · split at h
          · cases h
          · cases h
            exact .one ds

/-- Skipped characters may as well be dropped. -/
theorem read_eq_drop [CharacterNames] (first : Bool) (skip : Nat) (cs : List Char) :
    read first skip cs = ((read first 0 (cs.drop skip)).1,
      (read first 0 (cs.drop skip)).2.map (· + skip)) := by
  induction cs generalizing skip with
  | nil => cases skip <;> rfl
  | cons c cs ih =>
    cases skip with
    | zero =>
      have hzero : ∀ x : Except SyntaxFault Nat, x = x.map (· + 0) := by
        intro x
        cases x <;> rfl
      rw [List.drop_zero, ← hzero]
    | succ skip =>
      rw [read, ih skip, List.drop_succ_cons, before]
      cases (read first 0 (cs.drop skip)).2 <;> rfl

end SetAtom

/-- How a reader that starts at the text ends: if it gives a number, pairs are kept together in so
many characters, and if it fails for an oversized code, the text has one. -/
structure Ends (result : Except SyntaxFault Nat) (cs : List Char) : Prop where
  keepsPairs {n : Nat} : result = .ok n → KeepsPairs (cs.take n)
  oversized : result = .error .codeTooLarge → HasOversizedCode cs

/-- A reader may go on behind characters that keep pairs together. -/
theorem Ends.of_drop {result : Except SyntaxFault Nat} {cs : List Char} {k : Nat}
    (hk : KeepsPairs (cs.take k)) (h : Ends result (cs.drop k)) :
    Ends (result.map (· + k)) cs where
  keepsPairs := by
    intro n hn
    obtain ⟨m, hm, rfl⟩ := map_eq_ok.1 hn
    rw [Nat.add_comm, List.take_add]
    exact hk.append (h.keepsPairs hm)
  oversized := by
    intro herror
    rw [← List.take_append_drop k cs]
    exact hk _ (h.oversized (map_eq_error.1 herror))

/-- The reader of a set ends in this way. -/
theorem SetAtom.read_ends [CharacterNames] (first : Bool) (cs : List Char) :
    Ends (read first 0 cs).2 cs := by
  induction hlength : cs.length using Nat.strong_induction_on generalizing first cs with
  | _ length ih =>
    subst hlength
    cases cs with
    | nil => exact ⟨by rintro n ⟨⟩, by rintro ⟨⟩⟩
    | cons c cs =>
      -- An escape takes several characters, so the induction is on the length.
      have hlater : ∀ k, Ends (read false 0 (cs.drop k)).2 (cs.drop k) := by
        intro k
        refine ih _ ?_ false _ rfl
        rw [List.length_drop, List.length_cons]
        omega
      rw [read]
      split
      · next hend =>
        rw [Bool.and_eq_true, decide_eq_true_eq] at hend
        refine ⟨?_, by rintro ⟨⟩⟩
        rintro n ⟨⟩
        rw [hend.1]
        exact .cons (by decide) .nil
      · split
        · next hslash =>
          subst hslash
          split
          · next hescape =>
            refine ⟨by rintro n ⟨⟩, ?_⟩
            rintro ⟨⟩
            obtain hbad | ⟨-, ds, n, rfl, hn⟩ := ofEscape_eq_error hescape
            · cases hbad
            · exact .here ⟨n, hn⟩
          · next atom extra hescape =>
            cases cs with
            | nil => cases hescape
            | cons d ds =>
              have hkeeps := (escapeKeeps_of_ofEscape hescape).keepsPairs (d := d)
              have hends : Ends ((read false 0 ((d :: ds).drop extra)).2.map (· + (extra + 1)))
                  ('\\' :: d :: ds) := .of_drop hkeeps (hlater extra)
              have hcount : (before [atom] (read false extra (d :: ds))).2 =
                  (read false 0 ((d :: ds).drop extra)).2.map (· + (extra + 1)) := by
                rw [read_eq_drop, before]
                cases (read false 0 ((d :: ds).drop extra)).2 <;> rfl
              rw [hcount]
              exact hends
        · next hslash => exact Ends.of_drop (k := 1) (.cons hslash .nil) (hlater 0)

/-! ## Lexemes -/

/-- A comment keeps pairs together. -/
theorem keepsPairs_comment {cs : List Char} {n : Nat} (h : commentLength? cs = some n) :
    KeepsPairs (cs.take n) := by
  induction cs using commentLength?.induct generalizing n with
  | case1 c cs ih =>
    obtain ⟨m, hm, rfl⟩ := Option.map_eq_some_iff.1 h
    exact .pair c (ih hm)
  | case2 cs hpair =>
    rw [commentLength?, if_pos rfl] at h
    · cases h
      exact .cons (by decide) .nil
    · exact hpair
  | case3 c cs hpair hend ih =>
    rw [commentLength?, if_neg hend] at h
    · obtain ⟨m, hm, rfl⟩ := Option.map_eq_some_iff.1 h
      refine .cons ?_ (ih hm)
      -- A backslash at the end is followed by nothing, and so by no parenthesis either.
      rintro rfl
      cases cs with
      | nil => cases hm
      | cons d ds => exact hpair d ds rfl rfl
    · exact hpair
  | case4 => cases h

/-- The sign that changes a count is no backslash. -/
theorem noneWithin_modeOf (cs : List Char) : NoneWithin (modeOf cs).2 cs := by
  unfold modeOf
  split
  · exact .of_start (s := ['?']) (by decide) rfl (List.prefix_append _ _)
  · exact .of_start (s := ['+']) (by decide) rfl (List.prefix_append _ _)
  · simp [NoneWithin]

/-- Neither is one among the digits before it. -/
theorem NoneWithin.append {s t : List Char} {n : Nat} (hs : '\\' ∉ s) (ht : NoneWithin n t) :
    NoneWithin (s.length + n) (s ++ t) := by
  rw [NoneWithin, List.take_length_add_append, List.mem_append, not_or]
  exact ⟨hs, ht⟩

theorem noneWithin_readBounds (lo hi : List Char) {s : List Char} (hs : '\\' ∉ s)
    (after : List Char) : NoneWithin (readBounds lo hi s.length after).2 (s ++ after) := by
  unfold readBounds
  split
  · simp [NoneWithin, Reading.fault]
  · simp [NoneWithin, Reading.fault]
  · dsimp only
    generalize (if hi.isEmpty then none else some (numberIn 10 hi)) = max
    split
    · simp [NoneWithin, Reading.fault]
    · exact .append hs (noneWithin_modeOf after)

/-- Digits of a count are no backslashes. -/
theorem not_mem_digits (cs : List Char) : '\\' ∉ cs.takeWhile isAsciiDigit :=
  not_mem_takeWhile rfl cs

theorem noneWithin_readBrace (cs : List Char) : NoneWithin (readBrace cs).2 cs := by
  have hlo := not_mem_digits cs
  have hcs := List.takeWhile_append_dropWhile (p := isAsciiDigit) (l := cs)
  unfold readBrace
  dsimp only
  split
  · -- One number between the braces.
    next after hafter =>
    split
    · simp [NoneWithin, Reading.char]
    · have hsplit : cs = (cs.takeWhile isAsciiDigit ++ ['}']) ++ after := by
        rw [List.append_assoc, List.singleton_append, ← hafter, hcs]
      have hbounds := noneWithin_readBounds (cs.takeWhile isAsciiDigit)
        (cs.takeWhile isAsciiDigit) (s := cs.takeWhile isAsciiDigit ++ ['}']) (by simp [hlo]) after
      rwa [List.length_append, ← hsplit] at hbounds
  · -- Two numbers, of which each may be missing.
    next rest hrest =>
    split
    · next after hafter =>
      have hhi := not_mem_digits rest
      have hsplit : cs = (cs.takeWhile isAsciiDigit ++ ',' ::
          (rest.takeWhile isAsciiDigit ++ ['}'])) ++ after := by
        rw [List.append_assoc, List.cons_append, List.append_assoc, List.singleton_append,
          ← hafter, List.takeWhile_append_dropWhile, ← hrest, hcs]
      have hbounds := noneWithin_readBounds (cs.takeWhile isAsciiDigit)
        (rest.takeWhile isAsciiDigit) (s := cs.takeWhile isAsciiDigit ++ ',' ::
          (rest.takeWhile isAsciiDigit ++ ['}'])) (by simp [hlo, hhi]) after
      rw [← hsplit] at hbounds
      have hlength : (cs.takeWhile isAsciiDigit ++ ',' ::
          (rest.takeWhile isAsciiDigit ++ ['}'])).length =
            (cs.takeWhile isAsciiDigit).length + (rest.takeWhile isAsciiDigit).length + 2 := by
        simp only [List.length_append, List.length_cons, List.length_nil]
        omega
      rwa [hlength] at hbounds
    · simp [NoneWithin, Reading.char]
  · simp [NoneWithin, Reading.char]

/-- The name of a group has no backslash. -/
theorem not_mem_of_isIdentifier {name : List Char} (h : isIdentifier name = true) :
    '\\' ∉ name := by
  cases name with
  | nil => cases h
  | cons c cs =>
    rw [isIdentifier, Bool.and_eq_true, List.all_eq_true] at h
    rw [List.mem_cons, not_or]
    constructor
    · rintro rfl
      exact absurd h.1 (by decide +kernel)
    · exact fun hmem => absurd (h.2 _ hmem) (by decide +kernel)

/-- How the reading of a lexeme ends: unless it is a fault it keeps pairs together, and where it
fails for an oversized code, the text has one. -/
structure Reading.Ends (r : Reading) (c : Char) (cs : List Char) : Prop where
  keepsPairs : (∀ f, ¬ r.Fails f) → KeepsPairs (c :: cs.take r.2)
  oversized : r.Fails .codeTooLarge → HasOversizedCode (c :: cs)

namespace Reading.Ends

variable {c : Char}

/-- A lexeme that takes no backslash. -/
theorem of_noneWithin (hc : c ≠ '\\') {r : Reading} {cs : List Char} (h : NoneWithin r.2 cs)
    (hr : ¬ r.Fails .codeTooLarge) : r.Ends c cs :=
  ⟨fun _ => .cons hc h.keepsPairs, fun hf => absurd hf hr⟩

end Reading.Ends

/-- A set ends as its atoms do, which stand behind the bracket and perhaps a circumflex. -/
theorem setReading_ends (negated : Bool) {read : List SetAtom × Except SyntaxFault Nat}
    {cs : List Char} (h : Ends read.2 cs) :
    (setReading negated read).Ends '[' (if negated then '^' :: cs else cs) := by
  obtain ⟨atoms, result⟩ := read
  unfold setReading
  cases hitems : SetAtom.items atoms with
  | error f =>
    refine ⟨fun hread => absurd rfl (hread f), ?_⟩
    rintro ⟨⟩
    cases SetAtom.items_eq_error hitems
  | ok items =>
    cases result with
    | error f =>
      refine ⟨fun hread => absurd rfl (hread f), ?_⟩
      rintro ⟨⟩
      have hcode := h.oversized rfl
      cases negated with
      | false => exact .plain (by decide) hcode
      | true => exact .plain (by decide) (.plain (by decide) hcode)
    | ok n =>
      refine ⟨fun _ => ?_, by rintro ⟨⟩⟩
      have hkeeps := h.keepsPairs rfl
      cases negated with
      | false => exact .cons (by decide) hkeeps
      | true => exact .cons (by decide) (.cons (by decide) hkeeps)

theorem readSet_ends [CharacterNames] (cs : List Char) : (readSet cs).Ends '[' cs := by
  unfold readSet
  split
  · exact setReading_ends true (SetAtom.read_ends true _)
  · exact setReading_ends false (SetAtom.read_ends true _)

theorem readOpening_ends (cs : List Char) : (readOpening cs).Ends '(' cs := by
  have hparenthesis : '(' ≠ '\\' := by decide
  have hfault : ¬ (readOpening cs).Fails .codeTooLarge := by
    intro h
    rcases readOpening_fails h with hf | hf | hf <;> cases hf
  refine ⟨fun hread => .cons hparenthesis ?_, fun hf => absurd hf hfault⟩
  have htwo : ∀ (d : Char) (rest : List Char), d ≠ '\\' →
      KeepsPairs (('?' :: d :: rest).take 2) := by
    intro d rest hd
    exact .cons (by decide) (.cons hd .nil)
  unfold readOpening at hread ⊢
  split
  · exact htwo _ _ (by decide)
  · exact htwo _ _ (by decide)
  · exact htwo _ _ (by decide)
  · next body =>
    split
    · next n hcomment =>
      exact .cons (by decide) (.cons (by decide) (keepsPairs_comment hcomment))
    · exact .nil
  · next rest =>
    dsimp only
    split
    · next hname =>
      rw [Bool.and_eq_true, decide_eq_true_eq] at hname
      -- The name is followed by the mark that ends it.
      obtain ⟨d, after, hafter⟩ : ∃ d after, rest.dropWhile (· != '>') = d :: after := by
        refine List.exists_cons_of_ne_nil fun hnil => ?_
        have hlength := congrArg List.length
          (List.takeWhile_append_dropWhile (p := (· != '>')) (l := rest))
        rw [hnil, List.append_nil] at hlength
        omega
      have hmark : d = '>' := by
        have hstop := List.head?_dropWhile_not (· != '>') rest
        rw [hafter] at hstop
        exact bne_eq_false_iff_eq.1 hstop
      have hstart : rest.takeWhile (· != '>') ++ ['>'] <+: rest := by
        refine ⟨after, ?_⟩
        rw [hmark] at hafter
        rw [List.append_assoc, List.singleton_append, ← hafter, List.takeWhile_append_dropWhile]
      have hname := not_mem_of_isIdentifier hname.2
      have hkeeps : NoneWithin ((rest.takeWhile (· != '>')).length + 1) rest :=
        .of_start (by simp [hname]) (by simp) hstart
      exact .cons (by decide) (.cons (by decide) (.cons (by decide) hkeeps.keepsPairs))
    · exact .nil
  · exact .nil
  · exact .nil

/-- What a backslash starts takes the character behind it. -/
theorem readEscape_ends [CharacterNames] (cs : List Char) : (readEscape cs).Ends '\\' cs := by
  constructor
  · intro hread
    cases cs with
    | nil => exact absurd rfl (hread .badEscape)
    | cons d ds =>
      obtain ⟨f, hf⟩ | hkeeps := readEscape_escapeKeeps d ds
      · exact absurd hf (hread f)
      · exact hkeeps.keepsPairs
  · intro hf
    obtain hbad | ⟨-, ds, n, rfl, hn⟩ := readEscape_fails hf
    · cases hbad
    · exact .here ⟨n, hn⟩

/-- A lexeme leaves no backslash without its character. -/
theorem readLexeme_ends [CharacterNames] (c : Char) (cs : List Char) :
    (readLexeme c cs).Ends c cs := by
  have hone : ∀ {c l}, c ≠ '\\' → l ≠ Lexeme.fault .codeTooLarge →
      Reading.Ends (some l, 0) c cs := by
    intro c l hc hl
    refine .of_noneWithin hc (by simp [NoneWithin]) ?_
    rintro ⟨⟩
    exact hl rfl
  have hcount : ∀ {c} (min : Nat) (max : Option Nat), c ≠ '\\' →
      (readCount min max 0 cs).Ends c cs := by
    intro c min max hc
    refine .of_noneWithin hc ?_ (by rintro ⟨⟩)
    simpa [readCount] using noneWithin_modeOf cs
  unfold readLexeme
  split
  · exact readEscape_ends cs
  · exact hone (by decide) (by rintro ⟨⟩)
  · exact hone (by decide) (by rintro ⟨⟩)
  · exact hone (by decide) (by rintro ⟨⟩)
  · exact hone (by decide) (by rintro ⟨⟩)
  · exact readOpening_ends cs
  · exact hone (by decide) (by rintro ⟨⟩)
  · exact readSet_ends cs
  · exact hcount 0 none (by decide)
  · exact hcount 1 none (by decide)
  · exact hcount 0 (some 1) (by decide)
  · refine .of_noneWithin (by decide) (noneWithin_readBrace cs) fun h => ?_
    rcases readBrace_fails h with ⟨hf, -⟩ | hf
    · exact absurd hf (by decide)
    · cases hf
  · exact hone (by assumption) (by rintro ⟨⟩)

/-- The first fault among the lexemes of a text is for an oversized code only where the text has
one. -/
theorem hasOversizedCode_of_lexemes [CharacterNames] {cs : List Char} {before after : List Lexeme}
    (h : lexemes cs = before ++ .fault .codeTooLarge :: after)
    (hbefore : ∀ f, Lexeme.fault f ∉ before) : HasOversizedCode cs := by
  induction hlength : cs.length using Nat.strong_induction_on generalizing cs before with
  | _ length ih =>
    subst hlength
    cases cs with
    | nil =>
      rw [lexemes_nil] at h
      cases before <;> cases h
    | cons c cs =>
      have hends := readLexeme_ends c cs
      -- A code behind a lexeme is a code of the whole text, unless the lexeme is a fault.
      have hlater : ∀ before', lexemes (cs.drop (readLexeme c cs).2) =
          before' ++ .fault .codeTooLarge :: after → (∀ f, Lexeme.fault f ∉ before') →
            (∀ f, ¬ (readLexeme c cs).Fails f) → HasOversizedCode (c :: cs) := by
        intro before' hrest hbefore' hread
        have hcode := ih _ (by rw [List.length_drop, List.length_cons]; omega) hrest hbefore' rfl
        rw [← List.take_append_drop (readLexeme c cs).2 cs]
        exact hends.keepsPairs hread _ hcode
      rw [lexemes_cons_eq] at h
      cases hlexeme : (readLexeme c cs).1 with
      | none =>
        rw [hlexeme] at h
        exact hlater before h hbefore fun f hf => by rw [Reading.Fails, hlexeme] at hf; cases hf
      | some l =>
        rw [hlexeme] at h
        cases before with
        | nil =>
          obtain ⟨rfl, -⟩ := List.cons_eq_cons.1 h
          exact hends.oversized hlexeme
        | cons l' before' =>
          obtain ⟨rfl, hrest⟩ := List.cons_eq_cons.1 h
          refine hlater before' hrest (fun f hf => hbefore f (List.mem_cons_of_mem _ hf)) ?_
          intro f hf
          rw [Reading.Fails, hlexeme] at hf
          cases hf
          exact hbefore f List.mem_cons_self

/-- An expression that is refused for a number has an oversized count, or an oversized code. -/
theorem hasOversized_of_parse [CharacterNames] {cs : List Char} {f : SyntaxFault}
    (hf : f.IsOversized) (h : parse cs = .error f) :
    HasOversizedCount cs ∨ HasOversizedCode cs := by
  obtain ⟨before, after, hlexemes, hbefore⟩ := exists_fault_of_parse hf h
  obtain rfl | hcount := hf
  · exact .inr (hasOversizedCode_of_lexemes hlexemes hbefore)
  · refine .inl (hasOversizedCount_of_mem_lexemes hcount ?_)
    rw [hlexemes]
    exact List.mem_append_right _ List.mem_cons_self

end SiteRouter.Regex
