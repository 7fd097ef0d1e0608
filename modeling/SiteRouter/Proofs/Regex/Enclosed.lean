import Mathlib.Data.List.TakeWhile
import SiteRouter.Proofs.Except
import SiteRouter.Proofs.Regex.Moves
import SiteRouter.Proofs.Regex.Text

/-!
# Lexemes before a parenthesis

A lexeme is recognised from the text at its place, but it may look ahead: a set for its bracket, an
escape for its digits, a count for the sign that changes it. No lexeme looks over a parenthesis that
ends the text before it, unless it takes that parenthesis for one of its own characters
(`readLexeme_settled`). So a text without parentheses of its own is read before a parenthesis as it
is read alone, or else that parenthesis ends no group (`lexemes_closing`).
-/

namespace SiteRouter.Regex

open Text

/-- Whether the lexeme opens or ends a group. -/
def Lexeme.isParenthesis : Lexeme → Bool
  | opening _ | closing => true
  | _ => false

/-- The reading is a fault, or goes on for more characters than there are and opens no group. -/
def Reading.Spoils (r : Reading) (length : Nat) : Prop :=
  (∃ f, r.1 = some (.fault f)) ∨ (length < r.2 ∧ ∀ l, r.1 = some l → l.isParenthesis = false)

/-- What is read at the start of the text is read there before any parenthesis, or the parenthesis
spoils it. -/
def Settled (f : List Char → Reading) (cs : List Char) : Prop :=
  ((f cs).2 ≤ cs.length ∧ ∀ rest, f (cs ++ ')' :: rest) = f cs) ∨
    (f (cs ++ [')'])).Spoils cs.length

/-- What does not depend on more than a start of the text is read before any parenthesis. -/
theorem Settled.constant {f : List Char → Reading} {s : List Char} {r : Reading}
    (hr : r.2 ≤ s.length) (h : ∀ t, f (s ++ t) = r) {cs : List Char} : Settled f (s ++ cs) := by
  refine .inl ⟨?_, fun rest => by rw [List.append_assoc, h, h]⟩
  rw [h, List.length_append]
  exact Nat.le_add_right_of_le hr

/-! ## Counts -/

theorem modeOf_closing (cs rest : List Char) : modeOf (cs ++ ')' :: rest) = modeOf cs := by
  cases cs with
  | nil => rfl
  | cons c cs =>
    unfold modeOf
    split <;> simp_all

theorem modeOf_le (cs : List Char) : (modeOf cs).2 ≤ cs.length := by
  unfold modeOf
  split <;> simp

/-- A parenthesis changes no count. -/
theorem readCount_closing (min : Nat) (max : Option Nat) (extra : Nat) (cs rest : List Char) :
    readCount min max extra (cs ++ ')' :: rest) = readCount min max extra cs := by
  rw [readCount, readCount, modeOf_closing]

theorem readCount_le (min : Nat) (max : Option Nat) (extra : Nat) (cs : List Char) :
    (readCount min max extra cs).2 ≤ extra + cs.length :=
  Nat.add_le_add_left (modeOf_le cs) extra

theorem readBounds_closing (lo hi : List Char) (extra : Nat) (cs rest : List Char) :
    readBounds lo hi extra (cs ++ ')' :: rest) = readBounds lo hi extra cs := by
  simp only [readBounds, readCount_closing]

theorem readBounds_le (lo hi : List Char) (extra : Nat) (cs : List Char) :
    (readBounds lo hi extra cs).2 ≤ extra + cs.length := by
  unfold readBounds
  split
  · exact Nat.zero_le _
  · exact Nat.zero_le _
  · dsimp only
    generalize (if hi.isEmpty then none else some (numberIn 10 hi)) = max
    split
    · exact Nat.zero_le _
    · exact readCount_le ..

/-- Digits end before a parenthesis. -/
theorem takeWhile_digits_closing (cs rest : List Char) :
    (cs ++ ')' :: rest).takeWhile isAsciiDigit = cs.takeWhile isAsciiDigit := by
  induction cs with
  | nil => rfl
  | cons c cs ih => simp only [List.cons_append, List.takeWhile_cons, ih]

theorem dropWhile_digits_closing (cs rest : List Char) :
    (cs ++ ')' :: rest).dropWhile isAsciiDigit = cs.dropWhile isAsciiDigit ++ ')' :: rest := by
  induction cs with
  | nil => rfl
  | cons c cs ih =>
    simp only [List.cons_append, List.dropWhile_cons, ih]
    split <;> rfl

theorem length_digits (cs : List Char) :
    (cs.takeWhile isAsciiDigit).length + (cs.dropWhile isAsciiDigit).length = cs.length := by
  rw [← List.length_append, List.takeWhile_append_dropWhile]

theorem readBrace_settled (cs : List Char) : Settled readBrace cs := by
  have hlo := length_digits cs
  refine .inl ⟨?_, fun rest => ?_⟩
  · unfold readBrace
    dsimp only
    split
    · next after hafter =>
      rw [hafter, List.length_cons] at hlo
      split
      · exact Nat.zero_le _
      · have := readBounds_le (cs.takeWhile isAsciiDigit) (cs.takeWhile isAsciiDigit)
          ((cs.takeWhile isAsciiDigit).length + 1) after
        omega
    · next tail htail =>
      rw [htail, List.length_cons] at hlo
      have hhi := length_digits tail
      split
      · next after hafter =>
        rw [hafter, List.length_cons] at hhi
        have := readBounds_le (cs.takeWhile isAsciiDigit) (tail.takeWhile isAsciiDigit)
          ((cs.takeWhile isAsciiDigit).length + (tail.takeWhile isAsciiDigit).length + 2) after
        omega
      · exact Nat.zero_le _
    · exact Nat.zero_le _
  · unfold readBrace
    dsimp only
    rw [takeWhile_digits_closing, dropWhile_digits_closing]
    cases cs.dropWhile isAsciiDigit with
    | nil => rfl
    | cons d tail =>
      rw [List.cons_append]
      by_cases hbrace : d = '}'
      · subst hbrace
        simp only [readBounds_closing]
      · by_cases hcomma : d = ','
        · subst hcomma
          simp only [takeWhile_digits_closing, dropWhile_digits_closing]
          cases tail.dropWhile isAsciiDigit with
          | nil => rfl
          | cons d' after =>
            rw [List.cons_append]
            by_cases hbrace : d' = '}'
            · subst hbrace
              simp only [readBounds_closing]
            · simp [hbrace]
        · simp [hbrace, hcomma]

/-! ## Escapes -/

/-- A text with another character than digits is no number. -/
theorem hexNumber?_eq_none {c : Char} (hc : hexValue? c = none) {cs : List Char} (h : c ∈ cs) :
    hexNumber? cs = none := by
  unfold hexNumber?
  generalize 0 = n
  induction cs generalizing n with
  | nil => cases h
  | cons d cs ih =>
    rw [List.foldlM_cons]
    rcases List.mem_cons.1 h with rfl | h
    · rw [hc]
      rfl
    · cases hexValue? d with
      | none => rfl
      | some d => exact ih h _

/-- The digits that are asked for stand before a parenthesis or not at all. -/
theorem fixedHex?_closing (width : Nat) (cs rest : List Char) :
    fixedHex? width (cs ++ ')' :: rest) = fixedHex? width cs := by
  unfold fixedHex?
  by_cases hwidth : width ≤ cs.length
  · have hlonger : width ≤ (cs ++ ')' :: rest).length := by
      rw [List.length_append]
      omega
    rw [if_pos hwidth, if_pos hlonger, List.take_append_of_le_length hwidth]
  · rw [if_neg hwidth]
    split
    · -- Too few characters stand before the parenthesis, so it would be one of the digits.
      refine hexNumber?_eq_none (c := ')') rfl ?_
      rw [List.take_append]
      obtain ⟨n, hn⟩ : ∃ n, width - cs.length = n + 1 := ⟨width - cs.length - 1, by omega⟩
      rw [hn, List.take_succ_cons]
      exact List.mem_append_right _ List.mem_cons_self
    · rfl

theorem fixedHex?_le {width n : Nat} {cs : List Char} (h : fixedHex? width cs = some n) :
    width ≤ cs.length := by
  unfold fixedHex? at h
  split at h
  · assumption
  · cases h

theorem fixedCode_closing (width : Nat) (cs rest : List Char) :
    fixedCode width (cs ++ ')' :: rest) = fixedCode width cs := by
  rw [fixedCode, fixedCode, fixedHex?_closing]

theorem fixedCode_le {width n extra : Nat} {cs : List Char}
    (h : fixedCode width cs = .ok (n, extra)) : extra ≤ cs.length := by
  unfold fixedCode at h
  split at h
  · next hhex =>
    cases h
    exact fixedHex?_le hhex
  · cases h

theorem longCode_closing (cs rest : List Char) : longCode (cs ++ ')' :: rest) = longCode cs := by
  rw [longCode, longCode, fixedCode_closing]

theorem longCode_le {n extra : Nat} {cs : List Char} (h : longCode cs = .ok (n, extra)) :
    extra ≤ cs.length := by
  obtain ⟨⟨m, digits⟩, hcode, h⟩ := bind_eq_ok.1 h
  dsimp only at h
  split at h
  · cases h
    exact fixedCode_le hcode
  · split at h <;> cases h

/-- The name of a character ends before a parenthesis. -/
theorem takeWhile_isNamePart_closing (cs rest : List Char) :
    (cs ++ ')' :: rest).takeWhile isNamePart = cs.takeWhile isNamePart := by
  induction cs with
  | nil => rfl
  | cons c cs ih => simp only [List.cons_append, List.takeWhile_cons, ih]

/-- A brace behind the name stands before the parenthesis. -/
theorem head?_dropWhile_isNamePart_closing (cs rest : List Char) :
    ((cs ++ ')' :: rest).dropWhile isNamePart).head? = some '}' ↔
      (cs.dropWhile isNamePart).head? = some '}' := by
  induction cs with
  | nil => simp [isNamePart, isAsciiLetter, isAsciiDigit]
  | cons c cs ih =>
    rw [List.cons_append, List.dropWhile_cons, List.dropWhile_cons]
    split
    · exact ih
    · simp

theorem namedCode_closing [CharacterNames] (cs rest : List Char) :
    namedCode (cs ++ ')' :: rest) = namedCode cs := by
  cases cs with
  | nil => rfl
  | cons c cs =>
    by_cases hbrace : c = '{'
    · subst hbrace
      simp only [List.cons_append, namedCode, takeWhile_isNamePart_closing,
        head?_dropWhile_isNamePart_closing]
    · simp [namedCode, hbrace]

theorem namedCode_le [CharacterNames] {cs : List Char} {n extra : Nat}
    (h : namedCode cs = .ok (n, extra)) : extra ≤ cs.length := by
  unfold namedCode at h
  split at h
  · next cs =>
    dsimp only at h
    split at h
    · next hname =>
      split at h
      · cases h
        -- The brace that ends the name stands behind it.
        have hsplit := congrArg List.length
          (List.takeWhile_append_dropWhile (p := isNamePart) (l := cs))
        have hrest : cs.dropWhile isNamePart ≠ [] := by
          intro hnil
          rw [hnil] at hname
          cases hname.2
        have := List.length_pos_iff.2 hrest
        rw [List.length_append] at hsplit
        rw [List.length_cons]
        omega
      · cases h
    · cases h
  · cases h

theorem codeEscape_closing [CharacterNames] (letter : Char) (cs rest : List Char) :
    codeEscape letter (cs ++ ')' :: rest) = codeEscape letter cs := by
  unfold codeEscape
  simp only [fixedCode_closing, longCode_closing, namedCode_closing]

theorem codeEscape_le [CharacterNames] {letter : Char} {cs : List Char} {n extra : Nat}
    (h : codeEscape letter cs = .ok (n, extra)) : extra ≤ cs.length := by
  unfold codeEscape at h
  split at h
  · exact fixedCode_le h
  · exact fixedCode_le h
  · exact longCode_le h
  · exact namedCode_le h

/-- Octal digits end before a parenthesis. -/
theorem octalDigits_closing (cs rest : List Char) :
    ((cs ++ ')' :: rest).take 2).takeWhile isOctalDigit = (cs.take 2).takeWhile isOctalDigit := by
  match cs with
  | [] => rfl
  | [c] =>
    show [c, ')'].takeWhile isOctalDigit = [c].takeWhile isOctalDigit
    simp only [List.takeWhile_cons]
    rfl
  | c :: d :: cs => rfl

theorem octalDigits_le (cs : List Char) :
    ((cs.take 2).takeWhile isOctalDigit).length ≤ cs.length := by
  have htake : (cs.take 2).length ≤ cs.length := List.length_take_le' 2 cs
  exact Nat.le_trans (List.takeWhile_sublist _).length_le htake

theorem readNumber_closing (d : Char) (cs rest : List Char) :
    readNumber d (cs ++ ')' :: rest) = readNumber d cs := by
  have hoctal : isOctalDigit ')' = false := by decide
  have hdigit : isAsciiDigit ')' = false := by decide
  match cs with
  | [] => cases rest <;> simp [readNumber, hoctal, hdigit]
  | [c] => simp [readNumber, hoctal]
  | c :: e :: cs => rfl

theorem readNumber_le (d : Char) (cs : List Char) : (readNumber d cs).2 ≤ cs.length + 1 := by
  unfold readNumber
  split
  · split
    · dsimp only
      split <;> simp [Reading.char, Reading.fault]
    · split <;> simp
  · split <;> simp
  · simp

/-- An escape takes the parenthesis only where nothing else stands behind the backslash. -/
theorem readEscape_settled [CharacterNames] (cs : List Char) : Settled readEscape cs := by
  cases cs with
  | nil => exact .inr (.inr ⟨Nat.zero_lt_one, by rintro l ⟨⟩; rfl⟩)
  | cons d ds =>
    refine .inl ⟨?_, fun rest => ?_⟩
    · rw [readEscape]
      split
      · exact Nat.succ_le_succ (Nat.zero_le _)
      · exact Nat.succ_le_succ (Nat.zero_le _)
      · exact Nat.succ_le_succ (Nat.zero_le _)
      · split
        · split
          · next hcode =>
            have := codeEscape_le hcode
            simp only [Reading.char, List.length_cons]
            omega
          · exact Nat.zero_le _
        · split
          · have := octalDigits_le ds
            simp only [Reading.char, List.length_cons]
            omega
          · split
            · exact readNumber_le d ds
            · split
              · exact Nat.zero_le _
              · exact Nat.succ_le_succ (Nat.zero_le _)
    · rw [List.cons_append]
      simp only [readEscape, codeEscape_closing, octalDigits_closing, readNumber_closing]

/-! ## Sets -/

theorem SetAtom.ofEscape_closing [CharacterNames] (d : Char) (ds rest : List Char) :
    ofEscape (d :: (ds ++ ')' :: rest)) = ofEscape (d :: ds) := by
  simp only [ofEscape, codeEscape_closing, octalDigits_closing]

/-- A set that ends before a parenthesis is read up to its end, and one that does not is not ended
by the parenthesis. -/
def SetAtom.Settled (f : List Char → List SetAtom × Except SyntaxFault Nat) (cs : List Char) :
    Prop :=
  (∃ atoms n, n ≤ cs.length ∧ f cs = (atoms, .ok n) ∧
      ∀ rest, f (cs ++ ')' :: rest) = (atoms, .ok n)) ∨
    ∃ fault, (f (cs ++ [')'])).2 = .error fault

/-- One more character before a set. -/
theorem SetAtom.Settled.cons {f g : List Char → List SetAtom × Except SyntaxFault Nat}
    {cs : List Char} (h : SetAtom.Settled g cs) (c : Char) (atoms : List SetAtom)
    (halone : f (c :: cs) = before atoms (g cs))
    (hclosing : ∀ rest, f (c :: (cs ++ ')' :: rest)) = before atoms (g (cs ++ ')' :: rest))) :
    SetAtom.Settled f (c :: cs) := by
  rcases h with ⟨as, n, hn, hread, hrest⟩ | ⟨fault, hfault⟩
  · refine .inl ⟨atoms ++ as, n + 1, Nat.succ_le_succ hn, ?_, fun rest => ?_⟩
    · rw [halone, hread]
      rfl
    · rw [List.cons_append, hclosing, hrest]
      rfl
  · refine .inr ⟨fault, ?_⟩
    rw [List.cons_append, hclosing, before, hfault]
    rfl

theorem SetAtom.read_escape [CharacterNames] (first : Bool) (cs : List Char) :
    read first 0 ('\\' :: cs) =
      match ofEscape cs with
      | .error fault => ([], .error fault)
      | .ok (atom, extra) => before [atom] (read false extra cs) := rfl

theorem SetAtom.read_settled [CharacterNames] (first : Bool) (skip : Nat) (cs : List Char) :
    SetAtom.Settled (read first skip) cs := by
  induction cs generalizing first skip with
  | nil => cases skip <;> exact .inr ⟨_, rfl⟩
  | cons c cs ih =>
    cases skip with
    | succ skip => exact (ih first skip).cons c [] rfl fun _ => rfl
    | zero =>
      by_cases hend : (c = ']' && !first) = true
      · refine .inl ⟨[], 1, Nat.succ_le_succ (Nat.zero_le _), ?_, fun rest => ?_⟩
        · rw [read, if_pos hend]
        · rw [List.cons_append, read, if_pos hend]
      · by_cases hescape : c = '\\'
        · subst hescape
          cases cs with
          | nil => exact .inr ⟨.unterminatedSet, congrArg Prod.snd (read_escape first [')'])⟩
          | cons d ds =>
            cases hatom : ofEscape (d :: ds) with
            | error fault =>
              refine .inr ⟨fault, ?_⟩
              rw [List.cons_append, read_escape, List.cons_append, ofEscape_closing, hatom]
            | ok result =>
              refine (ih false result.2).cons '\\' [result.1] ?_ fun rest => ?_
              · rw [read_escape, hatom]
              · rw [read_escape, List.cons_append, ofEscape_closing, hatom]
        · have hstep : ∀ t, read first 0 (c :: t) =
              before [if c = '-' then .dash else .code c.toNat] (read false 0 t) := by
            intro t
            rw [read, if_neg hend, if_neg hescape]
          exact (ih false 0).cons c _ (hstep cs) fun rest => hstep _

theorem readSet_circumflex [CharacterNames] (cs : List Char) :
    readSet ('^' :: cs) = setReading true (SetAtom.read true 0 cs) := rfl

theorem readSet_of_ne [CharacterNames] {cs : List Char} (h : cs.head? ≠ some '^') :
    readSet cs = setReading false (SetAtom.read true 0 cs) := by
  unfold readSet
  split
  · exact absurd rfl h
  · rfl

theorem setReading_settled [CharacterNames] (negated : Bool) (cs : List Char) :
    ((setReading negated (SetAtom.read true 0 cs)).2 ≤ cs.length + (if negated then 1 else 0) ∧
      ∀ rest, setReading negated (SetAtom.read true 0 (cs ++ ')' :: rest))
        = setReading negated (SetAtom.read true 0 cs)) ∨
      ∃ f, (setReading negated (SetAtom.read true 0 (cs ++ [')']))).1 = some (.fault f) := by
  rcases SetAtom.read_settled true 0 cs with ⟨atoms, n, hn, hread, hrest⟩ | ⟨fault, hfault⟩
  · refine .inl ⟨?_, fun rest => by rw [hread, hrest]⟩
    rw [hread]
    unfold setReading
    split
    · exact Nat.zero_le _
    · exact Nat.zero_le _
    · next heq =>
      cases heq
      exact Nat.add_le_add_right hn _
  · refine .inr ?_
    unfold setReading
    split
    · exact ⟨_, rfl⟩
    · exact ⟨_, rfl⟩
    · next heq =>
      rw [hfault] at heq
      cases heq

theorem readSet_settled [CharacterNames] (cs : List Char) : Settled readSet cs := by
  cases cs with
  | nil => exact .inr (.inl ⟨.unterminatedSet, rfl⟩)
  | cons c cs =>
    by_cases hc : c = '^'
    · subst hc
      refine (setReading_settled true cs).imp (fun h => ?_) fun h => .inl h
      exact ⟨h.1, h.2⟩
    · have hset : ∀ t, readSet (c :: t) = setReading false (SetAtom.read true 0 (c :: t)) :=
        fun t => readSet_of_ne (by simpa using hc)
      rcases setReading_settled false (c :: cs) with ⟨hle, hrest⟩ | hfault
      · refine .inl ⟨?_, fun rest => ?_⟩
        · rw [hset]
          exact hle
        · rw [List.cons_append, hset, hset]
          exact hrest rest
      · refine .inr (.inl ?_)
        rw [List.cons_append, hset]
        exact hfault

/-! ## Openings and comments -/

/-- A comment ends before the parenthesis, or not before it. -/
theorem commentLength?_closing (cs : List Char) :
    (∃ n ≤ cs.length, commentLength? cs = some n ∧
      ∀ rest, commentLength? (cs ++ ')' :: rest) = some n) ∨
    (commentLength? cs = none ∧ ∀ n, commentLength? (cs ++ [')']) = some n → cs.length < n) := by
  induction cs using commentLength?.induct with
  | case1 c cs ih =>
    rcases ih with ⟨n, hn, halone, hrest⟩ | ⟨halone, hover⟩
    · refine .inl ⟨n + 2, Nat.add_le_add_right hn 2, ?_, fun rest => ?_⟩
      · rw [commentLength?, halone]
        rfl
      · rw [List.cons_append, List.cons_append, commentLength?, hrest]
        rfl
    · refine .inr ⟨by rw [commentLength?, halone]; rfl, fun n hn => ?_⟩
      rw [List.cons_append, List.cons_append, commentLength?, Option.map_eq_some_iff] at hn
      obtain ⟨m, hm, rfl⟩ := hn
      exact Nat.add_lt_add_right (hover m hm) 2
  | case2 cs hbackslash =>
    refine .inl ⟨1, Nat.succ_le_succ (Nat.zero_le _), ?_, fun rest => ?_⟩ <;>
      rfl
  | case3 c cs hbackslash hc ih =>
    by_cases hescape : c = '\\'
    · -- A backslash at the end of the text takes the parenthesis along.
      obtain rfl : cs = [] := by
        cases cs with
        | nil => rfl
        | cons d ds => exact (hbackslash d ds hescape rfl).elim
      subst hescape
      exact .inr ⟨rfl, fun n hn => by cases hn⟩
    · have hstep : ∀ t, commentLength? (c :: t) = (commentLength? t).map (· + 1) := by
        intro t
        rw [commentLength?, if_neg hc]
        exact fun d ds heq _ => hescape heq
      rcases ih with ⟨n, hn, halone, hrest⟩ | ⟨halone, hover⟩
      · refine .inl ⟨n + 1, Nat.add_le_add_right hn 1, by rw [hstep, halone]; rfl, fun rest => ?_⟩
        rw [List.cons_append, hstep, hrest]
        rfl
      · refine .inr ⟨by rw [hstep, halone]; rfl, fun n hn => ?_⟩
        rw [List.cons_append, hstep, Option.map_eq_some_iff] at hn
        obtain ⟨m, hm, rfl⟩ := hn
        exact Nat.add_lt_add_right (hover m hm) 1
  | case4 => exact .inr ⟨rfl, fun n hn => by cases hn; exact Nat.zero_lt_one⟩

/-- The name of a group ends before the parenthesis, or the parenthesis is in it. -/
theorem readOpening_named_settled (cs : List Char) :
    Settled readOpening ('?' :: 'P' :: '<' :: cs) := by
  have hread : ∀ t, readOpening ('?' :: 'P' :: '<' :: t) =
      if (t.takeWhile (· != '>')).length < t.length && isIdentifier (t.takeWhile (· != '>')) then
        (some (.opening (.capture (some (t.takeWhile (· != '>'))))),
          (t.takeWhile (· != '>')).length + 4)
      else Reading.fault .badGroupName := fun t => rfl
  by_cases hend : '>' ∈ cs
  · obtain ⟨name, after, rfl, hname⟩ := List.eq_append_cons_of_mem hend
    have htake : ∀ t, (name ++ '>' :: t).takeWhile (· != '>') = name := fun t => by
      have hbefore : ∀ c ∈ name, (c != '>') = true := fun c hc =>
        bne_iff_ne.2 (ne_of_mem_of_not_mem hc hname)
      rw [List.takeWhile_append_of_pos hbefore]
      simp
    have hlength : ∀ t : List Char, name.length < (name ++ '>' :: t).length := fun t => by simp
    refine .inl ⟨?_, fun rest => ?_⟩
    · rw [hread, htake]
      split
      · have := hlength after
        simp only [List.length_cons]
        omega
      · exact Nat.zero_le _
    · show readOpening ('?' :: 'P' :: '<' :: (name ++ '>' :: after ++ ')' :: rest)) = _
      rw [List.append_assoc, List.cons_append, hread, hread, htake, htake]
      simp only [decide_eq_true (hlength _)]
  · -- Without a bracket the name would not end.
    have htake : (cs ++ [')']).takeWhile (· != '>') = cs ++ [')'] := by
      refine List.takeWhile_eq_self_iff.2 fun c hc => bne_iff_ne.2 (ne_of_mem_of_not_mem hc ?_)
      simp [hend]
    refine .inr (.inl ⟨.badGroupName, ?_⟩)
    show (readOpening ('?' :: 'P' :: '<' :: (cs ++ [')']))).1 = _
    rw [hread, htake, decide_eq_false (Nat.lt_irrefl _)]
    rfl

/-- What stands behind the question mark of an opening is read before any parenthesis, or the
parenthesis spoils it. -/
theorem readOpening_mark_settled (d : Char) (cs : List Char) :
    Settled readOpening ('?' :: d :: cs) := by
  by_cases hplain : d = ':'
  · subst hplain
    exact .constant (s := ['?', ':']) (r := (some (.opening .plain), 2)) (Nat.le_refl 2)
      fun _ => rfl
  by_cases hatomic : d = '>'
  · subst hatomic
    exact .constant (s := ['?', '>']) (r := (some (.opening .atomic), 2)) (Nat.le_refl 2)
      fun _ => rfl
  by_cases hahead : d = '='
  · subst hahead
    exact .constant (s := ['?', '=']) (r := (some (.opening .ahead), 2)) (Nat.le_refl 2)
      fun _ => rfl
  by_cases hcomment : d = '#'
  · subst hcomment
    have hread : ∀ t, readOpening ('?' :: '#' :: t) =
        (commentLength? t).elim (Reading.fault .unterminatedComment) (none, · + 2) := by
      intro t
      rw [readOpening]
      cases commentLength? t <;> rfl
    rcases commentLength?_closing cs with ⟨n, hn, halone, hrest⟩ | ⟨-, hover⟩
    · refine .inl ⟨?_, fun rest => ?_⟩
      · rw [hread, halone]
        exact Nat.add_le_add_right hn 2
      · rw [List.cons_append, List.cons_append, hread, hread, halone, hrest]
    · refine .inr ?_
      rw [List.cons_append, List.cons_append, hread]
      cases hlength : commentLength? (cs ++ [')']) with
      | none => exact .inl ⟨_, rfl⟩
      | some n => exact .inr ⟨Nat.add_lt_add_right (hover n hlength) 2, nofun⟩
  by_cases hname : d = 'P'
  · subst hname
    cases cs with
    | nil => exact .inl ⟨Nat.zero_le _, fun _ => rfl⟩
    | cons e cs =>
      by_cases hangle : e = '<'
      · subst hangle
        exact readOpening_named_settled cs
      · refine .constant (s := ['?', 'P', e]) (r := .fault .unknownGroup) (Nat.zero_le _)
          fun t => ?_
        unfold readOpening
        split <;> simp_all
  refine .constant (s := ['?', d]) (r := .fault .unknownGroup) (Nat.zero_le _) fun t => ?_
  unfold readOpening
  split <;> simp_all

/-- An opening is read before any parenthesis, or the parenthesis spoils it. -/
theorem readOpening_settled (cs : List Char) : Settled readOpening cs := by
  cases cs with
  | nil => exact .inl ⟨Nat.zero_le _, fun _ => rfl⟩
  | cons c cs =>
    by_cases hc : c = '?'
    · subst hc
      cases cs with
      | nil => exact .inl ⟨Nat.zero_le _, fun _ => rfl⟩
      | cons d ds => exact readOpening_mark_settled d ds
    · refine .constant (s := [c]) (r := (some (.opening (.capture none)), 0)) (Nat.zero_le _) ?_
      intro t
      unfold readOpening
      split <;> simp_all

/-! ## Lexemes -/

theorem readCount_settled (min : Nat) (max : Option Nat) (cs : List Char) :
    Settled (readCount min max 0) cs := by
  refine .inl ⟨?_, readCount_closing min max 0 cs⟩
  have := readCount_le min max 0 cs
  omega

/-- A lexeme is read before any parenthesis, or the parenthesis spoils it. -/
theorem readLexeme_settled [CharacterNames] (c : Char) (cs : List Char) :
    Settled (readLexeme c) cs := by
  by_cases hsyntax : isSyntax c = true
  · have hmem : c ∈ "\\.^$|()[*+?\x7b".toList := List.contains_iff_mem.1 hsyntax
    have hcases : c = '\\' ∨ c = '.' ∨ c = '^' ∨ c = '$' ∨ c = '|' ∨ c = '(' ∨ c = ')' ∨ c = '[' ∨
        c = '*' ∨ c = '+' ∨ c = '?' ∨ c = '\x7b' := by
      simpa using hmem
    rcases hcases with rfl | rfl | rfl | rfl | rfl | rfl | rfl | rfl | rfl | rfl | rfl | rfl
    · exact readEscape_settled cs
    · exact .inl ⟨Nat.zero_le _, fun _ => rfl⟩
    · exact .inl ⟨Nat.zero_le _, fun _ => rfl⟩
    · exact .inl ⟨Nat.zero_le _, fun _ => rfl⟩
    · exact .inl ⟨Nat.zero_le _, fun _ => rfl⟩
    · exact readOpening_settled cs
    · exact .inl ⟨Nat.zero_le _, fun _ => rfl⟩
    · exact readSet_settled cs
    · exact readCount_settled 0 none cs
    · exact readCount_settled 1 none cs
    · exact readCount_settled 0 (some 1) cs
    · exact readBrace_settled cs
  · refine .constant (s := []) (r := .char c.toNat 0) (Nat.le_refl 0) fun t => ?_
    unfold readLexeme
    split <;> first | rfl | exact absurd (by decide) hsyntax

/-- The lexemes open and end no group. -/
def Unnested (ls : List Lexeme) : Prop := ∀ l ∈ ls, l.isParenthesis = false

instance (ls : List Lexeme) : Decidable (Unnested ls) :=
  inferInstanceAs (Decidable (∀ l ∈ ls, l.isParenthesis = false))

/-- A text without parentheses of its own is read before a parenthesis as it is read alone; else a
parenthesis behind it ends no group. -/
theorem lexemes_closing [CharacterNames] (cs : List Char) (h : Unnested (lexemes cs)) :
    (∀ rest, lexemes (cs ++ ')' :: rest) = lexemes cs ++ .closing :: lexemes rest) ∨
      Unnested (lexemes (cs ++ [')'])) ∨ ∃ f, .fault f ∈ lexemes (cs ++ [')']) := by
  -- Lexemes take several characters, so the induction is on the length of the text.
  induction hn : cs.length using Nat.strong_induction_on generalizing cs with
  | _ n ih =>
    cases cs with
    | nil => exact .inl fun rest => by rw [List.nil_append, lexemes_cons (n := 0) rfl]; rfl
    | cons c cs =>
      rcases readLexeme_settled c cs with ⟨hle, hrest⟩ | ⟨f, hfault⟩ | ⟨hover, hno⟩
      · rw [lexemes_cons_eq] at h
        have hsplit : ∀ rest, lexemes (c :: cs ++ ')' :: rest) = (readLexeme c cs).1.toList ++
            lexemes (cs.drop (readLexeme c cs).2 ++ ')' :: rest) := by
          intro rest
          rw [List.cons_append, lexemes_cons_eq, hrest, List.drop_append_of_le_length hle]
        have hafter := ih _ (by rw [← hn, List.length_drop, List.length_cons]; omega)
          (cs.drop (readLexeme c cs).2) (fun l hl => h l (List.mem_append_right _ hl)) rfl
        rcases hafter with hclosed | hunnested | ⟨f, hfault⟩
        · refine .inl fun rest => ?_
          rw [hsplit, hclosed, lexemes_cons_eq c cs, List.append_assoc]
        · refine .inr (.inl ?_)
          rw [hsplit]
          exact List.forall_mem_append.2 ⟨fun l hl => h l (List.mem_append_left _ hl), hunnested⟩
        · exact .inr (.inr ⟨f, by rw [hsplit]; exact List.mem_append_right _ hfault⟩)
      · refine .inr (.inr ⟨f, ?_⟩)
        rw [List.cons_append, lexemes_cons_eq, hfault]
        exact List.mem_append_left _ List.mem_cons_self
      · refine .inr (.inl ?_)
        rw [List.cons_append, lexemes_cons_eq,
          List.drop_eq_nil_of_le (by rw [List.length_append]; exact hover), lexemes_nil,
          List.append_nil]
        exact fun l hl => hno l (Option.mem_toList.1 hl)

end SiteRouter.Regex
