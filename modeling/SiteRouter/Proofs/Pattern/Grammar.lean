import Mathlib.Data.List.Nodup
import Mathlib.Data.List.TakeWhile
import SiteRouter.Proofs.Pattern.Segment
import SiteRouter.Proofs.Pattern.Tokens

/-!
# Which texts are patterns

A text without a backslash is a pattern exactly if its parentheses open and close in turn with a
character between the two, and no name after a colon outside them comes twice. `Alternating` and
`outerNames` say this of the text alone; the text is read in pieces, whose boundaries follow other
rules. `Passes` ties the two together: it says of the text of a piece that no parenthesis is left
open in it and which names it has, and it composes, from the parts of a capture to a piece and from
there to all pieces. The reader then refuses just the pieces that it should (`parse_eq_error_iff`).
-/

namespace SiteRouter.Pattern

open Text

/-! ## The grammar -/

/-- Parentheses open and close in turn, and there is a character between the two. -/
inductive Alternating : List Char → Prop
  /-- Nothing is left. -/
  | nil : Alternating []
  /-- A character outside. -/
  | outside {c : Char} {cs : List Char} : c ≠ '(' → c ≠ ')' → Alternating cs → Alternating (c :: cs)
  /-- A pair of parentheses with characters between them. -/
  | enclosed {body cs : List Char} : body ≠ [] → '(' ∉ body → ')' ∉ body → Alternating cs →
    Alternating ('(' :: (body ++ ')' :: cs))

/-- The longest runs of word characters right after the colons outside parentheses; the text starts
inside some if `inside` says so. -/
def namesFrom : Bool → List Char → List (List Char)
  | _, [] => []
  | inside, c :: cs =>
    if c = '(' then namesFrom true cs
    else if c = ')' then namesFrom false cs
    else if inside = false ∧ c = ':' ∧ cs.takeWhile isWord ≠ [] then
      cs.takeWhile isWord :: namesFrom inside cs
    else namesFrom inside cs

/-- The names of a text: the longest runs of word characters right after the colons outside
parentheses. -/
def outerNames (cs : List Char) : List (List Char) := namesFrom false cs

/-! ## Names of a text -/

/-- Between parentheses there is no name. -/
theorem namesFrom_enclosed {body : List Char} (hopen : '(' ∉ body) (hclose : ')' ∉ body)
    (cs : List Char) : namesFrom true (body ++ ')' :: cs) = outerNames cs := by
  induction body with
  | nil => rfl
  | cons c body ih =>
    rw [List.mem_cons, not_or] at hopen hclose
    have hnot : ¬(true = false ∧ c = ':' ∧ (body ++ ')' :: cs).takeWhile isWord ≠ []) := nofun
    rw [List.cons_append, namesFrom, if_neg (Ne.symm hopen.1), if_neg (Ne.symm hclose.1),
      if_neg hnot, ih hopen.2 hclose.2]

/-- Names are looked for behind the parentheses. -/
theorem outerNames_enclosed {body : List Char} (hopen : '(' ∉ body) (hclose : ')' ∉ body)
    (cs : List Char) : outerNames ('(' :: (body ++ ')' :: cs)) = outerNames cs := by
  unfold outerNames
  rw [namesFrom, if_pos rfl]
  exact namesFrom_enclosed hopen hclose cs

/-- A character outside that is no colon starts no name. -/
theorem outerNames_cons {c : Char} (hopen : c ≠ '(') (hclose : c ≠ ')') (hcolon : c ≠ ':')
    (cs : List Char) : outerNames (c :: cs) = outerNames cs := by
  unfold outerNames
  rw [namesFrom, if_neg hopen, if_neg hclose, if_neg fun h => hcolon h.2.1]

/-- A colon starts the name after it, if there is one. -/
theorem outerNames_colon (cs : List Char) :
    outerNames (':' :: cs) =
      if cs.takeWhile isWord = [] then outerNames cs
      else cs.takeWhile isWord :: outerNames cs := by
  unfold outerNames
  rw [namesFrom, if_neg (by decide), if_neg (by decide)]
  by_cases h : cs.takeWhile isWord = []
  · rw [if_neg fun hname => hname.2.2 h, if_pos h]
  · rw [if_pos ⟨rfl, rfl, h⟩, if_neg h]

/-- A word character is no parenthesis and no colon. -/
theorem ne_of_isWord {c : Char} (h : isWord c = true) : c ≠ '(' ∧ c ≠ ')' ∧ c ≠ ':' := by
  refine ⟨?_, ?_, ?_⟩ <;> rintro rfl <;> exact absurd h (by decide)

/-! ## Groups -/

/-- Without a backslash a sub-pattern is what stands before the parenthesis that comes first, if it
is a closing one. -/
theorem bodyOf?_eq_some_iff {cs body : List Char} (hslash : '\\' ∉ cs) :
    bodyOf? cs = some body ↔
      ('(' ∉ body ∧ ')' ∉ body) ∧ ∃ rest, cs = body ++ ')' :: rest := by
  constructor
  · intro h
    induction cs generalizing body with
    | nil => cases h
    | cons c cs ih =>
      rw [List.mem_cons, not_or] at hslash
      by_cases hclose : c = ')'
      · subst hclose
        obtain rfl : [] = body := Option.some.inj h
        exact ⟨⟨List.not_mem_nil, List.not_mem_nil⟩, cs, rfl⟩
      · have hread : bodyOf? (c :: cs) =
            if c = '(' || c = '\\' then none else (bodyOf? cs).map (c :: ·) :=
          bodyOf?.eq_3 c cs hclose fun d rest heq _ => hslash.1 heq.symm
        rw [hread] at h
        split at h
        · cases h
        · next hopen =>
          have hopen : c ≠ '(' := fun heq => hopen (by simp [heq])
          obtain ⟨body, hbody, rfl⟩ := Option.map_eq_some_iff.1 h
          obtain ⟨⟨hnoOpen, hnoClose⟩, rest, rfl⟩ := ih hslash.2 hbody
          refine ⟨⟨?_, ?_⟩, rest, rfl⟩
          · exact fun hmem => (List.mem_cons.1 hmem).elim (fun heq => hopen heq.symm) hnoOpen
          · exact fun hmem => (List.mem_cons.1 hmem).elim (fun heq => hclose heq.symm) hnoClose
  · rintro ⟨⟨hopen, hclose⟩, rest, rfl⟩
    refine bodyOf?_plain (fun c hc => ?_) rest
    have hopen : c ≠ '(' := ne_of_mem_of_not_mem hc hopen
    have hclose : c ≠ ')' := ne_of_mem_of_not_mem hc hclose
    have hslash : c ≠ '\\' := ne_of_mem_of_not_mem (List.mem_append_left _ hc) hslash
    simp [Segment.isPlainBody, hopen, hclose, hslash]

/-- Without a backslash a group is a pair of parentheses with characters between them. -/
theorem groupOf?_eq_some_iff {cs body : List Char} (hslash : '\\' ∉ cs) :
    groupOf? ('(' :: cs) = some body ↔
      body ≠ [] ∧ ('(' ∉ body ∧ ')' ∉ body) ∧ ∃ rest, cs = body ++ ')' :: rest := by
  rw [← bodyOf?_eq_some_iff hslash, groupOf?]
  cases bodyOf? cs with
  | none => simp
  | some found =>
    cases found with
    | nil =>
      constructor
      · intro heq
        cases heq
      · rintro ⟨hne, heq⟩
        exact absurd (Option.some.inj heq).symm hne
    | cons c found =>
      constructor
      · intro heq
        obtain rfl := Option.some.inj heq
        exact ⟨List.cons_ne_nil c found, rfl⟩
      · exact fun h => h.2

/-- What follows a group. -/
theorem drop_enclosed (body rest : List Char) :
    (body ++ ')' :: rest).drop (body.length + 1) = rest := by
  rw [← List.drop_drop, List.drop_left, List.drop_succ_cons, List.drop_zero]

/-- A parenthesis that opens is one of a group, and the text behind the group goes on in turn. -/
theorem alternating_open_iff {cs : List Char} (hslash : '\\' ∉ cs) :
    Alternating ('(' :: cs) ↔
      ∃ body, groupOf? ('(' :: cs) = some body ∧ Alternating (cs.drop (body.length + 1)) := by
  constructor
  · generalize htext : '(' :: cs = text
    intro h
    cases h with
    | nil => cases htext
    | outside hopen => exact absurd (List.cons.inj htext).1.symm hopen
    | @enclosed body rest hne hopen hclose hrest =>
      obtain ⟨-, rfl⟩ := List.cons.inj htext
      refine ⟨body, (groupOf?_eq_some_iff hslash).2 ⟨hne, ⟨hopen, hclose⟩, rest, rfl⟩, ?_⟩
      rwa [drop_enclosed]
  · rintro ⟨body, hgroup, hrest⟩
    obtain ⟨hne, ⟨hopen, hclose⟩, rest, rfl⟩ := (groupOf?_eq_some_iff hslash).1 hgroup
    rw [drop_enclosed] at hrest
    exact .enclosed hne hopen hclose hrest

/-- A character that is no parenthesis leaves the turn as it is. -/
theorem alternating_cons_iff {c : Char} (hopen : c ≠ '(') (hclose : c ≠ ')') (cs : List Char) :
    Alternating (c :: cs) ↔ Alternating cs := by
  constructor
  · intro h
    cases h with
    | outside _ _ h => exact h
    | enclosed => exact absurd rfl hopen
  · exact .outside hopen hclose

/-! ## From a text to what follows a part of it -/

/-- Before the rest of the text no parenthesis is left open, and the names there are the given
ones. -/
structure Passes (cs : List Char) (names : List (List Char)) (rest : List Char) : Prop where
  /-- The parentheses of the text are in turn if those of the rest are. -/
  alternating : Alternating cs ↔ Alternating rest
  /-- The names of the rest come after the given ones. -/
  outerNames : outerNames cs = names ++ outerNames rest

namespace Passes

theorem refl (cs : List Char) : Passes cs [] cs := ⟨Iff.rfl, rfl⟩

theorem trans {cs mid rest : List Char} {names names' : List (List Char)}
    (h : Passes cs names mid) (h' : Passes mid names' rest) : Passes cs (names ++ names') rest := by
  refine ⟨h.alternating.trans h'.alternating, ?_⟩
  rw [h.outerNames, h'.outerNames, List.append_assoc]

/-- A character that is no parenthesis and no colon. -/
theorem char {c : Char} (hopen : c ≠ '(') (hclose : c ≠ ')') (hcolon : c ≠ ':')
    (cs : List Char) : Passes (c :: cs) [] cs :=
  ⟨alternating_cons_iff hopen hclose cs, outerNames_cons hopen hclose hcolon cs⟩

/-- The sign of a modifier. -/
theorem sign {c : Char} {m : Modifier} (h : Modifier.ofChar? c = some m) (cs : List Char) :
    Passes (c :: cs) [] cs := by
  have hnot : c ≠ '(' ∧ c ≠ ')' ∧ c ≠ ':' := by
    refine ⟨?_, ?_, ?_⟩ <;> rintro rfl <;> exact absurd h nofun
  exact char hnot.1 hnot.2.1 hnot.2.2 cs

/-- A colon without a name. -/
theorem colon {cs : List Char} (h : cs.takeWhile isWord = []) : Passes (':' :: cs) [] cs := by
  refine ⟨alternating_cons_iff (by decide) (by decide) cs, ?_⟩
  rw [outerNames_colon, if_pos h]
  rfl

/-- Word characters. -/
theorem word {w : List Char} (h : ∀ c ∈ w, isWord c = true) (cs : List Char) :
    Passes (w ++ cs) [] cs := by
  induction w with
  | nil => exact refl cs
  | cons c w ih =>
    rw [List.forall_mem_cons] at h
    obtain ⟨hopen, hclose, hcolon⟩ := ne_of_isWord h.1
    exact (char hopen hclose hcolon (w ++ cs)).trans (ih h.2)

/-- A colon with its name. -/
theorem name {cs : List Char} (h : cs.takeWhile isWord ≠ []) :
    Passes (':' :: cs) [cs.takeWhile isWord] (cs.drop (cs.takeWhile isWord).length) := by
  have hdrop : cs.drop (cs.takeWhile isWord).length = cs.dropWhile isWord := by
    have hsplit : cs.takeWhile isWord ++ cs.dropWhile isWord = cs := List.takeWhile_append_dropWhile
    calc cs.drop (cs.takeWhile isWord).length
        = (cs.takeWhile isWord ++ cs.dropWhile isWord).drop (cs.takeWhile isWord).length := by
          rw [hsplit]
      _ = cs.dropWhile isWord := List.drop_left
  have hword : Passes cs [] (cs.dropWhile isWord) := by
    have hchars : ∀ c ∈ cs.takeWhile isWord, isWord c = true := fun c => List.mem_takeWhile_imp
    have h := word hchars (cs.dropWhile isWord)
    rwa [List.takeWhile_append_dropWhile] at h
  have hcolon := outerNames_colon cs
  rw [if_neg h, hword.outerNames, List.nil_append] at hcolon
  rw [hdrop]
  exact ⟨(alternating_cons_iff (by decide) (by decide) cs).trans hword.alternating, hcolon⟩

/-- A group. -/
theorem group {cs body : List Char} (hslash : '\\' ∉ cs) (h : groupOf? cs = some body) :
    Passes cs [] (cs.drop (body.length + 2)) := by
  obtain ⟨cs, rfl⟩ : ∃ cs', cs = '(' :: cs' := by
    unfold groupOf? at h
    split at h
    · exact ⟨_, rfl⟩
    · cases h
  have hslash : '\\' ∉ cs := fun hmem => hslash (List.mem_cons_of_mem _ hmem)
  obtain ⟨hne, ⟨hopen, hclose⟩, rest, rfl⟩ := (groupOf?_eq_some_iff hslash).1 h
  rw [List.drop_succ_cons, drop_enclosed]
  refine ⟨?_, outerNames_enclosed hopen hclose rest⟩
  rw [alternating_open_iff hslash]
  constructor
  · rintro ⟨body', hgroup, hrest⟩
    obtain rfl := Option.some.inj (h.symm.trans hgroup)
    rwa [drop_enclosed] at hrest
  · intro hrest
    exact ⟨body, h, by rwa [drop_enclosed]⟩

end Passes

/-! ## From a piece to the next -/

/-- A form takes a character at least. -/
theorem pos_of_formOf? {cs : List Char} {form : Form} {n : Nat}
    (h : formOf? cs = some (form, n)) : 0 < n := by
  unfold formOf? at h
  split at h
  · cases h
    exact Nat.one_pos
  · dsimp only at h
    split at h
    · cases h
    · split at h <;> cases h <;> omega
  · split at h
    · cases h
      omega
    · cases h

/-- A form. -/
theorem Passes.form {cs : List Char} {form : Form} {n : Nat} (hslash : '\\' ∉ cs)
    (h : formOf? cs = some (form, n)) : Passes cs form.name?.toList (cs.drop n) := by
  unfold formOf? at h
  split at h
  · -- A star.
    cases h
    exact .char (by decide) (by decide) (by decide) _
  · -- A parameter, with a group after its name or without one.
    next cs =>
    dsimp only at h
    split at h
    · cases h
    · next hname =>
      have hname : cs.takeWhile isWord ≠ [] := fun hnil => hname (List.isEmpty_iff.2 hnil)
      have hrest : '\\' ∉ cs.drop (cs.takeWhile isWord).length :=
        fun hmem => hslash (List.mem_cons_of_mem _ (List.mem_of_mem_drop hmem))
      split at h
      · next body hgroup =>
        cases h
        have hpasses := (Passes.name hname).trans (.group hrest hgroup)
        rw [List.drop_drop] at hpasses
        have hlength : (cs.takeWhile isWord).length + body.length + 3 =
            (cs.takeWhile isWord).length + (body.length + 2) + 1 := by omega
        rw [hlength, List.drop_succ_cons]
        exact hpasses
      · cases h
        exact Passes.name hname
  · -- A group alone.
    split at h
    · next body hgroup =>
      cases h
      exact .group hslash hgroup
    · cases h

/-- A capture, with the modifier after its form or without one. -/
theorem Passes.capture {lead : Option Char} {cs : List Char} {p : Piece} {n : Nat}
    (hslash : '\\' ∉ cs) (h : captureOf? lead cs = some (p, n)) :
    0 < n ∧ p.isParenthesis = false ∧ Passes cs p.name?.toList (cs.drop n) := by
  unfold captureOf? at h
  split at h
  · cases h
  · next form k hform =>
    have hpos := pos_of_formOf? hform
    have hpasses := Passes.form hslash hform
    dsimp only at h
    split at h
    · next modifier hmodifier =>
      cases h
      refine ⟨Nat.succ_pos k, rfl, ?_⟩
      split at hmodifier
      · cases hmodifier
      · -- The sign is the first character behind the form.
        obtain ⟨c, hhead, hsign⟩ := Option.bind_eq_some_iff.1 hmodifier
        obtain ⟨rest, hrest⟩ := List.head?_eq_some_iff.1 hhead
        have hdrop : cs.drop (k + 1) = rest := by
          rw [← List.drop_drop, hrest, List.drop_succ_cons, List.drop_zero]
        rw [hrest] at hpasses
        have hsigned := hpasses.trans (.sign hsign rest)
        rw [List.append_nil] at hsigned
        rwa [hdrop]
    · cases h
      exact ⟨hpos, rfl, hpasses⟩

/-- Where no capture starts, there is no form. -/
theorem formOf?_eq_none {lead : Option Char} {cs : List Char} (h : captureOf? lead cs = none) :
    formOf? cs = none := by
  unfold captureOf? at h
  split at h
  · assumption
  · dsimp only at h
    split at h <;> cases h

/-- Where a parenthesis opens no form, it opens no group. -/
theorem groupOf?_eq_none {cs : List Char} (h : formOf? ('(' :: cs) = none) :
    groupOf? ('(' :: cs) = none := by
  unfold formOf? at h
  split at h
  · cases h
  · next heq => cases heq
  · split at h
    · cases h
    · assumption

/-- Where a colon starts no form, there is no name after it. -/
theorem takeWhile_isWord_eq_nil {cs : List Char} (h : formOf? (':' :: cs) = none) :
    cs.takeWhile isWord = [] := by
  simp only [formOf?] at h
  split at h
  · next hempty => exact List.isEmpty_iff.1 hempty
  · split at h <;> cases h

/-- A piece that is a parenthesis of no group shows that the parentheses are not in turn. Any other
piece leads to what follows it. -/
theorem Passes.piece {c : Char} {cs : List Char} (hslash : '\\' ∉ c :: cs) :
    ((readPiece c cs).1.isParenthesis = true ∧ ¬Alternating (c :: cs)) ∨
      ((readPiece c cs).1.isParenthesis = false ∧
        Passes (c :: cs) (readPiece c cs).1.name?.toList (cs.drop (readPiece c cs).2)) := by
  have hnot : c ≠ '\\' := fun heq => hslash (heq ▸ List.mem_cons_self)
  have hrest : '\\' ∉ cs := fun hmem => hslash (List.mem_cons_of_mem _ hmem)
  by_cases hlead : c = '/' ∨ c = '.'
  · -- A lead, of a capture or of none.
    have hplain : c ≠ '(' ∧ c ≠ ')' ∧ c ≠ ':' := by
      rcases hlead with rfl | rfl <;> decide
    have hchar := Passes.char hplain.1 hplain.2.1 hplain.2.2 cs
    rw [readPiece_lead hlead]
    cases hcapture : captureOf? (some c) cs with
    | none => exact .inr ⟨by simp [Piece.isParenthesis, hplain], hchar⟩
    | some found =>
      obtain ⟨-, hparenthesis, hpasses⟩ := Passes.capture hrest hcapture
      exact .inr ⟨hparenthesis, hchar.trans hpasses⟩
  · rw [readPiece_other hlead hnot]
    cases hcapture : captureOf? none (c :: cs) with
    | some found =>
      obtain ⟨hpos, hparenthesis, hpasses⟩ := Passes.capture hslash hcapture
      obtain ⟨k, hk⟩ := Nat.exists_eq_succ_of_ne_zero hpos.ne'
      rw [hk] at hpasses
      refine .inr ⟨hparenthesis, ?_⟩
      show Passes (c :: cs) found.1.name?.toList (cs.drop (found.2 - 1))
      rw [hk]
      exact hpasses
    | none =>
      -- A character that starts no capture: a parenthesis, a colon without a name, or any other.
      have hform := formOf?_eq_none hcapture
      show ((Piece.plain c).isParenthesis = true ∧ _) ∨
        ((Piece.plain c).isParenthesis = false ∧ Passes (c :: cs) [] cs)
      by_cases hopen : c = '('
      · subst hopen
        refine .inl ⟨rfl, fun halternating => ?_⟩
        obtain ⟨body, hgroup, -⟩ := (alternating_open_iff hrest).1 halternating
        rw [groupOf?_eq_none hform] at hgroup
        cases hgroup
      by_cases hclose : c = ')'
      · subst hclose
        refine .inl ⟨rfl, fun halternating => ?_⟩
        cases halternating with
        | outside _ hclose => exact hclose rfl
      refine .inr ⟨by simp [Piece.isParenthesis, hopen, hclose], ?_⟩
      by_cases hcolon : c = ':'
      · subst hcolon
        exact .colon (takeWhile_isWord_eq_nil hform)
      · exact .char hopen hclose hcolon cs

/-! ## From the text to its pieces -/

/-- What holds of the empty text, and of a text if it holds of what follows its first piece, holds
of every text. -/
theorem pieces_induction {P : List Char → Prop} (nil : P [])
    (cons : ∀ c cs, P (cs.drop (readPiece c cs).2) → P (c :: cs)) (cs : List Char) : P cs :=
  match cs with
  | [] => nil
  | c :: cs => cons c cs (pieces_induction nil cons (cs.drop (readPiece c cs).2))
termination_by cs.length
decreasing_by
  simp only [List.length_drop, List.length_cons]
  omega

/-- Parentheses are in turn exactly if none of them is a piece of its own. -/
theorem alternating_iff_pieces {cs : List Char} (hslash : '\\' ∉ cs) :
    Alternating cs ↔ ∀ p ∈ pieces cs, p.isParenthesis = false := by
  induction cs using pieces_induction with
  | nil => exact ⟨fun _ => nofun, fun _ => .nil⟩
  | cons c cs ih =>
    have hrest : '\\' ∉ cs.drop (readPiece c cs).2 :=
      fun hmem => hslash (List.mem_cons_of_mem _ (List.mem_of_mem_drop hmem))
    rw [pieces_cons, List.forall_mem_cons, ← ih hrest]
    rcases Passes.piece hslash with ⟨hparenthesis, hnot⟩ | ⟨hplain, hpasses⟩
    · rw [hparenthesis]
      exact ⟨fun h => absurd h hnot, fun h => absurd h.1 nofun⟩
    · rw [hplain]
      exact ⟨fun h => ⟨rfl, hpasses.alternating.1 h⟩, fun h => hpasses.alternating.2 h.2⟩

/-- The names of a text whose parentheses are in turn are those of its pieces. -/
theorem filterMap_name?_pieces {cs : List Char} (hslash : '\\' ∉ cs) (h : Alternating cs) :
    (pieces cs).filterMap Piece.name? = outerNames cs := by
  induction cs using pieces_induction with
  | nil => rfl
  | cons c cs ih =>
    have hrest : '\\' ∉ cs.drop (readPiece c cs).2 :=
      fun hmem => hslash (List.mem_cons_of_mem _ (List.mem_of_mem_drop hmem))
    rcases Passes.piece hslash with ⟨-, hnot⟩ | ⟨-, hpasses⟩
    · exact absurd h hnot
    · rw [pieces_cons, List.filterMap_cons, hpasses.outerNames,
        ih hrest (hpasses.alternating.1 h)]
      cases (readPiece c cs).1.name? <;> rfl

/-- A text without a backslash is refused exactly if its parentheses are not in turn or a name comes
twice. Otherwise its captures have the names of the text, in the same order. -/
theorem parse_eq_error_iff {cs : List Char} (hslash : '\\' ∉ cs) :
    ((∃ f, parse cs = .error f) ↔ ¬Alternating cs ∨ ¬(outerNames cs).Nodup) ∧
      (Alternating cs → (outerNames cs).Nodup →
        ∃ ts, parse cs = .ok ts ∧ paramNames ts = (outerNames cs).map String.ofList) := by
  have hread : (∃ r, Reader.start.readAll (pieces cs) = .ok r) ↔
      Alternating cs ∧ (outerNames cs).Nodup := by
    rw [Reader.exists_readAll_iff, ← alternating_iff_pieces hslash]
    constructor
    · rintro ⟨halternating, hnodup, -⟩
      exact ⟨halternating, filterMap_name?_pieces hslash halternating ▸ hnodup⟩
    · rintro ⟨halternating, hnodup⟩
      rw [filterMap_name?_pieces hslash halternating]
      exact ⟨halternating, hnodup, fun _ _ => List.not_mem_nil⟩
  constructor
  · rw [← not_and_or, ← hread]
    constructor
    · rintro ⟨f, hfault⟩ ⟨r, hr⟩
      rw [parse, hr] at hfault
      cases hfault
    · intro hnone
      cases hr : Reader.start.readAll (pieces cs) with
      | ok r => exact absurd ⟨r, hr⟩ hnone
      | error f => exact ⟨f, map_eq_error.2 hr⟩
  · intro halternating hnodup
    obtain ⟨r, hr⟩ := hread.2 ⟨halternating, hnodup⟩
    refine ⟨r.finish, map_eq_ok.2 ⟨r, hr, rfl⟩, ?_⟩
    rw [Reader.paramNames_finish, Reader.paramNames_readAll hr,
      filterMap_name?_pieces hslash halternating]
    show (((outerNames cs).map String.ofList).reverse ++ []).reverse = _
    rw [List.append_nil, List.reverse_reverse]

/-- A colon in a group names nothing. Two parameters of one name and a group in a group are
refused. -/
theorem parse_eq_error_iff_docs :
    (∃ ts, parse "/docs/:id(v:id)/:part?".toList = .ok ts ∧ paramNames ts = ["id", "part"]) ∧
      (∃ f, parse "/docs/:id-:id".toList = .error f) ∧
      ∃ f, parse "/docs/:id(v(x))".toList = .error f := by
  have halternating : Alternating "/docs/:id(v:id)/:part?".toList :=
    (alternating_iff_pieces (by decide)).2 (by decide)
  have hnested : ¬Alternating "/docs/:id(v(x))".toList :=
    fun h => absurd ((alternating_iff_pieces (by decide)).1 h) (by decide)
  refine ⟨?_, ?_, ?_⟩
  · exact (parse_eq_error_iff (by decide)).2 halternating (by decide)
  · exact (parse_eq_error_iff (by decide)).1.2 (.inr (by decide))
  · exact (parse_eq_error_iff (by decide)).1.2 (.inl hnested)

end SiteRouter.Pattern
