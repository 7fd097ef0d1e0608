import SiteRouter.Proofs.Except
import SiteRouter.Proofs.Regex.Enclosed

/-!
# A text without groups of its own

Lexemes other than parentheses stay on the level on which they are read, and what they make of it
does not depend on what is around it (`turns_of_readAll`). So a text without parentheses that can be
read in a group by itself denotes the same expression wherever the group stands, and the expression
keeps nothing (`closed_of_parse`). References are what could tell the places apart, but no group
ends before the text where it is read by itself, and so it has none.
-/

namespace SiteRouter.Regex

open Text

/-! ## What lexemes read -/

/-- A single character is read without a group, and a reference is to a group with a number. -/
def Lexeme.Sound : Lexeme → Prop
  | single r => r.KeepsNothing
  | backref n => 0 < n
  | _ => True

/-- What is read is sound. -/
def Reading.Sound : Reading → Prop
  | (some l, _) => l.Sound
  | (none, _) => True

/-- A digit that is not zero begins a number that is not zero. -/
theorem numberIn_pos {d : Char} (hdigit : isAsciiDigit d = true) (hzero : d ≠ '0') :
    0 < numberIn 10 [d] := by
  have hle : '0' ≤ d := by
    simp only [isAsciiDigit, Bool.and_eq_true, decide_eq_true_eq] at hdigit
    exact hdigit.1
  have hne : d.toNat ≠ '0'.toNat := fun h => hzero (Char.toNat_inj.1 h)
  have hle : '0'.toNat ≤ d.toNat := hle
  simp only [numberIn, List.foldl_cons, List.foldl_nil]
  omega

theorem numberIn_pair_pos {d : Char} (h : 0 < numberIn 10 [d]) (e : Char) :
    0 < numberIn 10 [d, e] := by
  simp only [numberIn, List.foldl_cons, List.foldl_nil] at h ⊢
  omega

theorem readNumber_sound {d : Char} (h : 0 < numberIn 10 [d]) (cs : List Char) :
    (readNumber d cs).Sound := by
  unfold readNumber
  split
  · next e f cs =>
    split
    · dsimp only
      split
      · exact trivial
      · exact trivial
    · split
      · exact numberIn_pair_pos h e
      · exact h
  · next e =>
    split
    · exact numberIn_pair_pos h e
    · exact h
  · exact h

theorem readEscape_sound [CharacterNames] (cs : List Char) : (readEscape cs).Sound := by
  unfold readEscape
  split
  · exact trivial
  · next d ds =>
    split
    · exact trivial
    · exact trivial
    · exact trivial
    · split
      · split
        · exact trivial
        · exact trivial
      · split
        · exact trivial
        · next hzero =>
          split
          · next hdigit => exact readNumber_sound (numberIn_pos hdigit hzero) ds
          · split
            · exact trivial
            · exact trivial

theorem keepsNothing_ofSet (negated : Bool) (items : List SetItem) :
    (ofSet negated items).KeepsNothing := by
  unfold ofSet
  split
  · split <;> trivial
  · trivial

theorem setReading_sound (negated : Bool) (read : List SetAtom × Except SyntaxFault Nat) :
    (setReading negated read).Sound := by
  unfold setReading
  split
  · exact trivial
  · exact trivial
  · exact keepsNothing_ofSet negated _

theorem readSet_sound [CharacterNames] (cs : List Char) : (readSet cs).Sound := by
  by_cases hc : cs.head? = some '^'
  · obtain ⟨t, rfl⟩ := List.head?_eq_some_iff.1 hc
    rw [readSet_circumflex]
    exact setReading_sound _ _
  · rw [readSet_of_ne hc]
    exact setReading_sound _ _

theorem readBounds_sound (lo hi : List Char) (extra : Nat) (cs : List Char) :
    (readBounds lo hi extra cs).Sound := by
  unfold readBounds
  split
  · exact trivial
  · exact trivial
  · dsimp only
    generalize (if hi.isEmpty then none else some (numberIn 10 hi)) = max
    split
    · exact trivial
    · exact trivial

theorem readBrace_sound (cs : List Char) : (readBrace cs).Sound := by
  unfold readBrace
  dsimp only
  split
  · split
    · exact trivial
    · exact readBounds_sound _ _ _ _
  · split
    · exact readBounds_sound _ _ _ _
    · exact trivial
  · exact trivial

theorem readOpening_sound (cs : List Char) : (readOpening cs).Sound := by
  unfold readOpening
  split <;> try exact trivial
  · split <;> exact trivial
  · dsimp only
    split <;> exact trivial

theorem readLexeme_sound [CharacterNames] (c : Char) (cs : List Char) :
    (readLexeme c cs).Sound := by
  unfold readLexeme
  split <;> first
    | exact trivial
    | exact readEscape_sound cs
    | exact readOpening_sound cs
    | exact readSet_sound cs
    | exact readBrace_sound cs

/-- The lexemes of a text are sound. -/
theorem sound_of_mem_lexemes [CharacterNames] {cs : List Char} {l : Lexeme} (h : l ∈ lexemes cs) :
    l.Sound := by
  obtain ⟨c, rest, -, hread⟩ := exists_of_mem_lexemes h
  have hsound := readLexeme_sound c rest
  generalize readLexeme c rest = r at hread hsound
  obtain ⟨l?, n⟩ := r
  obtain rfl : l? = some l := hread
  exact hsound

/-! ## Levels without a group -/

/-- No expression of the level has a group whose text is kept. -/
def Level.KeepsNothing (l : Level) : Prop :=
  (∀ r ∈ l.alternatives, r.KeepsNothing) ∧ ∀ p ∈ l.pieces, p.expr.KeepsNothing

/-- Alternatives have a group only if one of them has one. -/
theorem keepsNothing_alternatives {rs : List Regex} (h : ∀ r ∈ rs, r.KeepsNothing) :
    (alternatives rs).KeepsNothing := by
  induction rs with
  | nil => trivial
  | cons r rs ih =>
    rw [List.forall_mem_cons] at h
    cases rs with
    | nil => exact h.1
    | cons s rs => exact ⟨h.1, ih h.2⟩

namespace Level.KeepsNothing

variable {l : Level}

theorem fresh : Level.fresh.KeepsNothing := ⟨nofun, nofun⟩

theorem push (h : l.KeepsNothing) {p : Piece} (hp : p.expr.KeepsNothing) :
    (l.push p).KeepsNothing :=
  ⟨h.1, List.forall_mem_cons.2 ⟨hp, h.2⟩⟩

theorem current (h : l.KeepsNothing) : l.current.KeepsNothing := by
  refine keepsNothing_sequence fun r hr => ?_
  obtain ⟨p, hp, rfl⟩ := List.mem_map.1 hr
  exact h.2 p (List.mem_reverse.1 hp)

theorem bar (h : l.KeepsNothing) : l.bar.KeepsNothing :=
  ⟨List.forall_mem_cons.2 ⟨h.current, h.1⟩, nofun⟩

theorem expr (h : l.KeepsNothing) : l.expr.KeepsNothing := by
  refine keepsNothing_alternatives fun r hr => ?_
  rcases List.mem_cons.1 (List.mem_reverse.1 hr) with rfl | hr
  · exact h.current
  · exact h.1 r hr

end Level.KeepsNothing

/-! ## Reading on one level -/

/-- The lexemes make one level of another, whatever is around it and before it. -/
def Turns (ls : List Lexeme) (l l' : Level) : Prop :=
  ∀ b : Builder, b.top = l → b.readAll ls = .ok { b with top := l' }

theorem Turns.nil (l : Level) : Turns [] l l := by
  rintro b rfl
  rfl

theorem Turns.cons {x : Lexeme} {ls : List Lexeme} {l m l' : Level} (h : Turns [x] l m)
    (h' : Turns ls m l') : Turns (x :: ls) l l' := by
  intro b hb
  rw [← List.singleton_append, Builder.readAll_append, h b hb]
  exact h' _ rfl

/-- A lexeme that is no parenthesis stays on its level, and before any group it is no reference. -/
theorem turns_of_read {x : Lexeme} (hx : x.isParenthesis = false) (hsound : x.Sound)
    {b b' : Builder} (hb : b.groups = 0) (h : b.read x = .ok b') :
    ∃ l, b' = { b with top := l } ∧ Turns [x] b.top l ∧ (b.top.KeepsNothing → l.KeepsNothing) := by
  cases x with
  | single r =>
    cases h
    exact ⟨_, rfl, fun c hc => by rw [← hc]; rfl, fun hl => hl.push hsound⟩
  | anchor a =>
    cases h
    exact ⟨_, rfl, fun c hc => by rw [← hc]; rfl, fun hl => hl.push trivial⟩
  | backref n =>
    have hn : 0 < n := hsound
    rw [Builder.read, Builder.backref, hb, if_pos hn] at h
    cases h
  | bar =>
    cases h
    exact ⟨_, rfl, fun c hc => by rw [← hc]; rfl, fun hl => hl.bar⟩
  | opening kind => cases hx
  | closing => cases hx
  | count min max mode =>
    rw [Builder.read, Builder.count] at h
    cases hpieces : b.top.pieces with
    | nil =>
      rw [hpieces] at h
      cases h
    | cons p ps =>
      rw [hpieces] at h
      cases hrepeatable : p.repeatable with
      | place => simp [hrepeatable] at h
      | already => simp [hrepeatable] at h
      | yes =>
        simp only [hrepeatable, Except.ok.injEq] at h
        refine ⟨_, h.symm, fun c hc => ?_, fun hl => ⟨hl.1, ?_⟩⟩
        · simp [Builder.read, Builder.count, hc, hpieces, hrepeatable, Except.bind]
        · have hpieces' := hl.2
          rw [hpieces, List.forall_mem_cons] at hpieces'
          exact List.forall_mem_cons.2 hpieces'
  | fault f => cases h

/-- So do all lexemes without a parenthesis. -/
theorem turns_of_readAll {ls : List Lexeme} (hls : Unnested ls) (hsound : ∀ x ∈ ls, x.Sound)
    {b b' : Builder} (hb : b.groups = 0) (h : b.readAll ls = .ok b') :
    ∃ l, b' = { b with top := l } ∧ Turns ls b.top l ∧ (b.top.KeepsNothing → l.KeepsNothing) := by
  induction ls generalizing b with
  | nil =>
    obtain rfl : b = b' := Except.ok.inj h
    exact ⟨b.top, rfl, .nil _, id⟩
  | cons x ls ih =>
    rw [Unnested, List.forall_mem_cons] at hls
    rw [List.forall_mem_cons] at hsound
    rw [Builder.readAll_cons] at h
    obtain ⟨m, hm, h⟩ := bind_eq_ok.1 h
    obtain ⟨k, rfl, hturns, hkeeps⟩ := turns_of_read hls.1 hsound.1 hb hm
    obtain ⟨l, rfl, hturns', hkeeps'⟩ := ih hls.2 hsound.2 (b := { b with top := k }) hb h
    exact ⟨l, rfl, hturns.cons hturns', hkeeps' ∘ hkeeps⟩

/-- Nothing is read over a fault. -/
theorem fault_not_mem_of_readAll {ls : List Lexeme} {b b' : Builder} (h : b.readAll ls = .ok b')
    (f : SyntaxFault) : Lexeme.fault f ∉ ls := by
  induction ls generalizing b with
  | nil => nofun
  | cons x ls ih =>
    rw [Builder.readAll_cons] at h
    obtain ⟨m, hm, h⟩ := bind_eq_ok.1 h
    rw [List.mem_cons, not_or]
    refine ⟨?_, ih h⟩
    rintro rfl
    cases hm

/-! ## A text in a group -/

/-- A text without parentheses of its own, read in a group that only holds it together, denotes the
same expression wherever it stands, and this expression has no group. -/
theorem closed_of_parse [CharacterNames] {cs : List Char} (hcs : Unnested (lexemes cs))
    {p : Program}
    (h : parse (['(', '?', ':'] ++ (cs ++ [')'])) = .ok p) :
    Closed (['(', '?', ':'] ++ (cs ++ [')'])) 0 (fun _ => p.expr) ∧ p.expr.KeepsNothing := by
  have hlexemes : ∀ t, lexemes (['(', '?', ':'] ++ t) = .opening .plain :: lexemes t :=
    fun t => lexemes_cons (n := 2) rfl
  obtain ⟨b, hb, h⟩ := bind_eq_ok.1 h
  have hempty : b.outer.isEmpty = true := by
    by_contra houter
    rw [if_neg houter] at h
    cases h
  rw [if_pos hempty] at h
  cases h
  rw [hlexemes, Builder.readAll_cons] at hb
  have hb : (Builder.start.enter .plain).readAll (lexemes (cs ++ [')'])) = .ok b := hb
  rcases lexemes_closing cs hcs with hclosing | hunnested | ⟨f, hfault⟩
  · rw [hclosing, Builder.readAll_append] at hb
    obtain ⟨m, hm, hb⟩ := bind_eq_ok.1 hb
    obtain ⟨l, rfl, hturns, hkeeps⟩ := turns_of_readAll hcs (fun x => sound_of_mem_lexemes) rfl hm
    obtain rfl : { Builder.start with top := Level.fresh.push ⟨l.expr, .yes⟩ } = b :=
      Except.ok.inj hb
    refine ⟨⟨.cons (by decide) _, by simp, fun b rest => ?_⟩, (hkeeps .fresh).expr⟩
    have hinner : (b.enter .plain).readAll (lexemes (cs ++ ')' :: rest)) =
        ({ b with top := b.top.push ⟨l.expr, .yes⟩ } : Builder).readAll (lexemes rest) := by
      rw [hclosing, Builder.readAll_append, hturns (b.enter .plain) rfl]
      rfl
    rw [List.append_assoc, List.append_assoc, List.singleton_append, hlexemes, Builder.readAll_cons]
    show (b.enter .plain).readAll _ = _
    rw [hinner]
    rfl
  · -- Without an end the group would stay open.
    obtain ⟨l, rfl, -, -⟩ := turns_of_readAll hunnested (fun x => sound_of_mem_lexemes) rfl hb
    cases hempty
  · exact absurd hfault (fault_not_mem_of_readAll hb f)

end SiteRouter.Regex
