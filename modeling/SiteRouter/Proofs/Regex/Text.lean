import SiteRouter.Regex.Parse

/-!
# What the text of an expression denotes

Reading the text of an expression is reading its parts in turn, but two things cross the border
between parts: a repetition count looks at the character after it, and a group is numbered by the
groups before it. `Denotes` is the statement about a part that composes: wherever the text stands,
if no sign that changes a count follows, it adds certain pieces to the expression and opens a
certain number of groups. The lemmas below put texts together the way expressions are written, and
`Denotes.parse` ends the reading.
-/

namespace SiteRouter.Regex

/-! ## Lexemes at the start of a text -/

section Lexemes

variable [CharacterNames]

/-- The lexemes of a text are the first one, if there is one, and those of what it leaves. -/
theorem lexemes_cons_eq (c : Char) (cs : List Char) :
    lexemes (c :: cs) = (readLexeme c cs).1.toList ++ lexemes (cs.drop (readLexeme c cs).2) := by
  rw [lexemes, lexemesAfter, ← lexemesAfter_eq_drop]
  split <;> next h => rw [h]; rfl

/-- The first lexeme of a text, and the lexemes of what it leaves. -/
theorem lexemes_cons {c : Char} {cs : List Char} {l : Lexeme} {n : Nat}
    (h : readLexeme c cs = (some l, n)) : lexemes (c :: cs) = l :: lexemes (cs.drop n) := by
  rw [lexemes_cons_eq, h]
  rfl

@[simp] theorem lexemes_nil : lexemes [] = [] := rfl

/-- Every lexeme of a text is read at some place of the text. -/
theorem exists_of_mem_lexemes {cs : List Char} {l : Lexeme} (h : l ∈ lexemes cs) :
    ∃ c rest, c :: rest <:+ cs ∧ (readLexeme c rest).1 = some l := by
  have hafter : ∀ skip, l ∈ lexemesAfter skip cs →
      ∃ c rest, c :: rest <:+ cs ∧ (readLexeme c rest).1 = some l := by
    clear h
    induction cs with
    | nil =>
      intro skip h
      cases skip <;> cases h
    | cons x cs ih =>
      have hlater : ∀ skip, l ∈ lexemesAfter skip cs →
          ∃ c rest, c :: rest <:+ x :: cs ∧ (readLexeme c rest).1 = some l := by
        intro skip h
        obtain ⟨c, rest, hsuffix, hread⟩ := ih skip h
        exact ⟨c, rest, hsuffix.trans (List.suffix_cons x cs), hread⟩
      intro skip h
      cases skip with
      | succ skip => exact hlater skip h
      | zero =>
        rw [lexemesAfter] at h
        split at h
        · next l' n hread =>
          rcases List.mem_cons.1 h with rfl | h
          · exact ⟨x, cs, List.suffix_refl _, by rw [hread]⟩
          · exact hlater n h
        · next n hread => exact hlater n h
  exact hafter 0 h

end Lexemes

/-! ## Texts and pieces -/

/-- Whether a count right before the text stays as it is. -/
def KeepsCount (cs : List Char) : Prop := ∀ c, cs.head? = some c → c ≠ '?' ∧ c ≠ '+'

theorem KeepsCount.nil : KeepsCount [] := by simp [KeepsCount]

theorem KeepsCount.cons {c : Char} (h : c ≠ '?' ∧ c ≠ '+') (cs : List Char) :
    KeepsCount (c :: cs) := by
  rintro d ⟨⟩
  exact h

theorem KeepsCount.append {s t : List Char} (hs : KeepsCount s) (ht : KeepsCount t) :
    KeepsCount (s ++ t) := by
  cases s with
  | nil => exact ht
  | cons c s => exact hs

theorem modeOf_of_keepsCount {cs : List Char} (h : KeepsCount cs) : modeOf cs = (.greedy, 0) := by
  unfold modeOf
  split
  · exact absurd rfl (h _ rfl).1
  · exact absurd rfl (h _ rfl).2
  · rfl

/-- Adds pieces to the innermost level, and groups that were opened and ended in them. -/
def Builder.add (b : Builder) (groups : Nat) (ps : List Piece) : Builder :=
  { b with
    top := { b.top with pieces := ps.reverse ++ b.top.pieces }
    groups := b.groups + groups }

@[simp] theorem Builder.add_nil (b : Builder) : b.add 0 [] = b := rfl

@[simp] theorem Builder.add_groups (b : Builder) (k : Nat) (ps : List Piece) :
    (b.add k ps).groups = b.groups + k := rfl

@[simp] theorem Builder.add_add (b : Builder) (k l : Nat) (ps qs : List Piece) :
    (b.add k ps).add l qs = b.add (k + l) (ps ++ qs) := by
  simp [add, Nat.add_assoc]

variable [CharacterNames]

/-- The text denotes expressions, which depend on the number of groups before it, and opens
groups. -/
structure Denotes (text : List Char) (groups : Nat) (exprs : Nat → List Regex) : Prop where
  /-- A count before the text stays as it is. -/
  keepsCount : KeepsCount text
  /-- Pieces with the expressions are added wherever the text stands before one that keeps
  counts. -/
  readAll : ∀ (b : Builder) (rest : List Char), KeepsCount rest →
    ∃ ps : List Piece, ps.map (·.expr) = exprs b.groups ∧
      b.readAll (lexemes (text ++ rest)) = (b.add groups ps).readAll (lexemes rest)

/-- The text denotes one expression, which can be repeated, whatever follows the text. -/
structure Closed (text : List Char) (groups : Nat) (expr : Nat → Regex) : Prop where
  /-- A count before the text stays as it is. -/
  keepsCount : KeepsCount text
  /-- The text is not empty. -/
  nonempty : text ≠ []
  /-- The expression is added wherever the text stands. -/
  readAll : ∀ (b : Builder) (rest : List Char),
    b.readAll (lexemes (text ++ rest))
      = (b.add groups [⟨expr b.groups, .yes⟩]).readAll (lexemes rest)

theorem Closed.denotes {text : List Char} {k : Nat} {r : Nat → Regex}
    (h : Closed text k r) :
    Denotes text k fun n => [r n] :=
  ⟨h.keepsCount, fun b rest _ => ⟨[⟨r b.groups, .yes⟩], rfl, h.readAll b rest⟩⟩

namespace Denotes

variable {s t : List Char} {k l : Nat} {rs rs' : Nat → List Regex}

/-- No text, no expressions. -/
theorem nil : Denotes [] 0 fun _ => [] :=
  ⟨.nil, fun b rest _ => ⟨[], rfl, by simp⟩⟩

/-- One text after the other. -/
theorem append (hs : Denotes s k rs) (ht : Denotes t l rs') :
    Denotes (s ++ t) (k + l) fun n => rs n ++ rs' (n + k) := by
  refine ⟨hs.keepsCount.append ht.keepsCount, fun b rest hrest => ?_⟩
  obtain ⟨ps, hps, hread⟩ := hs.readAll b (t ++ rest) (ht.keepsCount.append hrest)
  -- The second text is numbered after the groups of the first.
  obtain ⟨qs, hqs, hread'⟩ := ht.readAll (b.add k ps) rest hrest
  refine ⟨ps ++ qs, by rw [List.map_append, hps, hqs, Builder.add_groups], ?_⟩
  rw [List.append_assoc, hread, hread', Builder.add_add]

end Denotes

/-! ## Groups -/

/-- The text between the parentheses of a group denotes the expression of the group. -/
structure Body (text : List Char) (groups : Nat) (expr : Nat → Regex) : Prop where
  /-- A count before the text stays as it is. -/
  keepsCount : KeepsCount text
  /-- Reading the text from the start of a level makes a level with the expression. -/
  readAll : ∀ (b : Builder) (rest : List Char), b.top = .fresh → KeepsCount rest →
    ∃ l : Level, l.expr = expr b.groups ∧
      b.readAll (lexemes (text ++ rest))
        = { b with top := l, groups := b.groups + groups }.readAll (lexemes rest)

/-- The text denotes alternatives: the expressions between its bars. -/
structure Offers (text : List Char) (groups : Nat) (exprs : Nat → List Regex) : Prop where
  /-- A count before the text stays as it is. -/
  keepsCount : KeepsCount text
  /-- Reading the text where an alternative starts adds its alternatives to those before. -/
  readAll : ∀ (b : Builder) (rest : List Char), b.top.pieces = [] → KeepsCount rest →
    ∃ l : Level, l.current :: l.alternatives = (exprs b.groups).reverse ++ b.top.alternatives ∧
      b.readAll (lexemes (text ++ rest))
        = { b with top := l, groups := b.groups + groups }.readAll (lexemes rest)

/-- A text without a bar is one alternative. -/
theorem Denotes.offers {s : List Char} {k : Nat} {rs : Nat → List Regex}
    (h : Denotes s k rs) :
    Offers s k fun n => [sequence (rs n)] := by
  refine ⟨h.keepsCount, fun b rest hb hrest => ?_⟩
  obtain ⟨ps, hps, hread⟩ := h.readAll b rest hrest
  refine ⟨(b.add k ps).top, ?_, hread⟩
  show sequence ((ps.reverse ++ b.top.pieces).reverse.map (·.expr)) :: b.top.alternatives = _
  rw [hb, List.append_nil, List.reverse_reverse, hps]
  rfl

namespace Offers

variable {s t : List Char} {k l : Nat} {rs rs' : Nat → List Regex}

/-- Alternatives on both sides of a bar. -/
theorem bar (hs : Offers s k rs) (ht : Offers t l rs') :
    Offers (s ++ '|' :: t) (k + l) fun n => rs n ++ rs' (n + k) := by
  refine ⟨hs.keepsCount.append (.cons (by decide) t), fun b rest hb hrest => ?_⟩
  obtain ⟨m, hm, hread⟩ := hs.readAll b ('|' :: (t ++ rest)) hb (.cons (by decide) _)
  -- The bar ends the last alternative of the first text.
  obtain ⟨m', hm', hread'⟩ :=
    ht.readAll { b with top := m.bar, groups := b.groups + k } rest rfl hrest
  refine ⟨m', ?_, ?_⟩
  · rw [hm', List.reverse_append, List.append_assoc, ← hm]
    rfl
  · rw [List.append_assoc, List.cons_append, hread, lexemes_cons (n := 0) rfl,
      Builder.readAll_cons, Builder.read, List.drop_zero, ← Nat.add_assoc]
    exact hread'

/-- All of a level is its alternatives. -/
theorem body (h : Offers s k rs) : Body s k fun n => alternatives (rs n) := by
  refine ⟨h.keepsCount, fun b rest hb hrest => ?_⟩
  obtain ⟨m, hm, hread⟩ := h.readAll b rest (by rw [hb]; rfl) hrest
  refine ⟨m, ?_, hread⟩
  rw [Level.expr, hm, hb]
  show alternatives ((rs b.groups).reverse ++ []).reverse = _
  rw [List.append_nil, List.reverse_reverse]

end Offers

theorem Denotes.body {s : List Char} {k : Nat} {rs : Nat → List Regex}
    (h : Denotes s k rs) :
    Body s k fun n => sequence (rs n) :=
  h.offers.body

/-- Two texts with a bar between them. -/
theorem Denotes.bar {s t : List Char} {k l : Nat} {rs rs' : Nat → List Regex}
    (hs : Denotes s k rs) (ht : Denotes t l rs') :
    Body (s ++ '|' :: t) (k + l) fun n => .alt (sequence (rs n)) (sequence (rs' (n + k))) :=
  (hs.offers.bar ht.offers).body

namespace Body

variable {s t : List Char} {k : Nat} {r : Nat → Regex}

/-- A text in a group, whose opening takes `m` numbers. -/
theorem group (h : Body s k r) (m : Nat) (kind : Nat → GroupKind)
    (opening : Opening)
    (hkeeps : KeepsCount t)
    (hlexeme : ∀ rest, lexemes (t ++ (s ++ ')' :: rest))
      = .opening opening :: lexemes (s ++ ')' :: rest))
    (hopening : ∀ b : Builder,
      b.opening opening = .ok ({ b with groups := b.groups + m }.enter (kind b.groups))) :
    Closed (t ++ (s ++ [')'])) (m + k) fun n => (kind n).wrap (r (n + m)) := by
  refine ⟨hkeeps.append (h.keepsCount.append (.cons (by decide) [])), by simp, fun b rest => ?_⟩
  -- The body is read on a fresh level, which the parenthesis after it ends.
  obtain ⟨l, hl, hread⟩ :=
    h.readAll ({ b with groups := b.groups + m }.enter (kind b.groups)) (')' :: rest) rfl
      (.cons (by decide) rest)
  rw [List.append_assoc, List.append_assoc, List.singleton_append, hlexeme, Builder.readAll_cons,
    Builder.read, hopening]
  show ({ b with groups := b.groups + m }.enter (kind b.groups)).readAll _ = _
  rw [hread, lexemes_cons (n := 0) rfl, Builder.readAll_cons, List.drop_zero]
  show Builder.readAll _ _ = _
  have hl : l.expr = r (b.groups + m) := hl
  simp [Builder.add, Builder.enter, Level.push, hl, Nat.add_assoc]

/-- A text in a group that only holds it together. -/
theorem plain (h : Body s k r) : Closed (['(', '?', ':'] ++ (s ++ [')'])) k r := by
  have hgroup := h.group 0 (fun _ => .plain) .plain
    (t := ['(', '?', ':']) (.cons (by decide) _) (fun rest => lexemes_cons (n := 2) rfl)
    fun b => rfl
  rwa [Nat.zero_add] at hgroup

/-- A text in a condition on what follows. -/
theorem ahead (h : Body s k r) :
    Closed (['(', '?', '='] ++ (s ++ [')'])) k fun n => .ahead (r n) := by
  have hgroup := h.group 0 (fun _ => .ahead) .ahead
    (t := ['(', '?', '=']) (.cons (by decide) _) (fun rest => lexemes_cons (n := 2) rfl)
    fun b => rfl
  rwa [Nat.zero_add] at hgroup

/-- A text in a group that is kept under the next number. The text starts with no question mark,
which would open a group of another kind. -/
theorem kept (h : Body s k r) :
    Closed (['('] ++ (s ++ [')'])) (k + 1) fun n => .group (n + 1) (r (n + 1)) := by
  have hopen : ∀ rest, readOpening (s ++ ')' :: rest) = (some (.opening (.capture none)), 0) := by
    intro rest
    have hkeeps : KeepsCount (s ++ ')' :: rest) := h.keepsCount.append (.cons (by decide) rest)
    -- All other openings start with a question mark.
    unfold readOpening
    split <;> first | rfl | exact absurd rfl (hkeeps _ (by simp_all)).1
  have hgroup := h.group 1 (fun n => .capture (n + 1)) (.capture none)
    (t := ['(']) (.cons (by decide) _) (fun rest => lexemes_cons (n := 0) (hopen rest))
    fun b => rfl
  rwa [Nat.add_comm] at hgroup

/-- The end of the reading: the expression, with the groups that were opened. -/
theorem parse (h : Body s k r) : Regex.parse s = .ok ⟨r 0, k⟩ := by
  obtain ⟨l, hl, hread⟩ := h.readAll .start [] rfl .nil
  rw [List.append_nil, lexemes_nil, Builder.readAll_nil] at hread
  have hl : l.expr = r 0 := hl
  rw [Regex.parse, hread, ← hl]
  simp [Builder.start, bind, Except.bind, pure, Except.pure]

end Body

/-! ## Counts -/

/-- A count after a text that denotes one expression. -/
theorem Closed.repeated {s : List Char} {k : Nat} {r : Nat → Regex} {sign : Char}
    {min : Nat} {max : Option Nat} {mode : Mode} (h : Closed s k r) (signs : List Char)
    (hsign : ∀ cs, KeepsCount cs →
      readLexeme sign (signs ++ cs) = (some (.count min max mode), signs.length)) :
    Denotes (s ++ sign :: signs) k fun n => [.repeated (r n) min max mode] := by
  refine ⟨?_, fun b rest hrest => ?_⟩
  · obtain ⟨c, s, rfl⟩ := List.exists_cons_of_ne_nil h.nonempty
    exact h.keepsCount
  · refine ⟨[⟨.repeated (r b.groups) min max mode, .already⟩], rfl, ?_⟩
    rw [List.append_assoc, List.cons_append, h.readAll, lexemes_cons (hsign rest hrest),
      List.drop_left, Builder.readAll_cons]
    rfl

/-- A count of as many as possible. -/
theorem Closed.counted {s : List Char} {k : Nat} {r : Nat → Regex} {sign : Char}
    {min : Nat}
    {max : Option Nat} (h : Closed s k r)
    (hsign : ∀ cs, readLexeme sign cs = readCount min max 0 cs) :
    Denotes (s ++ [sign]) k fun n => [.repeated (r n) min max .greedy] := by
  refine h.repeated [] fun cs hcs => ?_
  rw [List.nil_append, hsign, readCount, modeOf_of_keepsCount hcs]
  rfl

/-! ## Single lexemes -/

/-- A text whose one lexeme is an expression that can be repeated. -/
theorem Closed.of_lexeme {c : Char} {s : List Char} {r : Regex}
    (hkeeps : KeepsCount (c :: s))
    (h : ∀ rest, readLexeme c (s ++ rest) = (some (.single r), s.length)) :
    Closed (c :: s) 0 fun _ => r := by
  refine ⟨hkeeps, by simp, fun b rest => ?_⟩
  rw [List.cons_append, lexemes_cons (h rest), List.drop_left, Builder.readAll_cons]
  rfl

/-- A text whose one lexeme is a place. -/
theorem Denotes.of_anchor {c : Char} {s : List Char} {a : Anchor}
    (hkeeps : KeepsCount (c :: s))
    (h : ∀ rest, readLexeme c (s ++ rest) = (some (.anchor a), s.length)) :
    Denotes (c :: s) 0 fun _ => [.anchor a] := by
  refine ⟨hkeeps, fun b rest _ => ⟨[⟨.anchor a, .place⟩], rfl, ?_⟩⟩
  rw [List.cons_append, lexemes_cons (h rest), List.drop_left, Builder.readAll_cons]
  rfl

/-- Whether the character has a meaning of its own in an expression. -/
def isSyntax (c : Char) : Bool := "\\.^$|()[*+?\x7b".toList.contains c

/-- A character without a meaning of its own. -/
theorem Closed.char {c : Char} (h : isSyntax c = false) :
    Closed [c] 0 fun _ => .char c.toNat := by
  refine .of_lexeme (.cons ⟨?_, ?_⟩ _) fun rest => ?_
  · rintro rfl; exact absurd h (by decide)
  · rintro rfl; exact absurd h (by decide)
  · unfold readLexeme
    split <;> first | rfl | exact absurd h (by decide)

/-- Characters without a meaning of their own. -/
theorem denotes_chars {t : List Char} (h : ∀ c ∈ t, isSyntax c = false) :
    Denotes t 0 fun _ => t.map fun c => .char c.toNat := by
  induction t with
  | nil => exact .nil
  | cons c t ih =>
    rw [List.forall_mem_cons] at h
    exact (Closed.char h.1).denotes.append (ih h.2)

/-- Texts without a meaning of their own, with bars between them. -/
theorem offers_chars {t : List Char} {ts : List (List Char)}
    (h : ∀ u ∈ t :: ts, ∀ c ∈ u, isSyntax c = false) :
    Offers (['|'].intercalate (t :: ts)) 0
      fun _ => (t :: ts).map fun u => sequence (u.map fun c => .char c.toNat) := by
  induction ts generalizing t with
  | nil =>
    rw [List.forall_mem_singleton] at h
    rw [List.intercalate_singleton]
    exact (denotes_chars h).offers
  | cons t' ts ih =>
    rw [List.forall_mem_cons] at h
    rw [List.intercalate_cons_cons, List.append_assoc]
    exact (denotes_chars h.1).offers.bar (ih h.2)

/-- Whether a backslash before the character makes it stand for itself. -/
def isEscapable (c : Char) : Bool :=
  (categoryOf? c).isNone && (controlOf? c).isNone && (placeOf? c).isNone &&
    !isAsciiDigit c && !isAsciiLetter c

/-- A character behind a backslash that has no meaning behind one. -/
theorem Closed.escaped {c : Char} (h : isEscapable c = true) :
    Closed ['\\', c] 0 fun _ => .char c.toNat := by
  simp only [isEscapable, Bool.and_eq_true, Option.isNone_iff_eq_none, Bool.not_eq_true'] at h
  obtain ⟨⟨⟨⟨hcategory, hcontrol⟩, hplace⟩, hdigit⟩, hletter⟩ := h
  have hletters : codeLetters.all isAsciiLetter = true := by decide
  have hcode : c ∉ codeLetters := fun hc =>
    absurd (List.all_eq_true.mp hletters c hc) (by simp [hletter])
  have h0 : c ≠ '0' := by rintro rfl; exact absurd hdigit (by decide)
  refine .of_lexeme (.cons (by decide) _) fun rest => ?_
  show readEscape (c :: rest) = _
  simp [readEscape, hcategory, hcontrol, hplace, hcode, h0, hdigit, hletter, Reading.char]

end SiteRouter.Regex
